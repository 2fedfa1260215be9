import ConnectionPool.Proofs.Search
import ConnectionPool.Proofs.Views

/-!
# The loop of an acquisition

A search goes round a loop. Each look at the pool examines a candidate, drops the oldest lease
because nobody can use it any more, is refused by the driver, or finds the pool at a standstill. The
looks of a search account for all that it does to the counts. A pool within its limits has room for
one more connection once a candidate has been rejected or a lease dropped. From then on the search
takes what is idle or opens connections, so it takes one lease at most, and it does not stand still
after its first look.
-/

set_option autoImplicit false

namespace ConnectionPool

theorem Config.toNat_badLimit (c : Config) :
    c.badLimit.toNat = min (c.maxIdle.toNat + c.tolerance.toNat) (UInt64.size - 1) :=
  UInt64.toNat_ofNat_of_lt' (Nat.lt_of_le_of_lt (Nat.min_le_right _ _) (by decide))

/-- The count stays a word as long as it is within a limit that is one. -/
theorem toNat_strike {n limit : UInt64} (h : n.toNat + 1 ≤ limit.toNat) :
    (n + 1).toNat = n.toNat + 1 := by
  rw [UInt64.toNat_add]
  exact Nat.mod_eq_of_lt (Nat.lt_of_le_of_lt h limit.toNat_lt_size)

inductive Source where
  | idle
  | opened
  | claimed
  deriving DecidableEq, Repr

inductive Look where
  | tried (source : Source) (examination : Examination)
  | dropped (oldest : Entry)
  | refused (error : DriverError)
  | standstill

namespace Look

def examination? : Look → Option Examination
  | tried _ x => some x
  | dropped _ | refused _ | standstill => none

def idle? : Look → Option Entry
  | tried .idle x => some x.entry
  | tried .opened _ | tried .claimed _ | dropped _ | refused _ | standstill => none

def isTrial : Look → Bool
  | tried _ _ => true
  | dropped _ | refused _ | standstill => false

def isFrom (source : Source) : Look → Bool
  | tried s _ => s == source
  | dropped _ | refused _ | standstill => false

def isBad : Look → Bool
  | tried _ x => !x.sound
  | dropped _ | refused _ | standstill => false

def isGood : Look → Bool
  | tried _ x => x.sound
  | dropped _ | refused _ | standstill => false

def isDrop : Look → Bool
  | dropped _ => true
  | tried _ _ | refused _ | standstill => false

def endsLease : Look → Bool
  | tried s _ => s == .claimed
  | dropped _ => true
  | refused _ | standstill => false

end Look

def Event.claimant? : Event → Option Nat
  | claimed caller _ _ => some caller
  | connect _ _ | call _ _ _ | examined _ _ _ _ _ | granted _ _ | returned _ _ _ | shelved _ => none
  | drained _ _ | slept _ | woke _ _ | settled _ _ _ => none

/-- What the looks of one caller add up to in the books. -/
structure Books.Sums (caller : Nat) (looks : List Look) (b b' : Books) : Prop where
  config : b'.config = b.config
  bad : b'.tally.bad = b.tally.bad + looks.countP Look.isBad
  requests : b'.tally.requests = b.tally.requests + looks.countP Look.isGood
  opened : b'.record.opened = b.record.opened + looks.countP (Look.isFrom .opened)
  idle : b.idle = looks.filterMap Look.idle? ++ b'.idle
  claimants : b'.view Event.claimant? =
    List.replicate (looks.countP Look.endsLease) caller ++ b.view Event.claimant?
  examinations : b'.examinations =
    (looks.filterMap Look.examination?).reverse ++ b.examinations

theorem Books.Sums.trans {caller : Nat} {looks more : List Look} {b b' b'' : Books}
    (h : Sums caller looks b b') (h' : Sums caller more b' b'') :
    Sums caller (looks ++ more) b b'' where
  config := h'.config.trans h.config
  bad := by rw [h'.bad, h.bad, List.countP_append, Nat.add_assoc]
  requests := by rw [h'.requests, h.requests, List.countP_append, Nat.add_assoc]
  opened := by rw [h'.opened, h.opened, List.countP_append, Nat.add_assoc]
  idle := by rw [h.idle, h'.idle, List.filterMap_append, List.append_assoc]
  claimants := by
    rw [h'.claimants, h.claimants, ← List.append_assoc, List.replicate_append_replicate,
      List.countP_append, Nat.add_comm]
  examinations := by
    rw [h'.examinations, h.examinations, List.filterMap_append, List.reverse_append,
      List.append_assoc]

structure Books.Judged (x : Examination) (b b' : Books) : Prop where
  config : b'.config = b.config
  idle : b'.idle = b.idle
  bad : b'.tally.bad = b.tally.bad + if x.sound then 0 else 1
  requests : b'.tally.requests = b.tally.requests + if x.sound then 1 else 0
  opened : b'.record.opened = b.record.opened
  claimants : b'.view Event.claimant? = b.view Event.claimant?
  examinations : b'.examinations = x :: b.examinations

namespace Pool

variable {σ : Type}

def examination (caller : Nat) (e : Entry) (sound : Bool) (p : Pool σ) : Examination :=
  ⟨caller, e, sound, p.idle.length + p.active.length, p.config.maxActive.toNat⟩

def Roomy (p : Pool σ) : Prop := p.idle.length + p.active.length < p.config.maxActive.toNat

theorem Roomy.hasRoom {p : Pool σ} (h : p.Roomy) : p.hasRoom = true :=
  decide_eq_true (Nat.lt_of_le_of_lt (Nat.le_add_left _ _) h)

theorem Roomy.congr {p q : Pool σ} (h : p.Roomy) (hi : q.idle.length ≤ p.idle.length)
    (ha : q.active = p.active) (hc : q.config = p.config) : q.Roomy := by
  unfold Roomy at h ⊢
  rw [ha, hc]
  omega

variable [Driver σ]

inductive Takes (now caller : Nat) (p : Pool σ) : Source → Entry → Pool σ → Prop
  | idle (e : Entry) (rest : List Entry) (hi : p.idle = e :: rest) :
      Takes now caller p .idle e { p with idle := rest }
  | opened (e : Entry) (q : Pool σ) (hi : p.idle = []) (hr : p.hasRoom = true)
      (h : p.openLink now = (.found e, q)) : Takes now caller p .opened e q
  | claimed (oldest : Entry) (rest : List Entry) (hi : p.idle = []) (hr : p.hasRoom = false)
      (ha : p.active = oldest :: rest) (ho : p.config.maxCheckout < oldest.heldFor now)
      (hv : p.status oldest.id = .valid) :
      Takes now caller p .claimed (oldest.successor p.nextEntry) (p.takeOver now caller oldest rest)

inductive Drops (now caller : Nat) (p : Pool σ) : Entry → Pool σ → Prop
  | drop (oldest : Entry) (rest : List Entry) (hi : p.idle = []) (hr : p.hasRoom = false)
      (ha : p.active = oldest :: rest) (ho : p.config.maxCheckout < oldest.heldFor now)
      (hv : p.status oldest.id ≠ .valid) :
      Drops now caller p oldest ((p.unlend now caller oldest rest).close oldest)

/-- From the pool the search of the request takes these looks, comes to this outcome and leaves this
pool. -/
inductive Loop (now : Nat) : Request → Pool σ → List Look → Outcome → Pool σ → Prop
  | granted (r : Request) (p p₁ p₂ : Pool σ) (source : Source) (e : Entry)
      (ht : p.Takes now r.caller source e p₁) (hx : p₁.examine now r.caller e = (true, p₂)) :
      Loop now r p [.tried source (p₁.examination r.caller e true)]
        (.granted (p₂.grant now r e).1) (p₂.grant now r e).2
  | exhausted (r : Request) (p p₁ p₂ : Pool σ) (source : Source) (e : Entry)
      (ht : p.Takes now r.caller source e p₁) (hx : p₁.examine now r.caller e = (false, p₂))
      (hl : p.config.badLimit.toNat < r.strikes.toNat + 1) :
      Loop now r p [.tried source (p₁.examination r.caller e false)]
        (.failed r.exhaustion) (p₂.reject e)
  | again (r : Request) (p p₁ p₂ q : Pool σ) (source : Source) (e : Entry) (looks : List Look)
      (outcome : Outcome) (ht : p.Takes now r.caller source e p₁)
      (hx : p₁.examine now r.caller e = (false, p₂))
      (hl : r.strikes.toNat + 1 ≤ p.config.badLimit.toNat)
      (h : Loop now { r with strikes := r.strikes + 1 } (p₂.reject e) looks outcome q) :
      Loop now r p (.tried source (p₁.examination r.caller e false) :: looks) outcome q
  | dropped (r : Request) (p p' q : Pool σ) (oldest : Entry) (looks : List Look)
      (outcome : Outcome) (hd : p.Drops now r.caller oldest p') (hr : p'.hasRoom = true)
      (h : Loop now r p' looks outcome q) : Loop now r p (.dropped oldest :: looks) outcome q
  | refused (r : Request) (p q : Pool σ) (error : DriverError) (hi : p.idle = [])
      (hr : p.hasRoom = true) (h : p.openLink now = (.refused error, q)) :
      Loop now r p [.refused error] (.failed (.create error)) q
  | standstill (r : Request) (p : Pool σ) (hi : p.idle = []) (hr : p.hasRoom = false)
      (ho : ∀ oldest ∈ p.active.head?, oldest.heldFor now ≤ p.config.maxCheckout) :
      Loop now r p [.standstill]
        (if p.active.isEmpty then .failed .unavailable else .saturated r) p

variable {now : Nat} {p p₁ p₂ q : Pool σ} {source : Source} {e : Entry}

theorem Takes.turn {caller : Nat} (h : p.Takes now caller source e q) :
    Turn now caller (none, p) (some e, q) := by
  cases h with
  | idle e rest hi => exact .pick p e rest hi
  | opened e q hi hr h => exact .connect p q e hi hr h
  | claimed oldest rest hi hr ha ho hv => exact .claim p oldest rest hi hr ha ho hv

theorem Drops.turn {caller : Nat} {oldest : Entry} (h : p.Drops now caller oldest q) :
    Turn now caller (none, p) (none, q) := by
  cases h with
  | drop rest hi hr ha ho hv => exact .drop p oldest rest hi hr ha ho hv

variable {caller : Nat}

theorem config_rejected {sound : Bool} (ht : p.Takes now caller source e p₁)
    (hx : p₁.examine now caller e = (sound, p₂)) : (p₂.reject e).config = p.config := by
  have hb := examine_books now caller e sound p₁ p₂ hx
  have hq : (p₂.reject e).config = p₂.config := congrArg Books.config (books_reject e p₂)
  exact hq.trans ((congrArg Books.config hb).trans (turn_books ht.turn).config.1)

theorem Takes.fit (h : p.Takes now caller source e q) (f : p.books.Fit none) :
    q.books.Fit (some e) := (turn_books h.turn).fit f

theorem fit_reject {sound : Bool} (hx : p₁.examine now caller e = (sound, p₂))
    (f : p₁.books.Fit (some e)) : (p₂.reject e).books.Fit none ∧ (p₂.reject e).Roomy := by
  have hb := examine_books now caller e sound p₁ p₂ hx
  have f₂ : p₂.books.Fit (some e) := hb ▸ f.examine
  have hn : 1 + (p₂.idle.length + p₂.active.length) ≤ p₂.config.maxActive.toNat := f₂.count_le
  have hq := books_reject e p₂
  have hi : (p₂.reject e).idle = p₂.idle := congrArg Books.idle hq
  have ha : (p₂.reject e).active = p₂.active := congrArg Books.active hq
  have hc : (p₂.reject e).config = p₂.config := congrArg Books.config hq
  constructor
  · rw [hq]
    refine f₂.shrink rfl (Nat.le_refl _) ?_ rfl
    exact Nat.add_le_add_right (Nat.zero_le 1) _
  · unfold Roomy
    rw [hi, ha, hc]
    omega

theorem Drops.fit {oldest : Entry} (h : p.Drops now caller oldest q) (f : p.books.Fit none) :
    q.books.Fit none ∧ q.Roomy := by
  refine ⟨(turn_books h.turn).fit f, ?_⟩
  cases h with
  | drop rest hi hr ha ho hv =>
    have hn : 0 + (p.idle.length + p.active.length) ≤ p.config.maxActive.toNat := f.count_le
    have hq : ((p.unlend now caller oldest rest).close oldest).books =
        (p.unlend now caller oldest rest).books := books_close oldest _
    have hi' : ((p.unlend now caller oldest rest).close oldest).idle = p.idle :=
      congrArg Books.idle hq
    have ha' : ((p.unlend now caller oldest rest).close oldest).active = rest :=
      congrArg Books.active hq
    have hc' : ((p.unlend now caller oldest rest).close oldest).config = p.config :=
      congrArg Books.config hq
    unfold Roomy
    rw [hi', ha', hc']
    rw [ha, List.length_cons] at hn
    omega

theorem Takes.of_roomy {sound : Bool} (h : p.Takes now caller source e p₁) (hr : p.Roomy)
    (hx : p₁.examine now caller e = (sound, p₂)) :
    source ≠ .claimed ∧ (p₂.reject e).Roomy := by
  have hb := examine_books now caller e sound p₁ p₂ hx
  have hq := books_reject e p₂
  rw [hb] at hq
  have hi : (p₂.reject e).idle = p₁.idle := congrArg Books.idle hq
  have ha : (p₂.reject e).active = p₁.active := congrArg Books.active hq
  have hc : (p₂.reject e).config = p₁.config := congrArg Books.config hq
  cases h with
  | idle e rest hp =>
    refine ⟨by decide, hr.congr ?_ ha hc⟩
    rw [hi, hp]
    exact Nat.le_succ _
  | opened e p₁ hp hr' h =>
    obtain ⟨-, ho⟩ := openLink_found now p p₁ e h
    refine ⟨by decide, hr.congr ?_ (ha.trans (congrArg Books.active ho))
      (hc.trans (congrArg Books.config ho))⟩
    rw [hi]
    exact Nat.le_of_eq (congrArg (fun b : Books => b.idle.length) ho)
  | claimed oldest rest hp hr' ha' ho hv =>
    rw [hr.hasRoom] at hr'
    exact Bool.noConfusion hr'

/-- Where the next candidate is taken from: the pool itself or, once a lease has been dropped, what
is left of it. -/
def Cleared (now caller : Nat) (p p' : Pool σ) : Prop :=
  p' = p ∨ (∃ oldest, p.Drops now caller oldest p') ∧ p'.hasRoom = true

theorem Cleared.frame {p' : Pool σ} (h : p.Cleared now caller p') (f : p.books.Fit none) :
    p'.books.Fit none ∧ p'.config = p.config := by
  rcases h with rfl | ⟨⟨oldest, hd⟩, -⟩
  · exact ⟨f, rfl⟩
  · exact ⟨(hd.fit f).1, (turn_books hd.turn).config.1⟩

inductive Reveals (now caller : Nat) (p : Pool σ) : Candidate → Pool σ → Prop
  | found (p' q : Pool σ) (source : Source) (e : Entry) (hp : p.Cleared now caller p')
      (ht : p'.Takes now caller source e q) : Reveals now caller p (.found e) q
  | refused (p' q : Pool σ) (error : DriverError) (hp : p.Cleared now caller p')
      (hi : p'.idle = []) (hr : p'.hasRoom = true) (h : p'.openLink now = (.refused error, q)) :
      Reveals now caller p (.refused error) q
  | saturated (hi : p.idle = []) (hr : p.hasRoom = false)
      (ho : ∀ oldest ∈ p.active.head?, oldest.heldFor now ≤ p.config.maxCheckout) :
      Reveals now caller p .saturated p

theorem Reveals.open {p' : Pool σ} {c : Candidate} (hp : p.Cleared now caller p')
    (hi : p'.idle = []) (hr : p'.hasRoom = true) (h : p'.openLink now = (c, q)) :
    p.Reveals now caller c q := by
  cases c with
  | found e => exact .found p' q .opened e hp (.opened e q hi hr h)
  | refused error => exact .refused p' q error hp hi hr h
  | saturated => exact absurd (congrArg Prod.fst h) (openLink_ne_saturated now p')

theorem nextCandidate_reveals {c : Candidate} (f : p.books.Fit none)
    (h : p.nextCandidate now caller = (c, q)) : p.Reveals now caller c q := by
  cases hi : p.idle with
  | cons e rest =>
    simp only [nextCandidate, hi] at h
    obtain ⟨rfl, rfl⟩ := Prod.mk.inj h
    exact .found p _ .idle e (Or.inl rfl) (.idle e rest hi)
  | nil =>
    simp only [nextCandidate, hi] at h
    split at h
    · rename_i hr
      exact .open (Or.inl rfl) hi hr h
    · rename_i hr
      have hr : p.hasRoom = false := by simpa using hr
      cases ha : p.active with
      | nil =>
        simp only [claim, ha] at h
        obtain ⟨rfl, rfl⟩ := Prod.mk.inj h
        exact .saturated hi hr fun _ ho => absurd ho (by simp [ha])
      | cons oldest rest =>
        rw [claim_eq now caller oldest rest p ha] at h
        split at h
        · rename_i ho
          obtain ⟨rfl, rfl⟩ := Prod.mk.inj h
          refine .saturated hi hr fun other hm => ?_
          rw [ha] at hm
          exact Option.some.inj hm ▸ ho
        · rename_i ho
          have ho := Nat.lt_of_not_le ho
          split at h
          · rename_i hv
            obtain ⟨rfl, rfl⟩ := Prod.mk.inj h
            exact .found p _ .claimed _ (Or.inl rfl) (.claimed oldest rest hi hr ha ho hv)
          · rename_i hv
            have hd : p.Drops now caller oldest _ := .drop oldest rest hi hr ha ho hv
            have hr' := (hd.fit f).2.hasRoom
            rw [openIfRoom, if_pos hr'] at h
            exact .open (Or.inr ⟨⟨oldest, hd⟩, hr'⟩) hi hr' h

theorem Loop.cleared {r : Request} {p' : Pool σ} {looks : List Look} {outcome : Outcome}
    (hp : p.Cleared now r.caller p') (h : Loop now r p' looks outcome q) :
    ∃ looks, Loop now r p looks outcome q := by
  rcases hp with rfl | ⟨⟨oldest, hd⟩, hr⟩
  · exact ⟨looks, h⟩
  · exact ⟨_, .dropped r p p' q oldest looks outcome hd hr h⟩

theorem seekWithin_loop (now left : Nat) (r : Request) (p : Pool σ) (f : p.books.Fit none)
    (hl : left = p.config.badLimit.toNat - r.strikes.toNat) :
    ∃ looks, Loop now r p looks (p.seekWithin now left r).1 (p.seekWithin now left r).2 := by
  fun_induction seekWithin now left r p with
  | case1 left r p error q hc =>
    cases nextCandidate_reveals f hc with
    | refused p' _ _ hp hi hr h => exact (Loop.refused r p' q error hi hr h).cleared hp
  | case2 left r p q hc hn =>
    cases nextCandidate_reveals f hc with
    | saturated hi hr ho =>
      have h : Loop now r p [.standstill] _ p := .standstill r p hi hr ho
      rw [if_pos hn] at h
      exact ⟨_, h⟩
  | case3 left r p q hc hn =>
    cases nextCandidate_reveals f hc with
    | saturated hi hr ho =>
      have h : Loop now r p [.standstill] _ p := .standstill r p hi hr ho
      rw [if_neg hn] at h
      exact ⟨_, h⟩
  | case4 left r p e p₁ hc p₂ hx lent q hg =>
    cases nextCandidate_reveals f hc with
    | found p' _ source _ hp ht =>
      have h := Loop.granted r p' p₁ p₂ source e ht hx
      rw [hg] at h
      exact h.cleared hp
  | case5 r p e p₁ hc p₂ hx =>
    cases nextCandidate_reveals f hc with
    | found p' _ source _ hp ht =>
      refine (Loop.exhausted r p' p₁ p₂ source e ht hx ?_).cleared hp
      rw [(hp.frame f).2]
      omega
  | case6 r p e p₁ hc p₂ hx _ left ih =>
    cases nextCandidate_reveals f hc with
    | found p' _ source _ hp ht =>
      obtain ⟨f', hc'⟩ := hp.frame f
      obtain ⟨f₂, -⟩ := fit_reject hx (ht.fit f')
      have hlt : r.strikes.toNat + 1 ≤ p.config.badLimit.toNat := by omega
      have hl₂ : left = (p₂.reject e).config.badLimit.toNat - (r.strikes + 1).toNat := by
        rw [config_rejected ht hx, hc', toNat_strike hlt]
        omega
      obtain ⟨looks, h⟩ := ih f₂ hl₂
      exact (Loop.again r p' p₁ p₂ _ source e looks _ ht hx (hc'.symm ▸ hlt) h).cleared hp

theorem seek_loop (now : Nat) (r : Request) (p : Pool σ) (f : p.books.Fit none) :
    ∃ looks, Loop now r p looks (p.seek now r).1 (p.seek now r).2 :=
  seekWithin_loop now _ r p f rfl

theorem judged_reject (hx : p.examine now caller e = (false, q)) :
    p.books.Judged (p.examination caller e false) (q.reject e).books := by
  have hb := examine_books now caller e false p q hx
  have hq : (q.reject e).books = { q.books.retire e.id .invalidated with
      tally := q.books.tally.addBad } := books_reject e q
  rw [hq, hb]
  exact ⟨rfl, rfl, rfl, rfl, rfl, rfl, rfl⟩

theorem judged_grant {r : Request} (hx : p.examine now r.caller e = (true, q)) :
    p.books.Judged (p.examination r.caller e true) (q.grant now r e).2.books := by
  have hb := examine_books now r.caller e true p q hx
  have hq : (q.grant now r e).2.books =
      { q.books.note (.granted r.caller (q.grant now r e).1) with
        active := q.books.active ++ [(q.grant now r e).1]
        tally := q.books.tally.addRequest (now - r.startedAt) } := books_grant now r e q
  rw [hq, hb]
  exact ⟨rfl, rfl, rfl, rfl, rfl, rfl, rfl⟩

theorem Takes.sums {x : Examination} {b : Books} (ht : p.Takes now caller source e p₁)
    (hj : p₁.books.Judged x b) (he : x.entry = e) :
    Books.Sums caller [.tried source x] p.books b := by
  have hbad : b.tally.bad = p₁.tally.bad + [Look.tried source x].countP Look.isBad := by
    rw [hj.bad]
    cases hs : x.sound <;> simp [Look.isBad, hs, books]
  have hgood : b.tally.requests = p₁.tally.requests + [Look.tried source x].countP Look.isGood := by
    rw [hj.requests]
    cases hs : x.sound <;> simp [Look.isGood, hs, books]
  cases ht with
  | idle e rest hi =>
    refine ⟨hj.config, hbad, hgood, hj.opened, ?_, hj.claimants, hj.examinations⟩
    rw [hj.idle]
    exact hi.trans (congrArg (· :: rest) he.symm)
  | opened e p₁ hi hr h =>
    obtain ⟨-, hq⟩ := openLink_found now p p₁ e h
    rw [show p₁.tally = p.tally from congrArg Books.tally hq] at hbad hgood
    rw [hq] at hj
    exact ⟨hj.config, hbad, hgood, hj.opened, hj.idle.symm, hj.claimants, hj.examinations⟩
  | claimed oldest rest hi hr ha ho hv =>
    have hq := books_takeOver now caller oldest rest p
    rw [show (p.takeOver now caller oldest rest).tally = p.tally.addClaim (oldest.heldFor now) from
      congrArg Books.tally hq] at hbad hgood
    rw [hq] at hj
    exact ⟨hj.config, hbad, hgood, hj.opened, hj.idle.symm, hj.claimants, hj.examinations⟩

theorem Drops.sums {oldest : Entry} (hd : p.Drops now caller oldest q) :
    Books.Sums caller [.dropped oldest] p.books q.books := by
  cases hd with
  | drop rest hi hr ha ho hv =>
    rw [books_close, books_unlend]
    exact ⟨rfl, rfl, rfl, rfl, rfl, rfl, rfl⟩

theorem Loop.sums {r : Request} {looks : List Look} {outcome : Outcome}
    (h : Loop now r p looks outcome q) : Books.Sums r.caller looks p.books q.books := by
  induction h with
  | granted r p p₁ p₂ source e ht hx => exact ht.sums (judged_grant hx) rfl
  | exhausted r p p₁ p₂ source e ht hx hl => exact ht.sums (judged_reject hx) rfl
  | again r p p₁ p₂ q source e looks outcome ht hx hl h ih =>
    exact (ht.sums (judged_reject hx) rfl).trans ih
  | dropped r p p' q oldest looks outcome hd hr h ih => exact hd.sums.trans ih
  | refused r p q error hi hr h =>
    rw [openLink_refused now p q error h]
    exact ⟨rfl, rfl, rfl, rfl, rfl, rfl, rfl⟩
  | standstill r p hi hr ho => exact ⟨rfl, rfl, rfl, rfl, rfl, rfl, rfl⟩

variable {r : Request} {looks : List Look} {outcome : Outcome}

theorem Loop.of_roomy (h : Loop now r p looks outcome q) (hr : p.Roomy) :
    looks.countP Look.endsLease = 0 ∧ .standstill ∉ looks := by
  induction h with
  | granted r p p₁ p₂ source e ht hx | exhausted r p p₁ p₂ source e ht hx hl =>
    have hs := (ht.of_roomy hr hx).1
    cases source <;> simp_all [Look.endsLease]
  | again r p p₁ p₂ q source e looks outcome ht hx hl h ih =>
    obtain ⟨hs, hr₂⟩ := ht.of_roomy hr hx
    obtain ⟨hn, hstill⟩ := ih hr₂
    cases source <;> simp_all [Look.endsLease]
  | dropped r p p' q oldest looks outcome hd hr' h ih =>
    cases hd with
    | drop rest hi hf ha ho hv =>
      rw [hr.hasRoom] at hf
      exact Bool.noConfusion hf
  | refused r p q error hi hr' h => exact ⟨rfl, by simp⟩
  | standstill r p hi hf ho =>
    rw [hr.hasRoom] at hf
    exact Bool.noConfusion hf

/-- A lease is taken at the first look if at all, and not if a connection is idle. A search that
has looked once does not stand still any more. -/
theorem Loop.within (h : Loop now r p looks outcome q) (f : p.books.Fit none) :
    looks.countP Look.endsLease ≤ 1 ∧
      (looks.countP Look.endsLease = 0 ∨ p.idle = []) ∧
      (.standstill ∈ looks → looks = [.standstill] ∧ q = p) := by
  cases h with
  | granted r p p₁ p₂ source e ht hx | exhausted r p p₁ p₂ source e ht hx hl =>
    refine ⟨List.countP_le_length, ?_, by simp⟩
    cases ht with
    | idle rest hi | opened hi hr h => exact Or.inl rfl
    | claimed oldest rest hi hr ha ho hv => exact Or.inr hi
  | again r p p₁ p₂ q source e looks outcome ht hx hl h =>
    obtain ⟨hn, hs⟩ := h.of_roomy (fit_reject hx (ht.fit f)).2
    rw [List.countP_cons, hn]
    refine ⟨by split <;> simp, ?_, by simp [hs]⟩
    cases ht with
    | idle rest hi | opened hi hr h => exact Or.inl rfl
    | claimed oldest rest hi hr ha ho hv => exact Or.inr hi
  | dropped r p p' q oldest looks outcome hd hr h =>
    obtain ⟨hn, hs⟩ := h.of_roomy (hd.fit f).2
    rw [List.countP_cons, hn]
    refine ⟨by split <;> simp, Or.inr ?_, by simp [hs]⟩
    cases hd with
    | drop rest hi hr ha ho hv => exact hi
  | refused r p q error hi hr h => exact ⟨Nat.zero_le _, Or.inl rfl, by simp⟩
  | standstill r p hi hr ho => exact ⟨Nat.zero_le _, Or.inl rfl, fun _ => ⟨rfl, rfl⟩⟩

theorem Loop.saturated {r' : Request} (h : Loop now r p looks outcome q) (f : p.books.Fit none)
    (ho : outcome = .saturated r') : looks = [.standstill] ∧ q = p ∧ r' = r := by
  have hs : .standstill ∈ looks := by
    clear f
    induction h with
    | granted r p p₁ p₂ source e ht hx | exhausted r p p₁ p₂ source e ht hx hl
    | refused r p q error hi hr h => exact Outcome.noConfusion ho
    | again r p p₁ p₂ q source e looks outcome ht hx hl h ih
    | dropped r p p' q oldest looks outcome hd hr h ih => exact List.mem_cons_of_mem _ (ih ho)
    | standstill r p hi hr hn => exact List.mem_cons_self
  obtain ⟨rfl, rfl⟩ := (h.within f).2.2 hs
  refine ⟨rfl, rfl, ?_⟩
  cases h with
  | standstill hi hr hn =>
    split at ho
    · exact Outcome.noConfusion ho
    · exact (Outcome.saturated.inj ho).symm

theorem Loop.length_le (h : Loop now r p looks outcome q)
    (hs : r.strikes.toNat ≤ p.config.badLimit.toNat) :
    r.strikes.toNat + looks.length ≤
      p.config.badLimit.toNat + 1 + looks.countP Look.isDrop := by
  induction h with
  | granted r p p₁ p₂ source e ht hx | exhausted r p p₁ p₂ source e ht hx hl
  | refused r p q error hi hr h | standstill r p hi hr ho =>
    simp only [List.length_singleton]
    omega
  | again r p p₁ p₂ q source e looks outcome ht hx hl h ih =>
    rw [config_rejected ht hx] at ih
    dsimp only at ih
    rw [toNat_strike hl] at ih
    have hi := ih hl
    rw [List.length_cons, List.countP_cons]
    omega
  | dropped r p p' q oldest looks outcome hd hr h ih =>
    have hc : p'.config = p.config := (turn_books hd.turn).config.1
    rw [hc] at ih
    have hi := ih hs
    rw [List.length_cons, List.countP_cons]
    simp only [Look.isDrop, if_true]
    omega

end Pool

namespace Look

theorem trials_add_drops_le (looks : List Look) :
    looks.countP isTrial + looks.countP isDrop ≤ looks.length := by
  induction looks with
  | nil => exact Nat.le_refl 0
  | cons look rest ih =>
    rw [List.countP_cons, List.countP_cons, List.length_cons]
    cases look <;> simp [isTrial, isDrop] <;> omega

theorem trials_eq (looks : List Look) :
    looks.countP isTrial = looks.countP isBad + looks.countP isGood := by
  induction looks with
  | nil => rfl
  | cons look rest ih =>
    rw [List.countP_cons, List.countP_cons, List.countP_cons, ih]
    cases look with
    | tried source x => cases hs : x.sound <;> simp [isTrial, isBad, isGood, hs] <;> omega
    | dropped oldest | refused error | standstill => rfl

theorem trials_eq_sources (looks : List Look) :
    looks.countP isTrial =
      looks.countP (isFrom .idle) + looks.countP (isFrom .opened) +
        looks.countP (isFrom .claimed) := by
  induction looks with
  | nil => rfl
  | cons look rest ih =>
    rw [List.countP_cons, List.countP_cons, List.countP_cons, List.countP_cons, ih]
    cases look with
    | tried source x => cases source <;> simp [isTrial, isFrom] <;> omega
    | dropped oldest | refused error | standstill => rfl

theorem endsLease_eq (looks : List Look) :
    looks.countP endsLease = looks.countP (isFrom .claimed) + looks.countP isDrop := by
  induction looks with
  | nil => rfl
  | cons look rest ih =>
    rw [List.countP_cons, List.countP_cons, List.countP_cons, ih]
    cases look with
    | tried source x => cases source <;> simp [isFrom, endsLease, isDrop]; omega
    | dropped oldest => simp [isFrom, endsLease, isDrop]; omega
    | refused error | standstill => rfl

theorem length_idle (looks : List Look) :
    (looks.filterMap idle?).length = looks.countP (isFrom .idle) := by
  induction looks with
  | nil => rfl
  | cons look rest ih =>
    rw [List.countP_cons, List.filterMap_cons]
    cases look with
    | tried source x => cases source <;> simp [isFrom, idle?, ih]
    | dropped oldest | refused error | standstill => simpa [isFrom, idle?] using ih

theorem length_examinations (looks : List Look) :
    (looks.filterMap examination?).length = looks.countP isTrial := by
  induction looks with
  | nil => rfl
  | cons look rest ih =>
    rw [List.countP_cons, List.filterMap_cons]
    cases look <;> simp [isTrial, examination?, ih]

end Look

end ConnectionPool
