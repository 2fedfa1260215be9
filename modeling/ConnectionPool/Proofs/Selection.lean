import ConnectionPool.Proofs.Brevity
import ConnectionPool.Proofs.Finality
import ConnectionPool.Proofs.Probing

/-!
# Which connection is lent

As long as connections are idle, a search takes the first one. It gives up those that are bad, one
after the other, and lends the first that is sound; then it has neither asked the driver for a
connection nor touched a lease. The idle ones alone do not make it give up, as they are not more
than the bad connections it has to bear: if all of them are bad, there is room, and it turns to the
driver.
-/

set_option autoImplicit false

namespace ConnectionPool

def Event.isFetch : Event → Bool
  | connect _ _ | claimed _ _ _ => true
  | call _ _ _ | examined _ _ _ _ _ | granted _ _ | returned _ _ _ | shelved _ => false
  | drained _ _ | slept _ | woke _ _ | settled _ _ _ => false

theorem Event.not_fetch_of_called (event : Event) (channel : Nat)
    (h : event.called? = some channel) : event.isFetch = false := by
  cases event <;> simp_all [called?, isFetch]

namespace Pool

variable {σ : Type}

/-- These idle entries were taken out from the front and given up, and that is all that happened,
calls apart. -/
structure Thinned (bad : List Entry) (p q : Pool σ) : Prop where
  config : q.config = p.config
  active : q.active = p.active
  idle : p.idle = bad ++ q.idle
  counted : q.tally.bad = p.tally.bad + bad.length
  retired : ∀ id, p.status id ≠ .valid → q.status id = p.status id
  invalidated : ∀ e ∈ bad, q.status e.id = .invalidated
  closed : ∃ newer, q.backend.journal = newer ++ p.backend.journal ∧
    (∀ event ∈ newer, event.isFetch = false) ∧
    ∀ e ∈ bad, ∃ event ∈ newer, event.ending? = some e.channel

theorem Thinned.refl (p : Pool σ) : Thinned [] p p where
  config := rfl
  active := rfl
  idle := rfl
  counted := rfl
  retired _ _ := rfl
  invalidated _ h := absurd h List.not_mem_nil
  closed := ⟨[], rfl, fun _ h => absurd h List.not_mem_nil, fun _ h => absurd h List.not_mem_nil⟩

theorem Thinned.trans {bad more : List Entry} {p q q' : Pool σ} (h : Thinned bad p q)
    (h' : Thinned more q q') : Thinned (bad ++ more) p q' where
  config := h'.config.trans h.config
  active := h'.active.trans h.active
  idle := by rw [h.idle, h'.idle, List.append_assoc]
  counted := by rw [h'.counted, h.counted, List.length_append, Nat.add_assoc]
  retired id hv := by
    have hq := h.retired id hv
    rw [h'.retired id (hq.symm ▸ hv), hq]
  invalidated e he := by
    rcases List.mem_append.mp he with he | he
    · have hq := h.invalidated e he
      rw [h'.retired e.id (by rw [hq]; decide), hq]
    · exact h'.invalidated e he
  closed := by
    obtain ⟨newer, hj, hf, hc⟩ := h.closed
    obtain ⟨newer', hj', hf', hc'⟩ := h'.closed
    refine ⟨newer' ++ newer, by rw [hj', hj, List.append_assoc], fun event he => ?_, fun e he => ?_⟩
    · exact (List.mem_append.mp he).elim (hf' event) (hf event)
    · rcases List.mem_append.mp he with he | he
      · obtain ⟨event, hm, hx⟩ := hc e he
        exact ⟨event, List.mem_append_right _ hm, hx⟩
      · obtain ⟨event, hm, hx⟩ := hc' e he
        exact ⟨event, List.mem_append_left _ hm, hx⟩

theorem Thinned.adds {bad : List Entry} {p q : Pool σ} (h : Thinned bad p q) :
    p.backend.Adds (fun event => event.isFetch = false) q.backend := by
  obtain ⟨newer, hj, hf, -⟩ := h.closed
  exact ⟨newer, hj, hf⟩

variable [Driver σ]

/-- The caller takes idle entries from the front, as long as they are bad. -/
inductive Weeded (now caller : Nat) : Pool σ → List Entry → Pool σ → Prop
  | done (p : Pool σ) : Weeded now caller p [] p
  | next (p p' q : Pool σ) (e : Entry) (rest bad : List Entry) (hi : p.idle = e :: rest)
      (hx : { p with idle := rest }.examine now caller e = (false, p'))
      (h : Weeded now caller (p'.reject e) bad q) : Weeded now caller p (e :: bad) q

variable {now caller : Nat} {p p' q : Pool σ} {e : Entry} {rest bad : List Entry}
  {handles : List Handle}

theorem status_reject (hx : p.examine now caller e = (false, p')) (id : Nat) :
    (p'.reject e).status id =
      if id = e.id ∧ p.status e.id = .valid then .invalidated else p.status id := by
  rw [← status_books, books_reject]
  show (p'.books.retire e.id .invalidated).status id = _
  rw [Books.status_retire, examine_books now caller e false p p' hx]
  rfl

theorem closed_reject (hx : p.examine now caller e = (false, p')) :
    ∃ newer, (p'.reject e).backend.journal = newer ++ p.backend.journal ∧
      (∀ event ∈ newer, event.isFetch = false) ∧
      ∃ event ∈ newer, event.ending? = some e.channel := by
  obtain ⟨query, probed, hp, hnote⟩ := backend_examine now caller e false p p' hx
  obtain ⟨talk, t, -⟩ := Backend.talk_probe e.channel query p.backend
  obtain ⟨talk', t', event, hm, hend⟩ := Backend.talk_close e.channel p'.backend
  rw [hp] at t
  have hj : (p'.reject e).backend.journal = (p'.backend.close e.channel).journal :=
    congrArg Backend.journal (backend_discard e _)
  refine ⟨talk' ++ .examined caller e false (p.idle.length + p.active.length)
    p.config.maxActive.toNat :: talk, ?_, fun event he => ?_, event, ?_, hend⟩
  · rw [hj, t'.journal, hnote, Backend.note, t.journal, List.append_assoc]
    rfl
  · rcases List.mem_append.mp he with he | he
    · exact event.not_fetch_of_called _ (t'.called event he)
    · rcases List.mem_cons.mp he with rfl | he
      · rfl
      · exact event.not_fetch_of_called _ (t.called event he)
  · exact List.mem_append_left _ hm

theorem thinned_reject (hi : p.idle = e :: rest) (hv : p.status e.id = .valid)
    (hx : { p with idle := rest }.examine now caller e = (false, p')) :
    Thinned [e] p (p'.reject e) := by
  have hb := examine_books now caller e false _ p' hx
  have hq := books_reject e p'
  have hs (id : Nat) : (p'.reject e).status id =
      if id = e.id ∧ p.status e.id = .valid then .invalidated else p.status id :=
    status_reject hx id
  obtain ⟨newer, hj, hf, event, hm, hend⟩ := closed_reject hx
  refine ⟨?_, ?_, ?_, ?_, fun id hn => ?_, fun a ha => ?_, newer, hj, hf, fun a ha => ?_⟩
  · exact (congrArg Books.config hq).trans (congrArg Books.config hb)
  · exact (congrArg Books.active hq).trans (congrArg Books.active hb)
  · rw [idle_reject, idle_examine hx]
    exact hi
  · have ht : p'.tally = p.tally := congrArg Books.tally hb
    have hn : (p'.reject e).tally = p'.tally.addBad := congrArg Books.tally hq
    rw [hn, ht]
    rfl
  · rw [hs, if_neg]
    exact fun h => hn (h.1 ▸ h.2)
  · rw [List.mem_singleton.mp ha, hs, if_pos ⟨rfl, hv⟩]
  · exact ⟨event, hm, List.mem_singleton.mp ha ▸ hend⟩

theorem Weeded.thinned (h : Weeded now caller p bad q) (l : Ledger none p.books handles) :
    Ledger none q.books handles ∧ Thinned bad p q := by
  induction h with
  | done p => exact ⟨l, .refl p⟩
  | next p p' q e rest bad hi hx h ih =>
    have ht : Turns now caller (none, p) (none, p'.reject e) :=
      (Relation.ReflTransGen.single (.pick p e rest hi)).tail (.reject _ p' e hx)
    obtain ⟨l', -⟩ := turns_tests ht l
    obtain ⟨lq, hq⟩ := ih l'
    have hv : p.status e.id = .valid := l.ready e (by
      show e ∈ [] ++ p.idle
      rw [hi]
      exact List.mem_cons_self)
    exact ⟨lq, (thinned_reject hi hv hx).trans hq⟩

theorem Weeded.seek {r : Request} {left : Nat} (h : Weeded now r.caller p bad q)
    (hl : bad.length ≤ left) :
    p.seekWithin now left r =
      q.seekWithin now (left - bad.length)
        { r with strikes := r.strikes + UInt64.ofNat bad.length } := by
  generalize hc : r.caller = caller at h
  induction h generalizing r left with
  | done p =>
    subst hc
    rw [List.length_nil, show UInt64.ofNat 0 = 0 from rfl, UInt64.add_zero]
    rfl
  | next p p' q e rest bad hi hx h ih =>
    subst hc
    obtain ⟨left, rfl⟩ : ∃ n, left = n + 1 := Nat.exists_eq_succ_of_ne_zero (by
      rw [List.length_cons] at hl
      omega)
    have hn : p.nextCandidate now r.caller = (.found e, { p with idle := rest }) := by
      simp only [nextCandidate, hi]
    have hs : (p'.reject e).seekWithin now left { r with strikes := r.strikes + 1 } = _ :=
      ih (Nat.le_of_succ_le_succ hl) rfl
    rw [seekWithin, hn]
    dsimp only
    rw [hx]
    dsimp only
    rw [hs, List.length_cons, Nat.add_sub_add_right]
    dsimp only
    rw [UInt64.ofNat_add, UInt64.add_assoc, UInt64.add_comm 1]
    rfl

theorem weed (now caller : Nat) (p : Pool σ) :
    (∃ bad e rest p₁ p₂, Weeded now caller p bad p₁ ∧ p₁.idle = e :: rest ∧
      { p₁ with idle := rest }.examine now caller e = (true, p₂)) ∨
      ∃ p₁, Weeded now caller p p.idle p₁ := by
  generalize hi : p.idle = idle
  induction idle generalizing p with
  | nil => exact Or.inr ⟨p, .done p⟩
  | cons e rest ih =>
    cases hx : examine now caller e { p with idle := rest } with
    | mk sound p' =>
      cases sound with
      | true => exact Or.inl ⟨[], e, rest, p, p', .done p, hi, hx⟩
      | false =>
        have hi' : (p'.reject e).idle = rest := by
          rw [idle_reject, idle_examine hx]
        rcases ih (p'.reject e) hi' with ⟨bad, e', rest', p₁, p₂, hw, h⟩ | ⟨p₁, hw⟩
        · exact Or.inl ⟨e :: bad, e', rest', p₁, p₂, .next p p' p₁ e rest bad hi hx hw, h⟩
        · exact Or.inr ⟨p₁, .next p p' p₁ e rest rest hi hx hw⟩

theorem journal_exchanges {b b' : Backend σ} (h : Backend.Exchanges b b') :
    b.journal <:+ b'.journal :=
  Backend.exchanges_keep _ (Backend.journal_grows b.journal) h List.suffix_rfl

theorem journal_seekWithin (now left : Nat) (r : Request) (p : Pool σ)
    (l : Ledger none p.books handles) :
    p.backend.journal <:+ (p.seekWithin now left r).2.backend.journal := by
  have he := seekWithin_ends now left r p
  generalize p.seekWithin now left r = found at he
  obtain ⟨outcome, q⟩ := found
  have hturns (m : Option Entry × Pool σ) (ht : Turns now r.caller (none, p) m) :
      p.backend.journal <:+ m.2.backend.journal := by
    obtain ⟨-, newer, hj, -⟩ := turns_tests ht l
    exact ⟨newer, hj.symm⟩
  cases outcome with
  | granted lent =>
    obtain ⟨e, p₁, p₂, ht, hx, hg⟩ := he
    have hq : q = (p₂.grant now r e).2 := congrArg Prod.snd hg
    have hl := (turns_tests ht l).1.distinct.channel_lt e List.mem_cons_self
    show p.backend.journal <:+ q.backend.journal
    rw [hq]
    exact (hturns _ ht).trans (journal_exchanges (grant_exchanges hx hl))
  | failed error => exact hturns _ he.1
  | saturated r' => exact hturns _ he.1

theorem seekWithin_asks (now left : Nat) (r : Request) (p : Pool σ) (hi : p.idle = [])
    (hr : p.hasRoom = true) (l : Ledger none p.books handles) :
    ∃ result, .connect p.config.login result :: p.backend.journal <:+
      (p.seekWithin now left r).2.backend.journal := by
  cases hc : p.openLink now with
  | mk c p' =>
    cases c with
    | found e =>
      have hj := (Backend.connect_ok _ _ _ _ (backend_openLink_found now p p' e hc)).1
      have ht : Turn now r.caller (none, p) (some e, p') := .connect p p' e hi hr hc
      have l' := (turn_books ht).ledger l
      have hl := l'.distinct.channel_lt e List.mem_cons_self
      refine ⟨.ok e.channel, ?_⟩
      rw [← hj, seekWithin, nextCandidate_open now r.caller p hi hr, hc]
      dsimp only
      cases hx : examine now r.caller e p' with
      | mk sound p₂ =>
        cases sound with
        | true => exact journal_exchanges (grant_exchanges hx hl)
        | false =>
          have hreject : Turn now r.caller (some e, p') (none, p₂.reject e) := .reject p' p₂ e hx
          have hjr := journal_exchanges (turn_exchanges hreject l'.distinct.channel_lt)
          cases left with
          | zero => exact hjr
          | succ left =>
            exact hjr.trans (journal_seekWithin now left _ _ ((turn_books hreject).ledger l'))
    | refused error =>
      have hj := (Backend.connect_error _ _ _ _ (backend_openLink_refused now p p' error hc)).1
      refine ⟨.error error, ?_⟩
      rw [← hj, seekWithin, nextCandidate_open now r.caller p hi hr, hc]
    | saturated => exact absurd (congrArg Prod.fst hc) (openLink_ne_saturated now p)

end Pool

namespace Service

variable {σ : Type} [Driver σ] {r : Request} {t u : Service σ} {bad rest : List Entry} {e : Entry}

/-- After `bad` the caller was lent the connection of `e`, and that is all. -/
structure Lends (r : Request) (bad : List Entry) (e : Entry) (rest : List Entry)
    (t u : Service σ) : Prop where
  front : t.pool.idle = bad ++ e :: rest
  lent : ∃ lent, lent.link = e.link ∧
    u.handles = t.handles ++ [{ caller := r.caller, entry := lent }] ∧
    u.pool.active = t.pool.active ++ [lent]
  idle : u.pool.idle = rest
  counted : u.pool.tally.bad = t.pool.tally.bad + bad.length
  unfetched : t.pool.backend.Adds (fun event => event.isFetch = false) u.pool.backend

/-- All that was idle was bad and has been given up, and then the driver was asked. -/
structure Resorts (p : Pool σ) (t u : Service σ) : Prop where
  thinned : Pool.Thinned t.pool.idle t.pool p
  idle : p.idle = []
  asks : ∃ result, .connect t.pool.config.login result :: p.backend.journal <:+
    u.pool.backend.journal

theorem journal_pursue (r : Request) (t : Service σ) :
    (t.pool.seek t.now r).2.backend.journal <:+ (t.pursue r).pool.backend.journal := by
  unfold pursue
  generalize t.pool.seek t.now r = found
  obtain ⟨outcome, q⟩ := found
  cases outcome with
  | granted entry | failed error => exact List.suffix_cons _ _
  | saturated r' =>
    have hc : ({ t with pool := q }.countWait r').pool.backend.journal = q.backend.journal := by
      unfold countWait
      split <;> rfl
    dsimp only
    rw [← hc]
    unfold block
    dsimp only
    split <;> exact List.suffix_cons _ _

theorem seek_weeded {p₁ : Pool σ} (ho : t.Steady) (hs : r.strikes = 0)
    (hw : t.pool.Weeded t.now r.caller bad p₁) :
    Ledger none p₁.books t.handles ∧ Pool.Thinned bad t.pool p₁ ∧
      ∃ left strikes, t.pool.seek t.now r = p₁.seekWithin t.now left { r with strikes } := by
  obtain ⟨l₁, k⟩ := hw.thinned ho.1
  have hlen : bad.length ≤ t.pool.config.badLimit.toNat - r.strikes.toNat := by
    have hi : t.pool.idle.length ≤ t.pool.config.maxIdle.toNat := ho.2.idle_le
    have hword := t.pool.config.maxIdle.toNat_lt_size
    rw [k.idle, List.length_append] at hi
    rw [t.pool.config.toNat_badLimit, hs, UInt64.toNat_zero]
    omega
  exact ⟨l₁, k, _, _, hw.seek hlen⟩

theorem unfetched_grant {p₁ p₂ : Pool σ} {now : Nat}
    (hx : p₁.examine now r.caller e = (true, p₂)) :
    p₁.backend.Adds (fun event => event.isFetch = false) (p₂.grant now r e).2.backend := by
  obtain ⟨query, probed, hp, hnote⟩ := Pool.backend_examine now r.caller e true p₁ p₂ hx
  obtain ⟨talk, tp, -⟩ := Backend.talk_probe e.channel query p₁.backend
  obtain ⟨talk', tu, -⟩ := Backend.talk_undo e.channel p₂.backend
  rw [hp] at tp
  have hprobe : p₁.backend.Adds (fun event => event.isFetch = false) probed :=
    .of_talk tp fun event => event.not_fetch_of_called e.channel
  have hexamined : probed.Adds (fun event => event.isFetch = false) p₂.backend := by
    rw [hnote]
    exact .single rfl rfl
  have hundo : p₂.backend.Adds (fun event => event.isFetch = false)
      (p₂.backend.undo e.channel) :=
    .of_talk tu fun event => event.not_fetch_of_called e.channel
  rw [Pool.backend_grant]
  exact ((hprobe.trans hexamined).trans hundo).trans (.single rfl rfl)

theorem bad_grant {p₁ p₂ : Pool σ} {now : Nat}
    (hx : p₁.examine now r.caller e = (true, p₂)) :
    (p₂.grant now r e).2.tally.bad = p₁.tally.bad := by
  have hg : (p₂.grant now r e).2.tally = p₂.tally.addRequest (now - r.startedAt) :=
    congrArg Books.tally (Pool.books_grant now r e p₂)
  have ht : p₂.tally = p₁.tally :=
    congrArg Books.tally (Pool.examine_books now r.caller e true p₁ p₂ hx)
  rw [hg, ht]
  rfl

theorem lends_pursue {p₁ p₂ : Pool σ} (ho : t.Steady) (hs : r.strikes = 0)
    (hw : t.pool.Weeded t.now r.caller bad p₁) (hi : p₁.idle = e :: rest)
    (hx : { p₁ with idle := rest }.examine t.now r.caller e = (true, p₂)) :
    Lends r bad e rest t (t.pursue r) := by
  obtain ⟨l₁, k, left, strikes, hseek⟩ := seek_weeded ho hs hw
  have hn : p₁.nextCandidate t.now r.caller = (.found e, { p₁ with idle := rest }) := by
    simp only [Pool.nextCandidate, hi]
  have hend : t.pool.seek t.now r =
      (.granted (p₂.grant t.now { r with strikes } e).1,
        (p₂.grant t.now { r with strikes } e).2) := by
    rw [hseek, Pool.seekWithin, hn]
    dsimp only
    rw [hx]
  have hu : t.pursue r =
      { t with pool := (p₂.grant t.now { r with strikes } e).2 }.settle r
        (.ok (p₂.grant t.now { r with strikes } e).1) := by
    rw [pursue, hend]
  have hf := unfetched_grant (r := { r with strikes }) hx
  obtain ⟨-, -, hidle, hactive⟩ := Pool.grant_frame (r := { r with strikes }) hx
  have hbad := bad_grant (r := { r with strikes }) hx
  rw [hu]
  refine ⟨by rw [k.idle, hi], ⟨(p₂.grant t.now _ e).1, rfl, rfl, ?_⟩, hidle,
    hbad.trans k.counted, ?_⟩
  · rw [← k.active]
    exact hactive
  · exact (k.adds.trans hf).trans (.single rfl rfl)

theorem resorts_pursue {p₁ : Pool σ} (ho : t.Steady) (hs : r.strikes = 0)
    (hne : t.pool.idle ≠ []) (hw : t.pool.Weeded t.now r.caller t.pool.idle p₁) :
    Resorts p₁ t (t.pursue r) := by
  obtain ⟨l₁, k, left, strikes, hseek⟩ := seek_weeded ho hs hw
  have hi : p₁.idle = [] := by
    have hl := congrArg List.length k.idle
    rw [List.length_append] at hl
    exact List.eq_nil_of_length_eq_zero (by omega)
  have hr : p₁.hasRoom = true := by
    rw [Pool.hasRoom_congr k.active k.config]
    have hn : 0 + (t.pool.idle.length + t.pool.active.length) ≤
      t.pool.config.maxActive.toNat := ho.2.count_le
    have hp := List.length_pos_of_ne_nil hne
    exact decide_eq_true (by omega)
  obtain ⟨result, hj⟩ := Pool.seekWithin_asks t.now left { r with strikes } p₁ hi hr l₁
  rw [← hseek, k.config] at hj
  exact ⟨k, hi, result, hj.trans (journal_pursue r t)⟩

/-- Which connection the stretch of `r` from `t` lends. -/
structure Selects (r : Request) (t : Service σ) : Prop where
  either : (∃ bad e rest p₁ p₂, t.pool.Weeded t.now r.caller bad p₁ ∧ p₁.idle = e :: rest ∧
      { p₁ with idle := rest }.examine t.now r.caller e = (true, p₂)) ∨
    ∃ p₁, t.pool.Weeded t.now r.caller t.pool.idle p₁
  lends : ∀ bad e rest p₁ p₂, t.pool.Weeded t.now r.caller bad p₁ → p₁.idle = e :: rest →
    { p₁ with idle := rest }.examine t.now r.caller e = (true, p₂) →
      Lends r bad e rest t (t.pursue r)
  resorts : ∀ p₁, t.pool.idle ≠ [] → t.pool.Weeded t.now r.caller t.pool.idle p₁ →
    Resorts p₁ t (t.pursue r)
  /-- Whoever gets a handle has tested its connection once, and it passed. -/
  passed : ∀ handle ∈ (t.pursue r).handles, handle ∈ t.handles ∨ handle.caller = r.caller ∧
    Pool.Passed t.now r handle.entry t.pool (t.pool.seek t.now r).2
  /-- Before this stretch the caller has examined nothing. -/
  rested : r.caller ∉ t.seen Event.busy?

theorem passed_pursue (l : t.HasLedger none) {handle : Handle}
    (hm : handle ∈ (t.pursue r).handles) :
    handle ∈ t.handles ∨ handle.caller = r.caller ∧
      Pool.Passed t.now r handle.entry t.pool (t.pool.seek t.now r).2 := by
  have hp (lent : Entry) (q : Pool σ) (h : t.pool.seek t.now r = (.granted lent, q)) :
      Pool.Passed t.now r lent t.pool q := Pool.seek_passed t.now r t.pool q lent l h
  unfold pursue at hm
  generalize t.pool.seek t.now r = found at hp hm ⊢
  obtain ⟨outcome, q⟩ := found
  cases outcome with
  | granted lent =>
    rcases List.mem_append.mp hm with hm | hm
    · exact Or.inl hm
    · obtain rfl := List.mem_singleton.mp hm
      exact Or.inr ⟨rfl, hp lent q rfl⟩
  | failed error => exact Or.inl hm
  | saturated r' =>
    have hb : ({ t with pool := q }.block r').handles = t.handles := by
      unfold block countWait
      dsimp only
      split <;> split <;> rfl
    exact Or.inl (hb ▸ hm)

/-- In every run of every pool, each stretch of an acquisition, and so each acquisition that is
made, selects its connection in this way. -/
theorem selection_run (driver : σ) (config : Config) (pool : Pool σ)
    (h : Pool.create driver config = .ok pool) (ops : List (Op σ)) :
    (∀ op r t, Begins r t op (run ops (start pool)) → Selects r t) ∧
      ∀ s, s = run ops (start pool) → s.isLive = true → ∀ form,
        Selects (s.newcomer form) { s with callers := s.callers + 1 } ∧
          step (.acquire form) s =
            { s with callers := s.callers + 1 }.pursue (s.newcomer form) := by
  have hselects (op : Op σ) (r : Request) (t : Service σ)
      (hb : Begins r t op (run ops (start pool))) : Selects r t := by
    have k := rested_run ops (steady_start driver config pool h)
      (rested_start driver config pool h)
    obtain ⟨ho, hs, hrested⟩ := rested_begins (fit_run driver config pool h ops) k hb
    refine ⟨Pool.weed t.now r.caller t.pool, fun bad e rest p₁ p₂ hw hi hx => ?_,
      fun p₁ hne hw => resorts_pursue ho hs hne hw, fun handle hm => passed_pursue ho.1 hm, ?_⟩
    · exact lends_pursue ho hs hw hi hx
    · rw [seen_books Event.busy_of_traffic]
      exact hrested
  refine ⟨hselects, fun s hs hl form => ?_⟩
  subst hs
  exact ⟨hselects _ _ _ (.come _ form hl rfl rfl), if_pos hl⟩

def firstPingFails : List (Op Scripted) :=
  [.acquire .plain, .acquire .plain, .release 0, .release 1,
    .meddle (Scripted.act (.failStatements 0 true))]

theorem selection_firstPingFails :
    let s := run firstPingFails (start (Pool.unused ({} : Scripted) Config.pinging))
    let t := { s with callers := s.callers + 1 }
    let u := step (.acquire .plain) s
    Pool.create ({} : Scripted) Config.pinging = .ok (Pool.unused {} Config.pinging) ∧
      (∃ bad e, bad.length = 1 ∧ Lends (s.newcomer .plain) bad e [] t u) ∧
      (∃ handle ∈ u.handles, handle.caller = 2 ∧ Pool.Passed t.now (s.newcomer .plain) handle.entry
        t.pool (t.pool.seek t.now (s.newcomer .plain)).2) ∧
      ((u.pool.backend.journal.filterMap Event.driverLine?).take 9).reverse =
        ["0 is_closed", "0 execute SELECT 1", "0 close", "0 auto_commit", "0 is_closed",
          "1 is_closed", "1 execute SELECT 1", "1 auto_commit", "1 auto_commit"] := by
  intro s t u
  obtain ⟨-, ha⟩ := selection_run ({} : Scripted) Config.pinging (Pool.unused {} Config.pinging) rfl
    firstPingFails
  obtain ⟨k, hstep⟩ := ha s rfl (by decide +kernel) .plain
  have hhandles : s.handles.length = 2 ∧ (u.handles[2]?.any fun h => h.caller == 2) = true ∧
      s.handles.all (fun h => h.caller != 2) = true := by decide +kernel
  refine ⟨rfl, ?_, ?_, by decide +kernel⟩
  · rcases k.either with ⟨bad, e, rest, p₁, p₂, hw, hi, hx⟩ | ⟨p₁, hw⟩
    · have hlends := k.lends bad e rest p₁ p₂ hw hi hx
      rw [← hstep] at hlends
      have hbooks : u.pool.idle = [] ∧ u.pool.tally.bad = 1 ∧ s.pool.tally.bad = 0 := by
        decide +kernel
      obtain rfl : rest = [] := hlends.idle.symm.trans hbooks.1
      refine ⟨bad, e, ?_, hlends⟩
      have hn : u.pool.tally.bad = s.pool.tally.bad + bad.length := hlends.counted
      omega
    · -- otherwise the driver would have been asked for a third connection
      obtain ⟨kt, -, result, hasked⟩ := k.resorts p₁ (by decide +kernel) hw
      rw [← hstep] at hasked
      obtain ⟨newer, hj, -, -⟩ := kt.closed
      have hfetches : s.pool.backend.journal.countP Event.isFetch = 2 ∧
          u.pool.backend.journal.countP Event.isFetch = 2 := by decide +kernel
      have hle := hasked.sublist.countP_le (p := Event.isFetch)
      change p₁.backend.journal = newer ++ s.pool.backend.journal at hj
      change _ ≤ u.pool.backend.journal.countP Event.isFetch at hle
      rw [hfetches.2, List.countP_cons, hj, List.countP_append, hfetches.1] at hle
      simp only [Event.isFetch, if_true] at hle
      omega
  · obtain ⟨handle, hh, hcaller⟩ := (Option.any_eq_true _ _).mp hhandles.2.1
    have hm : handle ∈ u.handles := List.mem_of_getElem? hh
    have hp := k.passed handle (by rw [← hstep]; exact hm)
    rcases hp with hold | ⟨-, hp⟩
    · have hother := List.all_eq_true.mp hhandles.2.2 handle hold
      exact absurd (by simpa using hcaller) (show handle.caller ≠ 2 by simpa using hother)
    · exact ⟨handle, hm, by simpa using hcaller, hp⟩

end Service

end ConnectionPool
