import ConnectionPool.Proofs.Exhaustion
import ConnectionPool.Proofs.Selection
import ConnectionPool.Proofs.Tracking

/-!
# Futile searches

Where every idle connection and every connection that the driver opens reports itself closed, a
search with room meets nothing but bad connections, and gives up at the first one beyond the limit,
unless the driver refuses to open one before. The caller counts them in a word. Below the greatest
word the count comes to exceed the limit, at the last bad connection and not before. If the limit is
the greatest word, which a usable configuration may have it be, no word exceeds it, and the count
overflows.
-/

set_option autoImplicit false

namespace ConnectionPool

/-- The connection that did not report itself closed when it was asked. -/
def Event.unclosed? : Event → Option Nat
  | call _ .isClosed (.ok true) => none
  | call channel .isClosed _ => some channel
  | _ => none

namespace Backend

variable {σ : Type} {P : Event → Prop} {b b' b'' : Backend σ}

namespace Adds

theorem of_append (h : Adds P b b') (newer : List Event) (hj : b'.journal = newer ++ b.journal) :
    ∀ event ∈ newer, P event := by
  obtain ⟨added, hadded, hp⟩ := h
  rw [hj] at hadded
  rwa [List.append_cancel_right hadded]

theorem split (h : Adds P b b'') (hb : b.journal <:+ b'.journal)
    (hb' : b'.journal <:+ b''.journal) :
    Adds P b b' ∧ Adds P b' b'' := by
  obtain ⟨newer, hj⟩ := hb
  obtain ⟨newer', hj'⟩ := hb'
  have hp := h.of_append (newer' ++ newer) (by rw [← hj', ← hj, List.append_assoc])
  exact ⟨⟨newer, hj.symm, fun event hm => hp event (List.mem_append_right newer' hm)⟩,
    ⟨newer', hj'.symm, fun event hm => hp event (List.mem_append_left newer hm)⟩⟩

end Adds

end Backend

namespace Pool

variable {σ : Type} {closed : Nat → Prop}

/-- There is room, and whatever is idle or still to be opened is closed. -/
structure Barren (closed : Nat → Prop) (p : Pool σ) : Prop where
  room : p.hasRoom = true
  idle : ∀ e ∈ p.idle, closed e.channel
  unopened : ∀ channel, p.backend.opened ≤ channel → closed channel

variable [Driver σ] {now caller : Nat} {r : Request} {p p₁ p₂ q : Pool σ} {source : Source}
  {e : Entry} {verdict : Bool} {handles : List Handle} {looks : List Look} {outcome : Outcome}

theorem Takes.barren (ht : p.Takes now caller source e p₁)
    (hx : p₁.examine now caller e = (verdict, p₂)) (h : p.Barren closed) :
    closed e.channel ∧ (p₂.reject e).Barren closed := by
  have hidle : (p₂.reject e).idle = p₁.idle := (idle_reject e p₂).trans (idle_examine hx)
  have hopened : (p₂.reject e).backend.opened = p₁.backend.opened :=
    (opened_reject e p₂).trans (opened_examine hx)
  have hroom : (p₂.reject e).hasRoom = p₁.hasRoom :=
    (hasRoom_reject e p₂).trans (hasRoom_examine hx)
  cases ht with
  | idle e rest hi =>
    refine ⟨h.idle e (hi ▸ List.mem_cons_self), hroom.trans h.room, fun a ha => ?_, fun c hc => ?_⟩
    · rw [hidle] at ha
      exact h.idle a (hi ▸ List.mem_cons_of_mem e ha)
    · rw [hopened] at hc
      exact h.unopened c hc
  | opened e p₁ hi hr ho =>
    obtain ⟨rfl, hb⟩ := openLink_found now p p₁ e ho
    have hidle₁ : p₁.idle = p.idle := congrArg Books.idle hb
    have hopened₁ : p₁.backend.opened = p.backend.opened + 1 :=
      congrArg (fun b : Books => b.record.opened) hb
    have hroom₁ : p₁.hasRoom = p.hasRoom :=
      hasRoom_congr (congrArg Books.active hb) (congrArg Books.config hb)
    refine ⟨h.unopened _ (Nat.le_refl _), (hroom.trans hroom₁).trans hr, fun a ha => ?_,
      fun c hc => ?_⟩
    · rw [hidle, hidle₁] at ha
      exact h.idle a ha
    · rw [hopened, hopened₁] at hc
      exact h.unopened c (Nat.le_of_succ_le hc)
  | claimed oldest rest hi hr ha ho hv =>
    rw [h.room] at hr
    exact Bool.noConfusion hr

theorem journal_grant (now : Nat) (r : Request) (e : Entry) (p : Pool σ) :
    p.backend.journal <:+ (p.grant now r e).2.backend.journal := by
  obtain ⟨undone, hj, -⟩ := Backend.adds_undo e.channel p.backend
  rw [backend_grant]
  exact ⟨_ :: undone, congrArg _ hj.symm⟩

theorem Loop.exchanges (h : Loop now r p looks outcome q) (l : Ledger none p.books handles) :
    Backend.Exchanges p.backend q.backend := by
  induction h with
  | granted r p p₁ p₂ source e ht hx =>
    have l₁ := (turn_books ht.turn).ledger l
    have hl := l₁.distinct.channel_lt e List.mem_cons_self
    exact (turn_exchanges ht.turn l.distinct.channel_lt).trans (grant_exchanges hx hl)
  | exhausted r p p₁ p₂ source e ht hx hl =>
    have l₁ := (turn_books ht.turn).ledger l
    exact (turn_exchanges ht.turn l.distinct.channel_lt).trans
      (turn_exchanges (.reject p₁ p₂ e hx) l₁.distinct.channel_lt)
  | again r p p₁ p₂ q source e looks outcome ht hx hl h ih =>
    have l₁ := (turn_books ht.turn).ledger l
    have hreject : Turn now r.caller (some e, p₁) (none, p₂.reject e) := .reject p₁ p₂ e hx
    exact ((turn_exchanges ht.turn l.distinct.channel_lt).trans
      (turn_exchanges hreject l₁.distinct.channel_lt)).trans
        (ih ((turn_books hreject).ledger l₁))
  | dropped r p p' q oldest looks outcome hd hr h ih =>
    exact (turn_exchanges hd.turn l.distinct.channel_lt).trans (ih ((turn_books hd.turn).ledger l))
  | refused r p q error hi hr h =>
    have hx := openLink_exchanges now p
    rw [h] at hx
    exact hx
  | standstill r p hi hr ho => exact .refl

/-- From a barren pool, where what is closed says so, a search meets only bad connections until it
has counted as many as the limit and gives up at the next, or the driver refuses. -/
theorem Loop.futile (h : Loop now r p looks outcome q) (l : Ledger none p.books handles)
    (hb : p.Barren closed) (hs : r.strikes.toNat ≤ p.config.badLimit.toNat)
    (hk : p.backend.Adds (fun event => ∀ channel ∈ event.unclosed?, ¬ closed channel) q.backend) :
    (outcome = .failed (Request.exhaustion { r with strikes := p.config.badLimit }) ∧
        r.strikes.toNat + looks.length = p.config.badLimit.toNat + 1 ∧
        ∀ look ∈ looks, look.isBad = true) ∨
      ∃ error, outcome = .failed (.create error) ∧
        q.backend.journal.head? = some (.connect p.config.login (.error error)) := by
  induction h with
  | granted r p p₁ p₂ source e ht hx =>
    -- the connection that is lent has answered that it is open
    have l₁ := (turn_books ht.turn).ledger l
    have hl := l₁.distinct.channel_lt e List.mem_cons_self
    obtain ⟨pinged, -, hj⟩ := examine_passed hx
    have htaken := hk.split (journal_exchanges (turn_exchanges ht.turn l.distinct.channel_lt))
      (journal_exchanges (grant_exchanges hx hl))
    have hexamined := htaken.2.split (journal_exchanges (examine_exchanges now _ e true hx hl).1)
      (journal_grant now r e p₂)
    have hopen := hexamined.1.of_append (_ :: (pinged ++ [_])) (by simpa using hj)
    refine absurd (ht.barren hx hb).1 (hopen (.call e.channel .isClosed (.ok false)) ?_ _ rfl)
    simp
  | exhausted r p p₁ p₂ source e ht hx hl =>
    have hn : r.strikes = p.config.badLimit := UInt64.toNat_inj.mp (by omega)
    exact Or.inl ⟨hn ▸ rfl, hn ▸ rfl, fun look hm => List.mem_singleton.mp hm ▸ rfl⟩
  | again r p p₁ p₂ q source e looks outcome ht hx hl h ih =>
    have l₁ := (turn_books ht.turn).ledger l
    have hreject : Turn now r.caller (some e, p₁) (none, p₂.reject e) := .reject p₁ p₂ e hx
    have l₂ := (turn_books hreject).ledger l₁
    have htwo := (turn_exchanges ht.turn l.distinct.channel_lt).trans
      (turn_exchanges hreject l₁.distinct.channel_lt)
    have hrest := hk.split (journal_exchanges htwo) (journal_exchanges (h.exchanges l₂))
    have hi := ih l₂ (ht.barren hx hb).2
    rw [config_rejected ht hx] at hi
    dsimp only at hi
    rw [toNat_strike hl] at hi
    refine (hi hl hrest.2).imp_left fun ⟨hn, hcount, hbad⟩ => ⟨hn, ?_, fun look hm => ?_⟩
    · rw [List.length_cons]
      omega
    · rcases List.mem_cons.mp hm with rfl | hm
      · rfl
      · exact hbad look hm
  | dropped r p p' q oldest looks outcome hd hr h ih =>
    cases hd with
    | drop rest hi hfull ha ho hv =>
      rw [hb.room] at hfull
      exact Bool.noConfusion hfull
  | refused r p q error hi hr h =>
    have hj := (Backend.connect_error _ _ _ _ (backend_openLink_refused now p q error h)).1
    exact Or.inr ⟨error, rfl, by rw [hj, List.head?_cons]⟩
  | standstill r p hi hr ho =>
    rw [hb.room] at hr
    exact Bool.noConfusion hr

end Pool

namespace Service

variable {σ : Type} [Driver σ] {r : Request} {t : Service σ}

/-- Whenever the search of the request asks a connection that was idle or is opened in its course
whether it is closed, the answer is yes. -/
def Forlorn (r : Request) (t : Service σ) : Prop :=
  t.pool.backend.Adds
    (fun event => ∀ channel ∈ event.unclosed?,
      channel ∉ t.pool.idle.map Entry.channel ∧ channel < t.pool.backend.opened)
    (t.pool.seek t.now r).2.backend

/-- The driver was asked to open a connection and refused, and the search failed with that. -/
def Refused (r : Request) (t : Service σ) : Prop :=
  ∃ error, (t.pool.seek t.now r).1 = .failed (.create error) ∧
    (t.pool.seek t.now r).2.backend.journal.head? =
      some (.connect t.pool.config.login (.error error))

/-- The search looks at nothing but `n` bad connections, and its acquisition fails. -/
structure Futile (r : Request) (t : Service σ) (n : UInt64) (looks : List Look) : Prop where
  outcome : (t.pool.seek t.now r).1 = .failed (.exhausted n)
  settled : (t.pursue r).settlements =
    ⟨r.caller, t.now, .error (.exhausted n)⟩ :: t.settlements
  loop : t.pool.Loop t.now r looks (t.pool.seek t.now r).1 (t.pool.seek t.now r).2
  bad : ∀ look ∈ looks, look.isBad = true
  length : looks.length = n.toNat
  limit : n.toNat = t.pool.config.maxIdle.toNat + t.pool.config.tolerance.toNat + 1
  exhausted : Pool.Exhausted r n.toNat looks t.pool (t.pool.seek t.now r).2

theorem settlements_pursue_failed {error : PoolError}
    (h : (t.pool.seek t.now r).1 = .failed error) :
    (t.pursue r).settlements = ⟨r.caller, t.now, .error error⟩ :: t.settlements := by
  have hs := Pool.settlements_seek t.now r t.pool
  unfold pursue
  generalize t.pool.seek t.now r = found at h hs
  obtain ⟨outcome, q⟩ := found
  obtain rfl : outcome = .failed error := h
  dsimp only
  rw [settlements_settle, settlements_books, settlements_books]
  exact congrArg _ hs

theorem gives_up_or_refused (ho : t.Steady) (hs : r.strikes = 0) (hr : t.pool.hasRoom = true)
    (hf : Forlorn r t) :
    (∃ looks, t.pool.Loop t.now r looks (t.pool.seek t.now r).1 (t.pool.seek t.now r).2 ∧
      (t.pool.seek t.now r).1 =
        .failed (Request.exhaustion { r with strikes := t.pool.config.badLimit }) ∧
      looks.length = t.pool.config.badLimit.toNat + 1 ∧
      ∀ look ∈ looks, look.isBad = true) ∨ Refused r t := by
  obtain ⟨looks, hloop⟩ := Pool.seek_loop t.now r t.pool ho.2
  have hbarren : t.pool.Barren fun channel =>
      channel ∈ t.pool.idle.map Entry.channel ∨ t.pool.backend.opened ≤ channel :=
    ⟨hr, fun e he => Or.inl (List.mem_map_of_mem he), fun _ hc => Or.inr hc⟩
  have hforlorn := hf.mono fun event h channel hc => fun hn : _ ∨ _ =>
    hn.elim (h channel hc).1 (Nat.not_le_of_lt (h channel hc).2)
  have hzero : r.strikes.toNat = 0 := congrArg UInt64.toNat hs
  have h := hloop.futile ho.1 hbarren (hzero ▸ Nat.zero_le _) hforlorn
  rw [hzero, Nat.zero_add] at h
  exact h.imp_left fun h => ⟨looks, hloop, h⟩

/-- In every run of every pool, if a stretch begins with room for another connection, and all that
is idle or opened then reports itself closed, its acquisition fails after exactly one bad connection
more than the limit, unless the driver refuses to open one. If the limit is below the greatest word,
the number it fails with counts them all, and so the count of the caller has not overflowed. -/
theorem futility_run (driver : σ) (config : Config) (pool : Pool σ)
    (h : Pool.create driver config = .ok pool) (ops : List (Op σ)) (op : Op σ)
    (hb : Begins r t op (run ops (start pool))) (hr : t.pool.hasRoom = true)
    (hf : Forlorn r t)
    (hl : t.pool.config.maxIdle.toNat + t.pool.config.tolerance.toNat + 1 < UInt64.size) :
    (∃ n looks, Futile r t n looks) ∨ Refused r t := by
  obtain ⟨ho, hs, -⟩ := rested_begins (fit_run driver config pool h ops)
    (rested_run ops (steady_start driver config pool h) (rested_start driver config pool h)) hb
  have hlimit := t.pool.config.toNat_badLimit
  have hword : (t.pool.config.badLimit + 1).toNat = t.pool.config.badLimit.toNat + 1 := by
    rw [UInt64.toNat_add]
    exact Nat.mod_eq_of_lt (show t.pool.config.badLimit.toNat + 1 < UInt64.size by omega)
  refine (gives_up_or_refused ho hs hr hf).imp_left fun ⟨looks, hloop, hn, hcount, hbad⟩ => ?_
  rw [Request.exhaustion_eq_exhausted.mpr hword] at hn
  refine ⟨_, looks, hn, settlements_pursue_failed hn, hloop, hbad, hcount.trans hword.symm, ?_,
    Pool.exhausted_of_loop (hn ▸ hloop) ho.2 hs⟩
  omega

end Service

namespace Backend

/-- The driver accepts, but all its connections are broken, and so far it answered accordingly. -/
structure Doomed (b : Backend Scripted) : Prop where
  accepting : b.driver.refusing = false
  breaking : b.driver.openingBroken = true
  opened : b.opened = b.driver.connections.length
  broken : ∀ x ∈ b.driver.connections, x.broken = true
  unrefused : ∀ login error, .connect login (.error error) ∉ b.journal
  unclosed : ∀ event ∈ b.journal, event.unclosed? = none

namespace Doomed

variable {b b' : Backend Scripted}

theorem new : ({ driver := { openingBroken := true } } : Backend Scripted).Doomed where
  accepting := rfl
  breaking := rfl
  opened := rfl
  broken _ h := absurd h List.not_mem_nil
  unrefused _ _ := List.not_mem_nil
  unclosed _ h := absurd h List.not_mem_nil

theorem isClosed (k : b.Doomed) {channel : Nat} (hl : channel < b.opened) :
    (b.call channel .isClosed).1 = .ok true := by
  rw [k.opened] at hl
  have hx := List.getElem?_eq_getElem hl
  rw [isClosed_eq channel b _ hx, Scripted.Connection.isDead,
    k.broken _ (List.getElem_mem hl), Bool.or_true]

theorem keep (k : b.Doomed) (event : Event) (hj : b'.journal = event :: b.journal)
    (hr : b'.driver.refusing = b.driver.refusing)
    (hb : b'.driver.openingBroken = b.driver.openingBroken)
    (ho : b'.opened = b'.driver.connections.length)
    (hx : ∀ x ∈ b'.driver.connections, x.broken = true)
    (hrefused : ∀ login error, event ≠ .connect login (.error error))
    (hclosed : event.unclosed? = none) : b'.Doomed where
  accepting := hr.trans k.accepting
  breaking := hb.trans k.breaking
  opened := ho
  broken := hx
  unrefused login error hm := by
    rw [hj] at hm
    exact (List.mem_cons.mp hm).elim (fun he => hrefused login error he.symm)
      (k.unrefused login error)
  unclosed other hm := by
    rw [hj] at hm
    exact (List.mem_cons.mp hm).elim (fun he => he ▸ hclosed) (k.unclosed other)

theorem call (k : b.Doomed) (channel : Nat) (c : Call) (hl : channel < b.opened) :
    (b.call channel c).2.Doomed := by
  have hd := connections_call channel c b
  have hswitches : (b.call channel c).2.driver.refusing = b.driver.refusing ∧
      (b.call channel c).2.driver.openingBroken = b.driver.openingBroken := by
    show (b.driver.answer channel c).2.refusing = _ ∧
      (b.driver.answer channel c).2.openingBroken = _
    unfold Scripted.answer
    split <;> exact ⟨rfl, rfl⟩
  refine k.keep (.call channel c (b.call channel c).1) rfl hswitches.1 hswitches.2 ?_ ?_
    nofun ?_
  · rw [hd, List.length_modify]
    exact k.opened
  · intro x hx
    obtain ⟨i, hi⟩ := List.getElem?_of_mem hx
    rw [hd, List.getElem?_modify] at hi
    obtain ⟨y, hy, rfl⟩ := Option.map_eq_some_iff.mp hi
    have hb := k.broken y (List.mem_of_getElem? hy)
    split
    · by_cases hc : c = .close
      · subst hc
        exact hb
      · exact ((Scripted.Connection.answer_frame c hc y).2).trans hb
    · exact hb
  · cases c with
    | isClosed =>
      rw [k.isClosed hl]
      rfl
    | close | autoCommit | setAutoCommit | commit | rollback | execute => rfl

theorem connect (k : b.Doomed) (login : Login) : (b.connect login).2.Doomed := by
  have hd : Driver.connect login b.driver = (.ok (), { b.driver with
      openCalls := b.driver.openCalls ++ [login]
      connections := b.driver.connections ++
        [{ autoCommit := !b.driver.manualCommit, broken := true }] }) := by
    show b.driver.connect login = _
    simp [Scripted.connect, k.accepting, k.breaking]
  unfold Backend.connect
  rw [hd]
  refine k.keep _ rfl rfl rfl ?_ ?_ nofun rfl
  · simpa using k.opened
  · simpa [or_imp, forall_and] using k.broken

theorem note (k : b.Doomed) (event : Event) (he : event.isTraffic = false) :
    (b.note event).Doomed := by
  refine k.keep _ rfl rfl rfl k.opened k.broken ?_ ?_
  · rintro login error rfl
    exact Bool.noConfusion he
  · cases event with
    | call => exact Bool.noConfusion he
    | _ => rfl

theorem exchanges (k : b.Doomed) (h : Exchanges b b') : b'.Doomed :=
  exchanges_keep Doomed
    (fun _ _ hx k => hx.keeps Doomed (fun _ k => k.opened) (fun _ event he k => k.note event he)
      (fun _ login k => k.connect login) (fun _ channel c _ hl k => k.call channel c hl)
      (fun b channel ho k => by
        obtain ⟨x, hx, hd⟩ := ho
        exact k.call channel .close (k.opened ▸ (List.getElem?_eq_some_iff.mp hx).1)) k) h k

end Doomed

end Backend

namespace Service

theorem forlorn_of_doomed {r : Request} {t : Service Scripted} (ho : t.Steady)
    (k : t.pool.backend.Doomed) : Forlorn r t ∧ ¬ Refused r t := by
  obtain ⟨looks, hloop⟩ := Pool.seek_loop t.now r t.pool ho.2
  have hx := hloop.exchanges ho.1
  have k' := k.exchanges hx
  constructor
  · obtain ⟨newer, hj⟩ := Pool.journal_exchanges hx
    refine ⟨newer, hj.symm, fun event hm channel hc => ?_⟩
    have hnone := k'.unclosed event (hj ▸ List.mem_append_left _ hm)
    exact absurd (hnone.symm.trans hc) nofun
  · rintro ⟨error, -, hj⟩
    exact k'.unrefused _ _ (List.mem_of_mem_head? hj)

theorem futility_onlyBrokenOpenings :
    let s := run [.meddle fun s => { s with openingBroken := true }]
      (start (Pool.unused ({} : Scripted) Config.trial))
    let t := { s with callers := s.callers + 1 }
    Pool.create ({} : Scripted) Config.trial = .ok (Pool.unused {} Config.trial) ∧
      Begins (s.newcomer .plain) t (.acquire .plain) s ∧ t.pool.hasRoom = true ∧
      Forlorn (s.newcomer .plain) t ∧ ∃ looks, Futile (s.newcomer .plain) t 9 looks := by
  intro s t
  have hb : Begins (s.newcomer .plain) t (.acquire .plain) s := .come s .plain rfl rfl rfl
  have ho : t.Steady :=
    steady_moves (begins_moves hb) (fit_run ({} : Scripted) Config.trial _ rfl _)
  obtain ⟨hf, hr⟩ := forlorn_of_doomed (r := s.newcomer .plain) ho Backend.Doomed.new
  have h := futility_run ({} : Scripted) Config.trial (Pool.unused {} Config.trial) rfl
    [.meddle fun s => { s with openingBroken := true }] (.acquire .plain) hb (by decide +kernel) hf
    (by decide +kernel)
  obtain ⟨n, looks, k⟩ := h.resolve_right hr
  obtain rfl : n = 9 := UInt64.toNat_inj.mp k.limit
  exact ⟨rfl, hb, by decide +kernel, hf, looks, k⟩

def greatestLimit : Config :=
  { Config.trial with maxIdle := 18446744073709551614, tolerance := 1 }

/-- A usable configuration whose limit is the greatest word: there are more bad connections than a
word can count, and the count overflows instead of making the acquisition give up. -/
theorem overflow_at_greatest_limit :
    let s := start (Pool.unused ({ openingBroken := true } : Scripted) greatestLimit)
    let t := { s with callers := s.callers + 1 }
    greatestLimit.validate = .ok () ∧
      Pool.create ({ openingBroken := true } : Scripted) greatestLimit =
        .ok (Pool.unused { openingBroken := true } greatestLimit) ∧
      Begins (s.newcomer .plain) t (.acquire .plain) s ∧ t.pool.hasRoom = true ∧
      Forlorn (s.newcomer .plain) t ∧ ¬ Refused (s.newcomer .plain) t ∧
      (¬ ∃ n : UInt64,
        n.toNat = greatestLimit.maxIdle.toNat + greatestLimit.tolerance.toNat + 1) ∧
      (t.pool.seek t.now (s.newcomer .plain)).1 = .failed .overflow := by
  intro s t
  have hc : Pool.create ({ openingBroken := true } : Scripted) greatestLimit =
      .ok (Pool.unused { openingBroken := true } greatestLimit) := rfl
  have hb : Begins (s.newcomer .plain) t (.acquire .plain) s := .come s .plain rfl rfl rfl
  have hrest := rested_begins (steady_start _ _ _ hc) (rested_start _ _ _ hc) hb
  obtain ⟨hf, hr⟩ := forlorn_of_doomed (r := s.newcomer .plain) hrest.1 Backend.Doomed.new
  obtain ⟨looks, -, hn, -⟩ :=
    (gives_up_or_refused hrest.1 hrest.2.1 (by decide +kernel) hf).resolve_right hr
  refine ⟨rfl, hc, hb, by decide +kernel, hf, hr, fun ⟨n, hn⟩ => ?_, hn⟩
  exact absurd n.toNat_lt_size (Nat.not_lt_of_ge (Nat.le_of_eq hn.symm))

end Service

end ConnectionPool
