import ConnectionPool.Driver.Faulty
import ConnectionPool.Proofs.Episodes
import ConnectionPool.Proofs.Safekeeping
import ConnectionPool.Proofs.Tracking

/-!
# Dependability

A driver can be depended on from some moment if it opens whatever it is asked for and a connection
that was not told to close reports itself open and answers every call. A search then examines one
candidate at most, and lends it. It cannot fail, and stops only at a standstill. The scripted driver
with planted faults can be depended on once its switches are off, no open connection is broken or
fails its statements, and all faults have been spent.
-/

set_option autoImplicit false

namespace ConnectionPool

namespace Backend

variable {σ : Type} [Driver σ] {b b' : Backend σ} {channel : Nat}

/-- The driver accepts, and every connection that was not told to close reports itself open and
answers every call without an error. -/
structure Sound (b : Backend σ) : Prop where
  connects : ∀ login, ∃ channel, (b.connect login).1 = .ok channel
  isOpen : ∀ channel < b.opened, channel ∉ closings b.journal →
    (b.call channel .isClosed).1 = .ok false
  answers : ∀ channel < b.opened, channel ∉ closings b.journal → ∀ c,
    ∃ value, (b.call channel c).1 = .ok value

/-- It stays so, whatever the pool does with it. -/
def Dependable (b : Backend σ) : Prop := ∀ b', Exchanges b b' → b'.Sound

theorem Dependable.later (d : b.Dependable) (h : Exchanges b b') : b'.Dependable :=
  fun _ h' => d _ (h.trans h')

structure Live (channel : Nat) (b : Backend σ) : Prop where
  dependable : b.Dependable
  lt : channel < b.opened
  unclosed : channel ∉ closings b.journal

namespace Live

theorem call (k : b.Live channel) (c : Call) (hc : c ≠ .close) :
    (b.call channel c).2.Live channel where
  dependable := k.dependable.later (.single (.call b channel c k.lt hc))
  lt := k.lt
  unclosed := by
    have hj : closings (b.call channel c).2.journal = closings b.journal :=
      closings_cons _ (Event.closing_call channel c _ hc) _
    rw [hj]
    exact k.unclosed

theorem answer (k : b.Live channel) (c : Call) :
    ∃ value, b.call channel c = (.ok value, (b.call channel c).2) := by
  obtain ⟨value, h⟩ := (k.dependable b .refl).answers channel k.lt k.unclosed c
  exact ⟨value, Prod.ext h rfl⟩

theorem ping (k : b.Live channel) (query : String) : (b.ping channel query).1 = true := by
  obtain ⟨rows, h₁⟩ := k.answer (.execute query)
  have k₁ := k.call (.execute query) (by simp)
  obtain ⟨mode, h₂⟩ := k₁.answer .autoCommit
  obtain ⟨u, h₃⟩ := (k₁.call .autoCommit (by decide)).answer .rollback
  unfold Backend.ping
  rw [h₁]
  dsimp only
  rw [h₂]
  cases mode with
  | true => rfl
  | false =>
    dsimp only
    rw [h₃]

theorem probe (k : b.Live channel) (query : Option String) : (b.probe channel query).1 = true := by
  have h : b.call channel .isClosed = (.ok false, (b.call channel .isClosed).2) :=
    Prod.ext ((k.dependable b .refl).isOpen channel k.lt k.unclosed) rfl
  unfold Backend.probe
  rw [h]
  cases query with
  | none => rfl
  | some query =>
    have hp := (k.call .isClosed (by decide)).ping query
    dsimp only
    generalize (b.call channel .isClosed).2.ping channel query = pinged at hp
    obtain ⟨passed, b'⟩ := pinged
    obtain rfl : passed = true := hp
    rfl

end Live

end Backend

namespace Pool

variable {σ : Type} [Driver σ] {now caller : Nat} {p p₁ q : Pool σ} {r : Request}
  {source : Source} {e : Entry} {verdict : Bool} {handles : List Handle} {looks : List Look}
  {outcome : Outcome}

theorem Takes.sound (ht : p.Takes now caller source e p₁) (l : Ledger none p.books handles)
    (k : p.HasCustody none) (d : p.backend.Dependable)
    (hx : p₁.examine now caller e = (verdict, q)) : verdict = true := by
  have hturn := ht.turn
  have l₁ := (turn_books hturn).ledger l
  have hlive : p₁.backend.Live e.channel := by
    refine ⟨d.later (turn_exchanges hturn l.distinct.channel_lt),
      l₁.distinct.channel_lt e List.mem_cons_self, ?_⟩
    exact (hturn.custody l k).unclosed e.channel List.mem_cons_self
  obtain ⟨query, probed, hp, -⟩ := backend_examine now caller e verdict p₁ q hx
  exact (congrArg Prod.fst hp).symm.trans (hlive.probe query)

theorem Loop.of_dependable (h : Loop now r p looks outcome q) (l : Ledger none p.books handles)
    (k : p.HasCustody none) (d : p.backend.Dependable) (hu : 1 ≤ p.config.maxActive.toNat) :
    (∃ e, outcome = .granted e) ∨ ∃ r', outcome = .saturated r' := by
  induction h with
  | granted r p p₁ p₂ source e ht hx => exact Or.inl ⟨_, rfl⟩
  | exhausted r p p₁ p₂ source e ht hx hl => exact Bool.noConfusion (ht.sound l k d hx)
  | again r p p₁ p₂ q source e looks outcome ht hx hl h ih =>
    exact Bool.noConfusion (ht.sound l k d hx)
  | dropped r p p' q oldest looks outcome hd hr h ih =>
    have hturn := hd.turn
    refine ih ((turn_books hturn).ledger l) (hturn.custody l k)
      (d.later (turn_exchanges hturn l.distinct.channel_lt)) ?_
    rw [show p'.config = p.config from (turn_books hturn).config.1]
    exact hu
  | refused r p q error hi hr h =>
    obtain ⟨channel, hc⟩ := (d p.backend .refl).connects p.config.login
    unfold openLink at h
    split at h
    · rename_i he
      rw [he] at hc
      exact absurd hc (by simp)
    · exact absurd (congrArg Prod.fst h) (by simp)
  | standstill r p hi hr ho =>
    right
    have hn : p.active.isEmpty = false := by
      rw [Bool.eq_false_iff]
      intro he
      have hfull := full_of_not_hasRoom p hr
      rw [List.isEmpty_iff.mp he] at hfull
      exact absurd (Nat.le_trans hu hfull) (by decide)
    rw [hn]
    exact ⟨r, rfl⟩

end Pool

def Fault.isSpent (fault : Fault) : Bool := fault.remaining == some 0

theorem Fault.meet_of_spent {fault : Option Fault} (h : ∀ f ∈ fault, f.isSpent = true) :
    Fault.meet fault = (none, none) := by
  cases fault with
  | none => rfl
  | some f =>
    have hr : f.remaining = some 0 := eq_of_beq (h f rfl)
    unfold meet
    dsimp only
    rw [hr]

namespace Faults

def areSpent (faults : Faults) : Bool := faults.all fun f => f.2.isSpent

theorem meet_of_spent {faults : Faults} (h : faults.areSpent = true) (method : Method) :
    (faults.meet method).1 = none ∧ (faults.meet method).2.areSpent = true := by
  have hm : Fault.meet (faults.lookup method) = (none, none) := by
    refine Fault.meet_of_spent fun f hf => ?_
    obtain ⟨before, after, rfl, -⟩ := List.lookup_eq_some_iff.mp hf
    exact List.all_eq_true.mp h _ (List.mem_append_right before List.mem_cons_self)
  unfold meet
  rw [hm]
  refine ⟨rfl, ?_⟩
  refine List.all_eq_true.mpr fun f hf => List.all_eq_true.mp h f ?_
  exact List.mem_of_mem_filter hf

end Faults

namespace Scripted.Connection

def isSound (x : Connection) : Bool := !x.isDead && !x.failing

theorem answer_of_isSound {x : Connection} (h : x.isSound = true) (c : Call) :
    (∃ value, (x.answer c).1 = .ok value) ∧ (c ≠ .close → (x.answer c).2.isSound = true) := by
  obtain ⟨hd, hf⟩ := Bool.and_eq_true_iff.mp h
  have hd : ¬ x.isDead = true := by simpa using hd
  have hf : ¬ x.failing = true := by simpa using hf
  cases c with
  | isClosed | autoCommit => exact ⟨⟨_, rfl⟩, fun _ => h⟩
  | close => exact ⟨⟨(), rfl⟩, fun hn => absurd rfl hn⟩
  | setAutoCommit enabled | commit | rollback =>
    simp only [answer, if_neg hd]
    exact ⟨⟨(), trivial⟩, fun _ => h⟩
  | execute sql =>
    simp only [answer, if_neg hd, if_neg hf]
    refine ⟨⟨1, rfl⟩, fun _ => ?_⟩
    rw [isSound, isDead]
    exact h

end Scripted.Connection

theorem Scripted.switches_answer (channel : Nat) (c : Call) (s : Scripted) :
    (Driver.answer channel c s).2.refusing = s.refusing ∧
      (Driver.answer channel c s).2.openingBroken = s.openingBroken := by
  show (s.answer channel c).2.refusing = _ ∧ (s.answer channel c).2.openingBroken = _
  unfold answer
  split <;> exact ⟨rfl, rfl⟩

namespace Faulty

structure Aside (channel : Nat) (s t : Faulty Scripted) : Prop where
  refusing : t.behind.refusing = s.behind.refusing
  openingBroken : t.behind.openingBroken = s.behind.openingBroken
  onConnect : t.onConnect = s.onConnect
  fresh : t.fresh = s.fresh
  opened : t.behind.connections.length = s.behind.connections.length
  planted : t.channels.length = s.channels.length
  others : ∀ i ≠ channel, t.behind.connections[i]? = s.behind.connections[i]? ∧
    t.channels[i]? = s.channels[i]?

theorem answer_aside (channel : Nat) (c : Call) (s : Faulty Scripted) :
    Aside channel s (Driver.answer channel c s).2 := by
  show Aside channel s (s.answer channel c).2
  unfold answer
  generalize Faults.meet c.method ((s.channels[channel]?).getD []) = met
  obtain ⟨error?, left⟩ := met
  have hset (i : Nat) (hi : i ≠ channel) : (s.channels.set channel left)[i]? = s.channels[i]? :=
    List.getElem?_set_ne (Ne.symm hi)
  cases error? with
  | some error =>
    exact ⟨rfl, rfl, rfl, rfl, rfl, List.length_set, fun i hi => ⟨rfl, hset i hi⟩⟩
  | none =>
    obtain ⟨hr, ho⟩ := Scripted.switches_answer channel c s.behind
    have hc := Scripted.connections_answer channel c s.behind
    refine ⟨hr, ho, rfl, rfl, ?_, List.length_set, fun i hi => ⟨?_, hset i hi⟩⟩
    · show (Driver.answer channel c s.behind).2.connections.length = _
      rw [hc, List.length_modify]
    · show (Driver.answer channel c s.behind).2.connections[i]? = _
      rw [hc, List.getElem?_modify_ne _ _ (Ne.symm hi)]

theorem answer_of_spent {channel : Nat} {s : Faulty Scripted} {x : Scripted.Connection}
    {faults : Faults} (hx : s.behind.connections[channel]? = some x)
    (hf : s.channels[channel]? = some faults) (hs : faults.areSpent = true) (c : Call) :
    (Driver.answer channel c s).1 = (x.answer c).1 ∧
      (Driver.answer channel c s).2.behind.connections[channel]? = some (x.answer c).2 ∧
      (Driver.answer channel c s).2.channels[channel]? = some (faults.meet c.method).2 := by
  obtain ⟨hnone, -⟩ := Faults.meet_of_spent hs c.method
  have hmeet : Faults.meet c.method ((s.channels[channel]?).getD []) =
      (none, (faults.meet c.method).2) := by
    rw [hf]
    exact Prod.ext hnone rfl
  have hl : channel < s.channels.length := (List.getElem?_eq_some_iff.mp hf).1
  have ha : s.answer channel c = ((Driver.answer channel c s.behind).1,
      { s with
        channels := s.channels.set channel (faults.meet c.method).2
        behind := (Driver.answer channel c s.behind).2 }) := by
    unfold answer
    rw [hmeet]
  show (s.answer channel c).1 = _ ∧ (s.answer channel c).2.behind.connections[channel]? = _ ∧
    (s.answer channel c).2.channels[channel]? = _
  rw [ha]
  refine ⟨?_, ?_, List.getElem?_set_self hl⟩
  · show (s.behind.answer channel c).1 = _
    unfold Scripted.answer
    rw [hx]
  · show (Driver.answer channel c s.behind).2.connections[channel]? = _
    rw [Scripted.connections_answer, List.getElem?_modify_eq, hx]
    rfl

end Faulty

namespace Backend

open Scripted (Connection)

/-- Its switches are off, every connection that was not told to close is sound, and no fault is left
that could be met. -/
structure Healthy (b : Backend (Faulty Scripted)) : Prop where
  accepting : b.driver.behind.refusing = false
  intact : b.driver.behind.openingBroken = false
  onConnect : ∀ fault ∈ b.driver.onConnect, fault.isSpent = true
  fresh : b.driver.fresh.areSpent = true
  opened : b.driver.behind.connections.length = b.opened
  planted : b.driver.channels.length = b.opened
  sound : ∀ channel < b.opened, channel ∈ closings b.journal ∨
    b.driver.behind.connections[channel]?.any Connection.isSound = true ∧
      b.driver.channels[channel]?.any Faults.areSpent = true

theorem Exchange.keeps_calls {σ : Type} [Driver σ] {b b' : Backend σ} (P : Backend σ → Prop)
    (hn : ∀ b event, event.isTraffic = false → P b → P (b.note event))
    (hconnect : ∀ b login, P b → P (b.connect login).2)
    (hcall : ∀ b channel c, P b → P (b.call channel c).2) (h : Exchange b b') (hp : P b) :
    P b' := by
  cases h with
  | note event h => exact hn b event h hp
  | connect login => exact hconnect b login hp
  | call channel c hl hc => exact hcall b channel c hp
  | close channel hl =>
    have h₁ := keeps_undo P channel (fun b c _ => hcall b channel c) b hp
    have h₂ := hcall _ channel .isClosed h₁
    unfold Backend.close
    split
    · rename_i e
      rw [e] at h₂
      exact h₂
    · rename_i b₂ _ e
      rw [e] at h₂
      exact hcall b₂ channel .close h₂
  | probe channel query hl =>
    have h₁ := hcall b channel .isClosed hp
    unfold Backend.probe
    split
    · rename_i b₁ e
      rw [e] at h₁
      split
      · exact h₁
      · rename_i query
        have h₂ := keeps_ping P channel (fun b c _ => hcall b channel c) query b₁ h₁
        split
        · rename_i e₂
          rw [e₂] at h₂
          exact h₂
        · rename_i b₂ e₂
          rw [e₂] at h₂
          exact hcall b₂ channel .close h₂
    · rename_i e
      rw [e] at h₁
      exact h₁

namespace Healthy

variable {b b' : Backend (Faulty Scripted)}

theorem note (k : b.Healthy) (event : Event) (h : event.isTraffic = false) :
    (b.note event).Healthy where
  accepting := k.accepting
  intact := k.intact
  onConnect := k.onConnect
  fresh := k.fresh
  opened := k.opened
  planted := k.planted
  sound channel hl := by
    have hj : closings (b.note event).journal = closings b.journal :=
      closings_cons _ (Event.closing_of_decision event h) _
    rw [hj]
    exact k.sound channel hl

theorem found (k : b.Healthy) {channel : Nat} (hl : channel < b.opened)
    (hc : channel ∉ closings b.journal) : ∃ x faults,
      b.driver.behind.connections[channel]? = some x ∧ b.driver.channels[channel]? = some faults ∧
        x.isSound = true ∧ faults.areSpent = true := by
  obtain ⟨hx, hf⟩ := (k.sound channel hl).resolve_left hc
  obtain ⟨x, hx, hsound⟩ := (Option.any_eq_true _ _).mp hx
  obtain ⟨faults, hf, hspent⟩ := (Option.any_eq_true _ _).mp hf
  exact ⟨x, faults, hx, hf, hsound, hspent⟩

theorem call (k : b.Healthy) (channel : Nat) (c : Call) : (b.call channel c).2.Healthy := by
  have ha := Faulty.answer_aside channel c b.driver
  have hd : (b.call channel c).2.driver = (Driver.answer channel c b.driver).2 := rfl
  refine ⟨?_, ?_, ?_, ?_, ?_, ?_, fun i hl => ?_⟩
  · rw [hd, ha.refusing, k.accepting]
  · rw [hd, ha.openingBroken, k.intact]
  · rw [hd, ha.onConnect]
    exact k.onConnect
  · rw [hd, ha.fresh]
    exact k.fresh
  · rw [hd, ha.opened]
    exact k.opened
  · rw [hd, ha.planted]
    exact k.planted
  · have hgrows : ∀ j ∈ closings b.journal, j ∈ closings (b.call channel c).2.journal := by
      intro j hj
      exact (List.sublist_cons_self _ b.journal).filterMap _ |>.subset hj
    by_cases hc : i ∈ closings b.journal
    · exact Or.inl (hgrows i hc)
    · obtain ⟨x, faults, hx, hf, hsound, hspent⟩ := k.found hl hc
      by_cases hi : i = channel
      · subst hi
        by_cases hclose : c = .close
        · subst hclose
          exact Or.inl List.mem_cons_self
        · obtain ⟨-, hx', hf'⟩ := Faulty.answer_of_spent hx hf hspent c
          right
          rw [hd, hx', hf']
          exact ⟨(Connection.answer_of_isSound hsound c).2 hclose,
            (Faults.meet_of_spent hspent c.method).2⟩
      · right
        obtain ⟨hx', hf'⟩ := ha.others i hi
        rw [hd, hx', hf', hx, hf]
        exact ⟨hsound, hspent⟩

theorem connect_eq (k : b.Healthy) (login : Login) : ∃ x : Connection, x.isSound = true ∧
    Driver.connect login b.driver = (.ok (),
      { b.driver with
        behind :=
          { b.driver.behind with
            openCalls := b.driver.behind.openCalls ++ [login]
            connections := b.driver.behind.connections ++ [x] }
        onConnect := none
        channels := b.driver.channels ++ [b.driver.fresh] }) := by
  refine ⟨{ autoCommit := !b.driver.behind.manualCommit, broken := false }, rfl, ?_⟩
  have hbehind : Driver.connect login b.driver.behind = (.ok (),
      { b.driver.behind with
        openCalls := b.driver.behind.openCalls ++ [login]
        connections := b.driver.behind.connections ++
          [{ autoCommit := !b.driver.behind.manualCommit, broken := false }] }) := by
    show b.driver.behind.connect login = _
    unfold Scripted.connect
    simp only [k.accepting, k.intact, Bool.false_eq_true, if_false]
  show b.driver.connect login = _
  unfold Faulty.connect
  rw [Fault.meet_of_spent k.onConnect]
  dsimp only
  rw [hbehind]

theorem connect (k : b.Healthy) (login : Login) : (b.connect login).2.Healthy := by
  obtain ⟨x, hx, he⟩ := k.connect_eq login
  unfold Backend.connect
  rw [he]
  refine ⟨k.accepting, k.intact, fun _ h => absurd h (by simp), k.fresh, ?_, ?_, fun i hl => ?_⟩
  · show (b.driver.behind.connections ++ [x]).length = b.opened + 1
    rw [List.length_append, k.opened]
    rfl
  · show (b.driver.channels ++ [b.driver.fresh]).length = b.opened + 1
    rw [List.length_append, k.planted]
    rfl
  · show i ∈ closings (.connect login (.ok b.opened) :: b.journal) ∨
      (b.driver.behind.connections ++ [x])[i]?.any Connection.isSound = true ∧
        (b.driver.channels ++ [b.driver.fresh])[i]?.any Faults.areSpent = true
    rw [closings_cons (.connect login (.ok b.opened)) rfl]
    rcases Nat.lt_or_eq_of_le (Nat.le_of_lt_succ hl) with hl | rfl
    · rw [List.getElem?_append_left (k.opened.symm ▸ hl),
        List.getElem?_append_left (k.planted.symm ▸ hl)]
      exact k.sound i hl
    · right
      rw [← k.opened, List.getElem?_concat_length, k.opened, ← k.planted,
        List.getElem?_concat_length]
      exact ⟨hx, k.fresh⟩

theorem exchanges (k : b.Healthy) (h : Exchanges b b') : b'.Healthy :=
  exchanges_keep Healthy
    (fun _ _ hx k => hx.keeps_calls Healthy (fun _ event he k => k.note event he)
      (fun _ login k => k.connect login) (fun _ channel c k => k.call channel c) k) h k

theorem dependable (k : b.Healthy) : b.Dependable := by
  intro b' h
  have k' := k.exchanges h
  refine ⟨fun login => ⟨b'.opened, ?_⟩, fun channel hl hc => ?_, fun channel hl hc c => ?_⟩
  · obtain ⟨x, -, he⟩ := k'.connect_eq login
    unfold Backend.connect
    rw [he]
  · obtain ⟨x, faults, hx, hf, hsound, hspent⟩ := k'.found hl hc
    have hdead : x.isDead = false := by simpa using (Bool.and_eq_true_iff.mp hsound).1
    refine ((Faulty.answer_of_spent hx hf hspent .isClosed).1).trans ?_
    exact congrArg Except.ok hdead
  · obtain ⟨x, faults, hx, hf, hsound, hspent⟩ := k'.found hl hc
    obtain ⟨value, hv⟩ := (Connection.answer_of_isSound hsound c).1
    exact ⟨value, ((Faulty.answer_of_spent hx hf hspent c).1).trans hv⟩

end Healthy

end Backend

end ConnectionPool
