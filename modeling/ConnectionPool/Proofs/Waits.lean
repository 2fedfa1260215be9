import ConnectionPool.Proofs.Cancellation
import ConnectionPool.Proofs.Counts
import Mathlib.Algebra.BigOperators.Group.Finset.Piecewise
import Mathlib.Algebra.GroupWithZero.Nat
import Mathlib.Data.Finset.Card

/-!
# Waiting in the statistics

An acquisition that finds the pool saturated is counted as having waited, once, and sleeps, unless
its token has been cancelled: then it is turned away without having slept at all. So the count is
that of the acquisitions that slept and of those that were turned away. The time that is added up is
that of all sleeps that have ended, however the acquisitions ended. Since only sleeping takes time,
it is for each acquisition the time between its arrival and its end, or its present sleep.
-/

set_option autoImplicit false

namespace ConnectionPool

structure Cycle where
  caller : Nat
  length : Nat
  deriving DecidableEq, Repr

namespace Event

def asleep? : Event → Option Nat
  | slept caller => some caller
  | _ => none

def cycle? : Event → Option Cycle
  | woke caller length => some ⟨caller, length⟩
  | _ => none

end Event

def Settlement.interrupted? : Settlement → Option Nat
  | ⟨caller, _, .error .interrupted⟩ => some caller
  | _ => none

/-- What the journal and the tally tell of waiting. -/
structure Account where
  sleeps : List Nat
  cycles : List Cycle
  settlements : List Settlement
  waits : Nat
  waitTime : Nat

def Books.account (b : Books) : Account where
  sleeps := b.view Event.asleep?
  cycles := b.view Event.cycle?
  settlements := b.settlements
  waits := b.tally.waits
  waitTime := b.tally.waitTime

namespace Account

def sleptFor (a : Account) (caller : Nat) : Nat :=
  ((a.cycles.filter fun w => w.caller == caller).map Cycle.length).sum

def blocked (a : Account) : Finset Nat := a.sleeps.toFinset

def interrupted (a : Account) : Finset Nat :=
  (a.settlements.filterMap Settlement.interrupted?).toFinset

/-- The callers that were interrupted without having slept. -/
def turnedAway (a : Account) : Finset Nat := a.interrupted \ a.blocked

def wake (caller length : Nat) (a : Account) : Account :=
  { a with cycles := ⟨caller, length⟩ :: a.cycles, waitTime := a.waitTime + length }

def settle (x : Settlement) (a : Account) : Account :=
  { a with settlements := x :: a.settlements }

def countWait (r : Request) (a : Account) : Account :=
  if r.hasWaited then a else { a with waits := a.waits + 1 }

def sleep (caller : Nat) (a : Account) : Account := { a with sleeps := caller :: a.sleeps }

theorem sleptFor_wake (caller length other : Nat) (a : Account) :
    (a.wake caller length).sleptFor other =
      (if caller = other then length else 0) + a.sleptFor other := by
  unfold sleptFor wake
  rw [List.filter_cons]
  by_cases h : caller = other
  · simp [h]
  · simp [h]

theorem sum_sleptFor (a : Account) (people : List Nat) (hn : people.Nodup)
    (h : ∀ w ∈ a.cycles, w.caller ∈ people) :
    (people.map a.sleptFor).sum = (a.cycles.map Cycle.length).sum := by
  obtain ⟨sleeps, cycles, settlements, waits, waitTime⟩ := a
  rw [← List.sum_toFinset _ hn]
  induction cycles with
  | nil => simp [sleptFor]
  | cons w cycles ih =>
    obtain ⟨hw, hrest⟩ := List.forall_mem_cons.mp h
    have hcons (c : Nat) : sleptFor ⟨sleeps, w :: cycles, settlements, waits, waitTime⟩ c =
        (if w.caller = c then w.length else 0) +
          sleptFor ⟨sleeps, cycles, settlements, waits, waitTime⟩ c :=
      sleptFor_wake w.caller w.length c ⟨sleeps, cycles, settlements, waits, waitTime⟩
    simp only [hcons]
    rw [Finset.sum_add_distrib, ih hrest, Finset.sum_ite_eq, if_pos (List.mem_toFinset.mpr hw)]
    rfl

theorem countWait_eq (r : Request) (a : Account) :
    a.countWait r = { a with waits := (a.countWait r).waits } := by
  unfold countWait
  split <;> rfl

theorem interrupted_settle (caller instant : Nat) (a : Account) :
    (a.settle ⟨caller, instant, .error .interrupted⟩).interrupted =
      insert caller a.interrupted := by
  show (caller :: a.settlements.filterMap Settlement.interrupted?).toFinset = _
  exact List.toFinset_cons

theorem interrupted_settle_of_ne (caller instant : Nat) (a : Account)
    {result : Except PoolError Entry} (h : result ≠ .error .interrupted) :
    (a.settle ⟨caller, instant, result⟩).interrupted = a.interrupted := by
  have hn : Settlement.interrupted? ⟨caller, instant, result⟩ = none := by
    unfold Settlement.interrupted?
    split
    · rename_i he
      exact absurd (Settlement.mk.inj he).2.2 h
    · rfl
  unfold interrupted settle
  rw [List.filterMap_cons_none hn]

theorem mem_of_interrupted {caller : Nat} {a : Account} (h : caller ∈ a.interrupted) :
    caller ∈ a.settlements.map Settlement.caller := by
  obtain ⟨y, hy, he⟩ := List.mem_filterMap.mp (List.mem_toFinset.mp h)
  refine List.mem_map.mpr ⟨y, hy, ?_⟩
  unfold Settlement.interrupted? at he
  split at he
  · exact Option.some.inj he
  · exact absurd he (by simp)

def everyone (running : Option Request) (queue : List Sleeper) (a : Account) : List Nat :=
  running.toList.map Request.caller ++
    ((queue.map fun x => x.request.caller) ++ a.settlements.map Settlement.caller)

theorem everyone_settle (x : Settlement) (queue : List Sleeper) (a : Account) :
    (everyone none queue (a.settle x)).Perm (x.caller :: everyone none queue a) :=
  show ((queue.map fun x => x.request.caller) ++
    x.caller :: a.settlements.map Settlement.caller).Perm _ from List.perm_middle

/-- The roll of those known: each once, among them all who slept, and none that is still to come. -/
structure Roll (everyone sleeps : List Nat) (callers : Nat) : Prop where
  nodup : everyone.Nodup
  known : ∀ c ∈ everyone, c < callers
  slept : ∀ c ∈ sleeps, c ∈ everyone

theorem Roll.perm {everyone everyone' sleeps : List Nat} {callers : Nat}
    (h : Roll everyone sleeps callers) (hp : everyone.Perm everyone') :
    Roll everyone' sleeps callers where
  nodup := hp.nodup_iff.mp h.nodup
  known c hc := h.known c (hp.mem_iff.mpr hc)
  slept c hc := hp.mem_iff.mp (h.slept c hc)

/-- The account is right. `came` tells when each caller came, and `barred` which of them came with a
cancelled token; `queue` are those that sleep or have just been woken. -/
structure Sound (came : Nat → Nat → Prop) (barred : Nat → Prop) (running : Option Request)
    (queue : List Sleeper) (now callers : Nat) (a : Account) : Prop where
  roll : Roll (everyone running queue a) a.sleeps callers
  waits : a.waits = (a.blocked ∪ a.interrupted).card
  waitTime : a.waitTime = (a.cycles.map Cycle.length).sum
  matched : a.sleeps.Perm (a.cycles.map Cycle.caller ++ queue.map fun x => x.request.caller)
  asleep : ∀ x ∈ queue, x.request.hasWaited = true ∧
    came x.request.caller x.request.startedAt ∧
      x.since = x.request.startedAt + a.sleptFor x.request.caller ∧ x.since ≤ now
  running : ∀ r ∈ running, came r.caller r.startedAt ∧
    now = r.startedAt + a.sleptFor r.caller ∧ (r.hasWaited = true ↔ r.caller ∈ a.sleeps)
  settled : ∀ y ∈ a.settlements, ∃ arrival, came y.caller arrival ∧
    y.instant = arrival + a.sleptFor y.caller
  refused : ∀ c ∈ a.turnedAway, barred c

namespace Sound

variable {came came' : Nat → Nat → Prop} {barred barred' : Nat → Prop} {r : Request}
  {x : Sleeper} {queue queue' : List Sleeper} {now callers : Nat} {a : Account}

theorem empty : Sound came barred none [] now callers ⟨[], [], [], 0, 0⟩ where
  roll := ⟨List.nodup_nil, fun _ h => absurd h List.not_mem_nil,
    fun _ h => absurd h List.not_mem_nil⟩
  waits := rfl
  waitTime := rfl
  matched := List.Perm.refl _
  asleep _ h := absurd h List.not_mem_nil
  running _ h := absurd h (by simp)
  settled _ h := absurd h List.not_mem_nil
  refused _ h := absurd (Finset.mem_sdiff.mp h).1 (Finset.notMem_empty _)

theorem mono {running : Option Request} (h : Sound came barred running queue now callers a)
    (hc : ∀ caller instant, came caller instant → came' caller instant)
    (hb : ∀ caller, barred caller → barred' caller) :
    Sound came' barred' running queue now callers a :=
  { h with
    asleep := fun y hy => (h.asleep y hy).imp_right fun hy => hy.imp_left (hc _ _)
    running := fun r hr => (h.running r hr).imp_left (hc _ _)
    settled := fun y hy => (h.settled y hy).imp fun _ hy => hy.imp_left (hc _ _)
    refused := fun c hc => hb c (h.refused c hc) }

theorem perm {running : Option Request} (h : Sound came barred running queue now callers a)
    (hp : queue.Perm queue') : Sound came barred running queue' now callers a :=
  { h with
    roll := h.roll.perm (((hp.map _).append_right _).append_left _)
    matched := h.matched.trans ((hp.map _).append_left _)
    asleep := fun y hy => h.asleep y (hp.mem_iff.mpr hy) }

theorem pass (h : Sound came barred none queue now callers a) {later : Nat} (hn : now ≤ later) :
    Sound came barred none queue later callers a := by
  refine { h with asleep := fun y hy => ?_, running := fun r hr => absurd hr (by simp) }
  obtain ⟨hw, hc, hs, hle⟩ := h.asleep y hy
  exact ⟨hw, hc, hs, Nat.le_trans hle hn⟩

theorem strike (h : Sound came barred (some r) queue now callers a) (strikes : UInt64) :
    Sound came barred (some { r with strikes }) queue now callers a := by
  refine { h with running := fun r' hr => ?_ }
  obtain rfl := Option.some.inj hr
  exact h.running r rfl

theorem come (h : Sound came barred none queue now callers a) (hr : r.caller = callers)
    (hw : r.hasWaited = false) (hs : r.startedAt = now) (hc : came callers now) :
    Sound came barred (some r) queue now (callers + 1) a := by
  have hnew : callers ∉ everyone none queue a := fun hm => Nat.lt_irrefl _ (h.roll.known _ hm)
  have hnone : callers ∉ a.sleeps := fun hm => hnew (h.roll.slept _ hm)
  have hzero : a.sleptFor callers = 0 := by
    have hf : (a.cycles.filter fun w => w.caller == callers) = [] := by
      rw [List.filter_eq_nil_iff]
      intro w hm he
      rw [beq_iff_eq] at he
      refine hnone (h.matched.mem_iff.mpr (List.mem_append_left _ ?_))
      exact List.mem_map.mpr ⟨w, hm, he⟩
    rw [sleptFor, hf]
    rfl
  refine { h with roll := ⟨?_, ?_, ?_⟩, running := ?_ }
  · show (r.caller :: everyone none queue a).Nodup
    rw [hr]
    exact List.nodup_cons.mpr ⟨hnew, h.roll.nodup⟩
  · show ∀ c ∈ r.caller :: everyone none queue a, c < callers + 1
    rw [hr]
    exact List.forall_mem_cons.mpr
      ⟨Nat.lt_succ_self _, fun c hm => Nat.lt_succ_of_lt (h.roll.known c hm)⟩
  · exact fun c hm => List.mem_cons_of_mem _ (h.roll.slept c hm)
  · intro r' hr'
    obtain rfl := Option.some.inj hr'
    rw [hr, hs, hzero, hw]
    exact ⟨hc, rfl, iff_of_false Bool.false_ne_true hnone⟩

theorem wake (h : Sound came barred none (x :: queue) now callers a) :
    Sound came barred (some x.request) queue now callers
      (a.wake x.request.caller (now - x.since)) := by
  obtain ⟨hw, hc, hs, hle⟩ := h.asleep x List.mem_cons_self
  have hn : x.request.caller ∉
      (queue.map fun y => y.request.caller) ++ a.settlements.map Settlement.caller :=
    (List.nodup_cons.mp h.roll.nodup).1
  have hother (c : Nat) (hm : c ∈ (queue.map fun y => y.request.caller) ++
      a.settlements.map Settlement.caller) :
      (a.wake x.request.caller (now - x.since)).sleptFor c = a.sleptFor c := by
    rw [sleptFor_wake, if_neg, Nat.zero_add]
    rintro rfl
    exact hn hm
  constructor
  case roll => exact h.roll
  case waits => exact h.waits
  case waitTime =>
    show a.waitTime + (now - x.since) = ((now - x.since) :: a.cycles.map Cycle.length).sum
    rw [h.waitTime, List.sum_cons, Nat.add_comm]
  case matched => exact h.matched.trans List.perm_middle
  case asleep =>
    intro y hy
    rw [hother _ (List.mem_append_left _ (List.mem_map_of_mem hy))]
    exact h.asleep y (List.mem_cons_of_mem _ hy)
  case running =>
    intro r hr
    obtain rfl := Option.some.inj hr
    refine ⟨hc, ?_, iff_of_true hw (h.matched.mem_iff.mpr ?_)⟩
    · rw [sleptFor_wake, if_pos rfl]
      omega
    · exact List.mem_append_right _ List.mem_cons_self
  case settled =>
    intro y hy
    rw [hother _ (List.mem_append_right _ (List.mem_map_of_mem hy))]
    exact h.settled y hy
  case refused => exact h.refused

theorem settle (h : Sound came barred (some r) queue now callers a)
    {result : Except PoolError Entry} {waits : Nat}
    (hw : waits = (a.blocked ∪ (a.settle ⟨r.caller, now, result⟩).interrupted).card)
    (hb : ∀ c ∈ (a.settle ⟨r.caller, now, result⟩).turnedAway, barred c) :
    Sound came barred none queue now callers
      { a.settle ⟨r.caller, now, result⟩ with waits } where
  roll := h.roll.perm (everyone_settle ⟨r.caller, now, result⟩ queue a).symm
  waits := hw
  waitTime := h.waitTime
  matched := h.matched
  asleep := h.asleep
  running r hr := absurd hr (by simp)
  settled y hy := by
    rcases List.mem_cons.mp hy with rfl | hy
    · obtain ⟨hc, hn, -⟩ := h.running r rfl
      exact ⟨r.startedAt, hc, hn⟩
    · exact h.settled y hy
  refused := hb

theorem finish (h : Sound came barred (some r) queue now callers a)
    {result : Except PoolError Entry}
    (hr : result = .error .interrupted → r.caller ∈ a.sleeps) :
    Sound came barred none queue now callers (a.settle ⟨r.caller, now, result⟩) := by
  by_cases hi : result = .error .interrupted
  · subst hi
    have hslept : r.caller ∈ a.blocked := List.mem_toFinset.mpr (hr rfl)
    refine h.settle ?_ fun c hc => h.refused c ?_
    · rw [interrupted_settle, Finset.union_insert, Finset.insert_eq_of_mem]
      · exact h.waits
      · exact Finset.mem_union_left _ hslept
    · rw [turnedAway, interrupted_settle] at hc
      obtain ⟨hc, hn⟩ := Finset.mem_sdiff.mp hc
      rcases Finset.mem_insert.mp hc with rfl | hc
      · exact absurd hslept hn
      · exact Finset.mem_sdiff.mpr ⟨hc, hn⟩
  · have hsame := interrupted_settle_of_ne r.caller now a hi
    refine h.settle ?_ fun c hc => h.refused c ?_
    · rw [hsame]
      exact h.waits
    · rw [turnedAway, hsame] at hc
      exact hc

theorem card_countWait (h : Sound came barred (some r) queue now callers a) :
    (a.countWait r).waits = (insert r.caller (a.blocked ∪ a.interrupted)).card := by
  have hiff := (h.running r rfl).2.2
  unfold countWait
  cases hw : r.hasWaited with
  | true =>
    rw [if_pos rfl, Finset.insert_eq_of_mem, h.waits]
    exact Finset.mem_union_left _ (List.mem_toFinset.mpr (hiff.mp hw))
  | false =>
    rw [if_neg Bool.false_ne_true, Finset.card_insert_of_notMem]
    · exact congrArg Nat.succ h.waits
    · intro hm
      rcases Finset.mem_union.mp hm with hm | hm
      · rw [hiff.mpr (List.mem_toFinset.mp hm)] at hw
        exact Bool.noConfusion hw
      · have hnew : r.caller ∉ (queue.map fun y => y.request.caller) ++
            a.settlements.map Settlement.caller := (List.nodup_cons.mp h.roll.nodup).1
        exact hnew (List.mem_append_right _ (mem_of_interrupted hm))

theorem interrupt (h : Sound came barred (some r) queue now callers a)
    (hb : r.caller ∉ a.sleeps → barred r.caller) :
    Sound came barred none queue now callers
      ((a.countWait r).settle ⟨r.caller, now, .error .interrupted⟩) := by
  rw [countWait_eq]
  refine h.settle ?_ fun c hc => ?_
  · rw [h.card_countWait, interrupted_settle, Finset.union_insert]
  · rw [turnedAway, interrupted_settle] at hc
    obtain ⟨hc, hn⟩ := Finset.mem_sdiff.mp hc
    rcases Finset.mem_insert.mp hc with rfl | hc
    · exact hb fun hm => hn (List.mem_toFinset.mpr hm)
    · exact h.refused c (Finset.mem_sdiff.mpr ⟨hc, hn⟩)

theorem sleep (h : Sound came barred (some r) queue now callers a) (wait : Nat) :
    Sound came barred none (queue ++ [Sleeper.start { r with hasWaited := true } now wait]) now
      callers ((a.countWait r).sleep r.caller) := by
  obtain ⟨hc, hn, -⟩ := h.running r rfl
  rw [countWait_eq]
  constructor
  case roll =>
    have hp : (everyone (some r) queue a).Perm (everyone none
        (queue ++ [Sleeper.start { r with hasWaited := true } now wait]) a) := by
      simp only [everyone, Option.toList_some, Option.toList_none, List.map_cons, List.map_nil,
        List.map_append, List.append_assoc, List.nil_append, List.singleton_append]
      exact List.perm_middle.symm
    have hr := h.roll.perm hp
    refine ⟨hr.nodup, hr.known, List.forall_mem_cons.mpr ⟨?_, hr.slept⟩⟩
    exact hp.mem_iff.mp List.mem_cons_self
  case waits =>
    have hb : (insert r.caller a.blocked) = (a.sleep r.caller).blocked := by
      rw [blocked, blocked, Account.sleep, List.toFinset_cons]
    show (a.countWait r).waits = ((a.sleep r.caller).blocked ∪ a.interrupted).card
    rw [h.card_countWait, ← hb, Finset.insert_union]
  case waitTime => exact h.waitTime
  case matched =>
    show (r.caller :: a.sleeps).Perm _
    rw [List.map_append, ← List.append_assoc]
    exact (h.matched.cons r.caller).trans (List.perm_append_singleton _ _).symm
  case asleep =>
    intro y hy
    rcases List.mem_append.mp hy with hy | hy
    · exact h.asleep y hy
    · rw [List.mem_singleton.mp hy]
      exact ⟨rfl, hc, hn, Nat.le_refl _⟩
  case running => exact fun r hr => absurd hr (by simp)
  case settled => exact h.settled
  case refused =>
    intro c hm
    obtain ⟨hi, hn⟩ := Finset.mem_sdiff.mp hm
    refine h.refused c (Finset.mem_sdiff.mpr ⟨hi, fun hb => hn ?_⟩)
    exact List.mem_toFinset.mpr (List.mem_cons_of_mem _ (List.mem_toFinset.mp hb))

theorem waitTime_eq (h : Sound came barred none queue now callers a) :
    a.waitTime = (a.settlements.map fun y => a.sleptFor y.caller).sum +
      (queue.map fun x => a.sleptFor x.request.caller).sum := by
  have hknown : ∀ w ∈ a.cycles, w.caller ∈ everyone none queue a := fun w hw =>
    h.roll.slept _ (h.matched.mem_iff.mpr (List.mem_append_left _ (List.mem_map_of_mem hw)))
  rw [h.waitTime, ← a.sum_sleptFor (everyone none queue a) h.roll.nodup hknown]
  simp only [everyone, Option.toList_none, List.map_nil, List.nil_append, List.map_append,
    List.sum_append, List.map_map]
  exact Nat.add_comm _ _

end Sound

end Account

theorem Books.Turn.account {now caller : Nat} {m m' : Option Entry × Books}
    (h : Turn now caller m m') : m'.2.account = m.2.account := by
  cases h with
  | pick b e rest hi | connect b hi hr | refuse b | claim b oldest rest hi hf ha hv
  | drop b oldest rest hi hf ha hv | reject b e => rfl

namespace Pool

variable {σ : Type} [Driver σ]

theorem account_turns {now caller : Nat} {m m' : Option Entry × Pool σ}
    (h : Turns now caller m m') : m'.2.books.account = m.2.books.account := by
  induction h with
  | refl => rfl
  | tail _ ht ih => exact (turn_books ht).account.trans ih

theorem account_seek (now : Nat) (r : Request) (p : Pool σ) :
    (p.seek now r).2.books.account = p.books.account := by
  have he := seek_ends now r p
  generalize p.seek now r = found at he ⊢
  obtain ⟨outcome, q⟩ := found
  cases outcome with
  | granted lent =>
    obtain ⟨e, p₁, p₂, ht, hx, hg⟩ := he
    obtain ⟨-, rfl⟩ := Prod.mk.inj hg
    have hp := examine_books now r.caller e true p₁ p₂ hx
    calc
      (p₂.grant now r e).2.books.account = p₂.books.account := by
        rw [books_grant]
        rfl
      _ = p₁.books.account := by
        rw [hp]
        rfl
      _ = p.books.account := account_turns ht
  | failed error => exact account_turns he.1
  | saturated r' => exact account_turns he.1

theorem account_takeBack (now : Nat) (e : Entry) (p : Pool σ) :
    (p.takeBack now e).2.books.account = p.books.account :=
  p.takeBack_cases now e (motive := fun _ b => b.account = p.books.account)
    (fun _ => rfl) (fun _ _ => rfl) (fun _ _ => rfl)

theorem account_reset (p : Pool σ) : p.reset.books.account = p.books.account := by
  have hview {α : Type} (see : Event → Option α) (hd : ∀ e lent, see (.drained e lent) = none) :
      p.reset.books.view see = p.books.view see := view_reset hd p
  have ht : p.reset.books.tally = p.books.tally := (reset_rest p).2.2
  unfold Books.account Books.settlements
  rw [ht]
  rw [show p.reset.books.record.decisions.filterMap Event.settlement? = _ from
    hview Event.settlement? fun _ _ => rfl, hview Event.asleep? fun _ _ => rfl,
    hview Event.cycle? fun _ _ => rfl]
  rfl

end Pool

namespace Service

variable {σ : Type} {s s' : Service σ}

def account (s : Service σ) : Account := s.pool.books.account

theorem account_awake (x : Sleeper) (s : Service σ) :
    (s.awake x).account = s.account.wake x.request.caller (s.now - x.since) := rfl

theorem account_settle (r : Request) (result : Except PoolError Entry) (s : Service σ) :
    (s.settle r result).account = s.account.settle ⟨r.caller, s.now, result⟩ := by
  cases result <;> rfl

theorem account_countWait (r : Request) (s : Service σ) :
    (s.countWait r).account = s.account.countWait r := by
  unfold countWait Account.countWait
  split <;> rfl

theorem account_sleep (r : Request) (s : Service σ) :
    (s.sleep r).account = s.account.sleep r.caller := rfl

theorem callers_settle (r : Request) (result : Except PoolError Entry) (s : Service σ) :
    (s.settle r result).callers = s.callers := by
  cases result <;> rfl

theorem callers_countWait (r : Request) (s : Service σ) :
    (s.countWait r).callers = s.callers := by
  unfold countWait
  split <;> rfl

theorem append_takeFirst (s : Service σ) :
    s.takeFirst.1 ++ s.takeFirst.2.waiting = s.waiting := by
  unfold takeFirst
  split
  · rfl
  · rename_i x rest hw
    exact hw.symm

def Reckoned (came : Nat → Nat → Prop) (barred : Nat → Prop) (woken : List Sleeper)
    (s : Service σ) : Prop :=
  s.account.Sound came barred none (woken ++ s.waiting) s.now s.callers

namespace Reckoned

variable {came : Nat → Nat → Prop} {barred : Nat → Prop} {woken : List Sleeper}

theorem congr (h : Reckoned came barred woken s) (ha : s'.account = s.account)
    (hw : s'.waiting = s.waiting) (hn : s'.now = s.now) (hc : s'.callers = s.callers) :
    Reckoned came barred woken s' := by
  unfold Reckoned
  rw [ha, hw, hn, hc]
  exact h

theorem mono {came' : Nat → Nat → Prop} {barred' : Nat → Prop}
    (h : Reckoned came barred woken s)
    (hc : ∀ caller instant, came caller instant → came' caller instant)
    (hb : ∀ caller, barred caller → barred' caller) : Reckoned came' barred' woken s :=
  Account.Sound.mono h hc hb

theorem takeFirst (h : Reckoned came barred [] s) :
    Reckoned came barred s.takeFirst.1 s.takeFirst.2 := by
  unfold Reckoned
  rw [append_takeFirst, takeFirst_rest]
  exact h

theorem finish {r : Request} {result : Except PoolError Entry}
    (h : s.account.Sound came barred (some r) (woken ++ s.waiting) s.now s.callers)
    (hr : result = .error .interrupted → r.caller ∈ s.account.sleeps) :
    Reckoned came barred woken (s.settle r result) := by
  have hs := h.finish hr
  unfold Reckoned
  rw [account_settle, waiting_settle, now_settle, callers_settle]
  exact hs

theorem block {r : Request}
    (h : s.account.Sound came barred (some r) (woken ++ s.waiting) s.now s.callers)
    (hb : s.isCancelled r.token = true → r.caller ∉ s.account.sleeps → barred r.caller) :
    Reckoned came barred woken (s.block r) := by
  rw [block_eq]
  split
  · rename_i hc
    have hs := h.interrupt (hb hc)
    unfold Reckoned
    rw [account_settle, waiting_settle, now_settle, callers_settle, account_countWait,
      waiting_countWait, now_countWait, callers_countWait]
    exact hs
  · have hs := h.sleep (s.countWait r).pool.config.timeToWait
    unfold Reckoned
    rw [account_sleep, account_countWait]
    show Account.Sound came barred none (woken ++ ((s.countWait r).waiting ++
      [Sleeper.start _ (s.countWait r).now _])) (s.countWait r).now (s.countWait r).callers _
    rw [waiting_countWait, now_countWait, callers_countWait, ← List.append_assoc]
    exact hs

variable [Driver σ]

theorem pursue {r : Request}
    (h : s.account.Sound came barred (some r) (woken ++ s.waiting) s.now s.callers)
    (hb : s.isCancelled r.token = true → r.caller ∉ s.account.sleeps → barred r.caller) :
    Reckoned came barred woken (s.pursue r) := by
  have he := Pool.seek_ends s.now r s.pool
  have ha := Pool.account_seek s.now r s.pool
  unfold Service.pursue
  generalize s.pool.seek s.now r = found at he ha
  obtain ⟨outcome, q⟩ := found
  have hq : { s with pool := q }.account = s.account := ha
  have hs : { s with pool := q }.account.Sound came barred (some r) (woken ++ s.waiting) s.now
      s.callers := hq ▸ h
  cases outcome with
  | granted e => exact finish (s := { s with pool := q }) hs (by simp)
  | failed error =>
    exact finish (s := { s with pool := q }) hs fun hi => absurd (Except.error.inj hi) he.2
  | saturated r' =>
    obtain ⟨-, -, -, strikes, rfl⟩ := he
    refine block (s := { s with pool := q }) (hs.strike strikes) fun hc hn => hb hc ?_
    rwa [hq] at hn

theorem resume {x : Sleeper} (h : Reckoned came barred (x :: woken) s) :
    Reckoned came barred (woken ++ (s.resume x).1) (s.resume x).2 := by
  have ha : (s.awake x).account.Sound came barred (some x.request) (woken ++ s.waiting) s.now
      s.callers := by
    rw [account_awake]
    exact Account.Sound.wake h
  have hslept : x.request.caller ∈ (s.awake x).account.sleeps := by
    have hm := Account.Sound.matched h
    exact hm.mem_iff.mpr (List.mem_append_right _ List.mem_cons_self)
  rw [resume_eq]
  split
  · have hqueue : (s.awake x).takeFirst.1 ++ (s.awake x).takeFirst.2.waiting = s.waiting :=
      append_takeFirst _
    have ht : (s.awake x).takeFirst.2.account.Sound came barred (some x.request)
        ((woken ++ (s.awake x).takeFirst.1) ++ (s.awake x).takeFirst.2.waiting)
        (s.awake x).takeFirst.2.now (s.awake x).takeFirst.2.callers := by
      rw [List.append_assoc, hqueue, takeFirst_rest]
      exact ha
    refine finish ht fun _ => ?_
    rw [takeFirst_rest]
    exact hslept
  · rw [List.append_nil]
    exact pursue ha fun _ hn => absurd hslept hn

theorem rouse (h : Reckoned came barred woken s) : Reckoned came barred [] (s.rouse woken) := by
  fun_induction Service.rouse woken s with
  | case1 s => exact h
  | case2 s x rest ih => exact ih h.resume

theorem elapse (target : Nat) (hn : s.now ≤ target) (h : Reckoned came barred [] s) :
    Reckoned came barred [] (s.elapse target) := by
  fun_induction Service.elapse target s with
  | case1 s he | case3 s x others he hd => exact Account.Sound.pass h hn
  | case2 s x others he hd ih =>
    have hp := Sleeper.earliest_perm s.waiting x others he
    have ho : Reckoned came barred [x] { s with waiting := others, now := max s.now x.deadline } :=
      Account.Sound.pass (Account.Sound.perm h hp) (Nat.le_max_left _ _)
    refine ih (by rw [now_timeOut]; exact Nat.max_le.mpr ⟨hn, hd⟩) ?_
    rw [timeOut_eq]
    exact ho.rouse

theorem release (h : Reckoned came barred [] s) (i : Nat) :
    Reckoned came barred [] (s.release i) := by
  rcases release_cases s i with hs | ⟨handle, hh, -, hs⟩
  · rw [hs]
    exact h
  · have ht : Reckoned came barred [] (s.takeBack i handle) :=
      h.congr (Pool.account_takeBack s.now handle.entry s.pool) rfl rfl rfl
    rw [hs]
    split
    · exact ht.takeFirst.rouse
    · exact ht

theorem forward (h : Reckoned came barred [] s) (i : Nat) (c : Call) :
    Reckoned came barred [] (s.forward i c).2 := by
  obtain ⟨hs, hb⟩ := forward_cases s i c
  have ha : (s.forward i c).2.account = s.account := by
    rcases hb with hb | ⟨handle, error, -, -, -, -, hb⟩
    · exact congrArg Books.account hb
    · exact (congrArg Books.account hb).trans rfl
  exact h.congr ha (by rw [hs]) (by rw [hs]) (by rw [hs])

theorem command {op : Op σ} (h : Reckoned came barred [] s) (hc : Command op s s') :
    Reckoned came barred [] s' := by
  cases hc with
  | meddle _ f | issueToken _ hl => exact h
  | reset _ hl | shutDown _ hl hw => exact h.congr (Pool.account_reset s.pool) rfl rfl rfl
  | reconfigure _ update hl =>
    refine h.congr ?_ rfl rfl rfl
    exact s.pool.reconfigure_cases update
      (motive := fun q => q.books.account = s.pool.books.account) rfl
      (Pool.account_reset { s.pool with config := update s.pool.config })

theorem step (h : Reckoned came barred [] s) (op : Op σ)
    (hc : ∀ form, op = .acquire form → s.isLive = true → came s.callers s.now)
    (hb : ∀ form, op = .acquire form → s.isLive = true → s.isCancelled form.token? = true →
      barred s.callers) : Reckoned came barred [] (step op s) := by
  by_cases ho : op.isCommand = true
  · rcases step_command s op ho with hs | hs
    · rw [hs]
      exact h
    · exact h.command hs
  · cases op with
    | acquire form =>
      simp only [Service.step]
      split
      · rename_i hl
        have hcome := Account.Sound.come (r := s.newcomer form) h rfl rfl rfl (hc form rfl hl)
        exact pursue (s := { s with callers := s.callers + 1 }) hcome
          fun hcancelled _ => hb form rfl hl hcancelled
      · exact h
    | call i c =>
      by_cases hclose : c = .close
      · subst hclose
        exact h.release i
      · show Reckoned came barred [] (s.call i c).2
        rw [call_eq_forward s i c hclose]
        exact h.forward i c
    | release i => exact h.release i
    | advance span => exact h.elapse _ (Nat.le_add_right _ _)
    | cancel token =>
      have hw : Reckoned came barred s.waiting
          { s with tokens := s.tokens.set token true, waiting := [] } := by
        unfold Reckoned
        rw [List.append_nil]
        exact h
      exact hw.rouse
    | issueToken | reset | reconfigure update | shutDown | meddle f => exact absurd rfl ho

end Reckoned

variable [Driver σ]

/-- In the course of the operations the caller came, in a form and to a service of this kind. -/
def CameTo (kind : Form → Service σ → Prop) (ops : List (Op σ)) (s : Service σ) (caller : Nat) :
    Prop :=
  ∃ before form after, ops = before ++ .acquire form :: after ∧ (run before s).isLive = true ∧
    (run before s).callers = caller ∧ kind form (run before s)

theorem cameTo_append {kind : Form → Service σ → Prop} {ops : List (Op σ)} {caller : Nat}
    (h : CameTo kind ops s caller) (rest : List (Op σ)) : CameTo kind (ops ++ rest) s caller := by
  obtain ⟨before, form, after, rfl, h⟩ := h
  exact ⟨before, form, after ++ rest, by simp, h⟩

theorem cameTo_last {kind : Form → Service σ → Prop} {ops : List (Op σ)} {form : Form}
    (hl : (run ops s).isLive = true) (hk : kind form (run ops s)) :
    CameTo kind (ops ++ [.acquire form]) s (run ops s).callers :=
  ⟨ops, form, [], rfl, hl, rfl, hk⟩

def Arrived (ops : List (Op σ)) (s : Service σ) (caller instant : Nat) : Prop :=
  CameTo (fun _ t => t.now = instant) ops s caller

def Barred (ops : List (Op σ)) (s : Service σ) (caller : Nat) : Prop :=
  CameTo (fun form t => t.isCancelled form.token? = true) ops s caller

theorem reckoned_run (ops : List (Op σ)) (s : Service σ)
    (h : Reckoned (fun _ _ => False) (fun _ => False) [] s) :
    Reckoned (Arrived ops s) (Barred ops s) [] (run ops s) := by
  -- from the end: the last operation is the one in which somebody may come
  induction ops using List.reverseRecOn with
  | nil => exact h.mono (fun _ _ => False.elim) fun _ => False.elim
  | append_singleton ops op ih =>
    rw [run_append]
    have hmono : Reckoned (Arrived (ops ++ [op]) s) (Barred (ops ++ [op]) s) [] (run ops s) :=
      ih.mono (fun _ _ ha => cameTo_append ha [op]) fun _ hb => cameTo_append hb [op]
    refine hmono.step op (fun form ho hl => ?_) fun form ho hl hc => ?_
    · subst ho
      exact cameTo_last hl rfl
    · subst ho
      exact cameTo_last hl hc

/-- The time spent waiting, acquisition by acquisition: nothing but sleep lies between its arrival
and its end, or its present sleep. -/
structure Timed (came : Nat → Nat → Prop) (s : Service σ) : Prop where
  apart : (s.settlements.map Settlement.caller ++ s.waiting.map fun x => x.request.caller).Nodup
  known : ∀ c ∈ s.account.blocked,
    c ∈ s.settlements.map Settlement.caller ++ s.waiting.map fun x => x.request.caller
  matched : s.account.sleeps.Perm
    (s.account.cycles.map Cycle.caller ++ s.waiting.map fun x => x.request.caller)
  total : s.pool.tally.waitTime = (s.settlements.map fun y => s.account.sleptFor y.caller).sum +
    (s.waiting.map fun x => s.account.sleptFor x.request.caller).sum
  ended : ∀ y ∈ s.settlements, ∃ arrival, came y.caller arrival ∧
    y.instant = arrival + s.account.sleptFor y.caller
  sleeping : ∀ x ∈ s.waiting, came x.request.caller x.request.startedAt ∧
    x.since = x.request.startedAt + s.account.sleptFor x.request.caller ∧ x.since ≤ s.now

omit [Driver σ] in
theorem Reckoned.timed {came : Nat → Nat → Prop} {barred : Nat → Prop}
    (h : Reckoned came barred [] s) : Timed came s where
  apart := by
    rw [settlements_books]
    exact List.nodup_append_comm.mp (Account.Sound.roll h).nodup
  known c hc := by
    rw [settlements_books]
    have hm := (Account.Sound.roll h).slept c (List.mem_toFinset.mp hc)
    exact List.perm_append_comm.mem_iff.mp hm
  matched := Account.Sound.matched h
  total := by
    rw [settlements_books]
    exact Account.Sound.waitTime_eq h
  ended := by
    rw [settlements_books]
    exact Account.Sound.settled h
  sleeping x hx := (Account.Sound.asleep h x hx).2

/-- After every run of every pool, as many acquisitions are counted as having waited as slept or
were turned away with a token that had been cancelled when they came, each once; and the time added
up is that of all sleeps that have ended. If nobody came with a cancelled token, the mean is over
those who slept. -/
theorem waits_run (driver : σ) (config : Config) (pool : Pool σ)
    (h : Pool.create driver config = .ok pool) (ops : List (Op σ)) :
    let s := run ops (start pool)
    s.pool.tally.waits = s.account.blocked.card + s.account.turnedAway.card ∧
      (∀ caller ∈ s.account.turnedAway, Barred ops (start pool) caller) ∧
      s.pool.tally.waitTime = (s.account.cycles.map Cycle.length).sum ∧
      Timed (Arrived ops (start pool)) s ∧
      ((∀ caller, ¬ Barred ops (start pool) caller) →
        s.pool.tally.waits = s.account.blocked.card ∧
          s.pool.tally.meanWait =
            mean (s.account.cycles.map Cycle.length).sum s.account.blocked.card) := by
  intro s
  have hempty : Reckoned (fun _ _ => False) (fun _ => False) [] (start pool) := by
    rw [Pool.of_create driver config pool h]
    exact .empty
  have hs : Reckoned _ _ [] s := reckoned_run ops (start pool) hempty
  have hwaits : s.pool.tally.waits = s.account.blocked.card + s.account.turnedAway.card := by
    have hw := Account.Sound.waits hs
    rw [Finset.union_comm, ← Finset.card_sdiff_add_card, Nat.add_comm] at hw
    exact hw
  have htime : s.pool.tally.waitTime = (s.account.cycles.map Cycle.length).sum :=
    Account.Sound.waitTime hs
  have hbarred := Account.Sound.refused hs
  refine ⟨hwaits, hbarred, htime, hs.timed, fun hn => ?_⟩
  have hnone : s.account.turnedAway = ∅ :=
    Finset.eq_empty_of_forall_notMem fun c hc => hn c (hbarred c hc)
  rw [hnone, Finset.card_empty, Nat.add_zero] at hwaits
  exact ⟨hwaits, by rw [Tally.meanWait, hwaits, htime]⟩

/-- One caller sleeps, with a token; another comes with this token after it has been cancelled. -/
def sleepThenCancelledToken : List (Op Scripted) :=
  [.acquire .plain, .issueToken, .acquire (.interruptible 0), .advance 7, .cancel 0,
    .acquire (.interruptible 0)]

theorem run_sleepThenCancelledToken :
    run sleepThenCancelledToken (start (Pool.unused ({} : Scripted) Config.single)) =
      run [.cancel 0, .acquire (.interruptible 0)]
        { run [.acquire .plain, .issueToken, .acquire (.interruptible 0)]
            (start (Pool.unused ({} : Scripted) Config.single)) with now := 7 } :=
  run_advance_undue [.acquire .plain, .issueToken, .acquire (.interruptible 0)]
    [.cancel 0, .acquire (.interruptible 0)] _ 7 7 (by decide +kernel) (by decide +kernel)

theorem waits_sleepThenCancelledToken :
    let s := run sleepThenCancelledToken (start (Pool.unused ({} : Scripted) Config.single))
    Pool.create ({} : Scripted) Config.single = .ok (Pool.unused {} Config.single) ∧
      s.pool.tally.waits = 2 ∧ s.pool.tally.waitTime = 7 ∧
      s.account.blocked.card + s.account.turnedAway.card = 2 ∧
      (s.account.cycles.map Cycle.length).sum = 7 ∧
      ∀ caller ∈ s.account.turnedAway,
        Barred sleepThenCancelledToken (start (Pool.unused ({} : Scripted) Config.single))
          caller := by
  intro s
  obtain ⟨hwaits, hbarred, htime, -, -⟩ :=
    waits_run ({} : Scripted) Config.single (Pool.unused {} Config.single) rfl
      sleepThenCancelledToken
  have htwo : s.pool.tally.waits = 2 ∧ s.pool.tally.waitTime = 7 := by
    unfold s
    rw [run_sleepThenCancelledToken]
    decide +kernel
  exact ⟨rfl, htwo.1, htwo.2, hwaits.symm.trans htwo.1, htime.symm.trans htwo.2, hbarred⟩

def cancelledTokenAtFullPool : List (Op Scripted) :=
  [.acquire .plain, .issueToken, .cancel 0, .acquire (.interruptible 0)]

/-- Somebody is counted as having waited, and nobody has slept. -/
theorem waits_cancelledTokenAtFullPool :
    let s := run cancelledTokenAtFullPool (start (Pool.unused ({} : Scripted) Config.single))
    Pool.create ({} : Scripted) Config.single = .ok (Pool.unused {} Config.single) ∧
      s.pool.tally.waits = 1 ∧ s.account.blocked.card = 0 ∧
      s.pool.tally.waits ≠ s.account.blocked.card := by
  refine ⟨rfl, ?_⟩
  decide +kernel

end Service

end ConnectionPool
