import ConnectionPool.Driver.Scripted
import ConnectionPool.Proofs.Upkeep

/-!
# Capacity

A pool holds no more connections than may be active, idle ones and a candidate under examination
included, and no more idle ones than may be idle. No operation checks the sum. It is kept because a
connection is opened only if none is idle, because a claim replaces one lease by another and a
return at most moves a connection, and because a new configuration starts from an empty pool.
-/

set_option autoImplicit false

namespace ConnectionPool

def Config.single : Config := { Config.trial with maxActive := 1 }

structure Examination where
  caller : Nat
  entry : Entry
  sound : Bool
  others : Nat
  limit : Nat

def Event.examination? : Event → Option Examination
  | examined caller entry sound others limit => some ⟨caller, entry, sound, others, limit⟩
  | connect _ _ | call _ _ _ | claimed _ _ _ | granted _ _ | returned _ _ _ | shelved _ => none
  | drained _ _ | slept _ | woke _ _ | settled _ _ _ => none

namespace Books

def examinations (b : Books) : List Examination :=
  b.record.decisions.filterMap Event.examination?

theorem examinations_drainAll (lent : Bool) (entries : List Entry) (b : Books) :
    (entries.foldr (drain lent) b).examinations = b.examinations := by
  induction entries with
  | nil => rfl
  | cons e rest ih => exact ih

def count (hand : Option Entry) (b : Books) : Nat :=
  hand.toList.length + (b.idle.length + b.active.length)

/-- The books of a pool that has room for all that it holds, the entry in hand included. -/
structure Fit (hand : Option Entry) (b : Books) : Prop where
  idle_le : b.idle.length ≤ b.config.maxIdle.toNat
  count_le : b.count hand ≤ b.config.maxActive.toNat
  examined_lt : ∀ x ∈ b.examinations, x.others < x.limit

namespace Fit

variable {hand : Option Entry} {b b' : Books}

theorem shrink {hand' : Option Entry} (f : Fit hand b) (hc : b'.config = b.config)
    (hi : b'.idle.length ≤ b.idle.length) (hn : b'.count hand' ≤ b.count hand)
    (hs : b'.examinations = b.examinations) : Fit hand' b' where
  idle_le := hc ▸ Nat.le_trans hi f.idle_le
  count_le := hc ▸ Nat.le_trans hn f.count_le
  examined_lt := hs ▸ f.examined_lt

theorem congr (f : Fit hand b) (hc : b'.config = b.config) (hi : b'.idle = b.idle)
    (ha : b'.active = b.active) (hs : b'.examinations = b.examinations) : Fit hand b' := by
  have hn : b'.count hand = b.count hand := by rw [count, count, hi, ha]
  exact f.shrink hc (Nat.le_of_eq (congrArg _ hi)) (Nat.le_of_eq hn) hs

theorem examine {caller : Nat} {e : Entry} {sound : Bool} (f : Fit (some e) b) :
    Fit (some e) (b.note (.examined caller e sound (b.idle.length + b.active.length)
      b.config.maxActive.toNat)) := by
  refine ⟨f.idle_le, f.count_le, ?_⟩
  intro x hx
  rcases List.mem_cons.mp hx with rfl | hx
  · have hn := f.count_le
    rw [count, Nat.add_comm] at hn
    exact hn
  · exact f.examined_lt x hx

theorem of_empty (hi : b.idle = []) (ha : b.active = [])
    (hs : ∀ x ∈ b.examinations, x.others < x.limit) : Fit none b where
  idle_le := by rw [hi]; exact Nat.zero_le _
  count_le := by rw [count, hi, ha]; exact Nat.zero_le _
  examined_lt := hs

end Fit

theorem Turn.fit {now caller : Nat} {m m' : Option Entry × Books} (h : Turn now caller m m')
    (f : m.2.Fit m.1) : m'.2.Fit m'.1 := by
  cases h with
  | pick b e rest hi =>
    have hl : b.idle.length = rest.length + 1 := by rw [hi]; rfl
    refine f.shrink rfl ?_ ?_ rfl
    · show rest.length ≤ b.idle.length
      omega
    · show 1 + (rest.length + b.active.length) ≤ 0 + (b.idle.length + b.active.length)
      omega
  | connect b hi hr =>
    have hn : b.idle.length = 0 := congrArg List.length hi
    refine ⟨f.idle_le, ?_, f.examined_lt⟩
    show 1 + (b.idle.length + b.active.length) ≤ b.config.maxActive.toNat
    omega
  | refuse b => exact f
  | claim b oldest rest hi hf ha hv =>
    have hl : b.active.length = rest.length + 1 := by rw [ha]; rfl
    refine f.shrink rfl (Nat.le_refl _) ?_ rfl
    show 1 + (b.idle.length + rest.length) ≤ 0 + (b.idle.length + b.active.length)
    omega
  | drop b oldest rest hi hf ha hv =>
    have hl : b.active.length = rest.length + 1 := by rw [ha]; rfl
    refine f.shrink rfl (Nat.le_refl _) ?_ rfl
    show 0 + (b.idle.length + rest.length) ≤ 0 + (b.idle.length + b.active.length)
    omega
  | reject b e =>
    refine f.examine.shrink rfl (Nat.le_refl _) ?_ rfl
    exact Nat.add_le_add_right (Nat.zero_le 1) _

end Books

namespace Pool

variable {σ : Type}

def examinations (p : Pool σ) : List Examination :=
  p.backend.journal.filterMap Event.examination?

theorem examinations_books (p : Pool σ) : p.examinations = p.books.examinations := by
  refine Backend.filterMap_journal Event.examination? ?_ p.backend
  intro event h
  cases event <;> first | rfl | exact absurd h (by simp [Event.isTraffic])

/-- The pool respects the limits in force, and so did it whenever a candidate was examined. -/
structure WithinLimits (p : Pool σ) : Prop where
  active_le : p.active.length ≤ p.config.maxActive.toNat
  idle_le : p.idle.length ≤ p.config.maxIdle.toNat
  sum_le : p.idle.length + p.active.length ≤ p.config.maxActive.toNat
  examined_le : ∀ x ∈ p.examinations, x.others + 1 ≤ x.limit

theorem withinLimits_of_fit (p : Pool σ) (f : p.books.Fit none) : p.WithinLimits := by
  have hn : 0 + (p.idle.length + p.active.length) ≤ p.config.maxActive.toNat := f.count_le
  refine ⟨by omega, f.idle_le, by omega, ?_⟩
  rw [examinations_books]
  exact f.examined_lt

variable [Driver σ] {p : Pool σ} {handles : List Handle}

theorem fit_grant {now : Nat} {r : Request} {e : Entry} {sound : Bool} {q : Pool σ}
    (h : p.examine now r.caller e = (sound, q)) (f : p.books.Fit (some e)) :
    (q.grant now r e).2.books.Fit none := by
  have hx : q.books.Fit (some e) := by
    rw [examine_books now r.caller e sound p q h]
    exact f.examine
  rw [books_grant]
  refine hx.shrink rfl (Nat.le_refl _) ?_ rfl
  have hl : (q.active ++ [(q.grant now r e).1]).length = q.active.length + 1 :=
    List.length_append
  show 0 + (q.idle.length + (q.active ++ [(q.grant now r e).1]).length) ≤
    1 + (q.idle.length + q.active.length)
  omega

theorem fit_takeBack {now : Nat} {handle : Handle} (l : Ledger none p.books handles)
    (hm : handle ∈ handles) (f : p.books.Fit none) :
    (p.takeBack now handle.entry).2.books.Fit none := by
  have ht : (p.books.takeOut handle.entry).Fit none := by
    refine f.shrink rfl (Nat.le_refl _) ?_ rfl
    exact Nat.add_le_add_left (Nat.add_le_add_left List.length_eraseP_le _) _
  refine p.takeBack_cases now handle.entry (motive := fun _ b => b.Fit none)
    ?retired ?kept ?closed
  case retired => exact fun _ => ht.congr rfl rfl rfl rfl
  case closed => exact fun _ _ => ht.congr rfl rfl rfl rfl
  case kept =>
    intro hv hk
    have ha : handle.entry ∈ p.active := l.running handle hm hv
    have hl : (p.active.eraseP fun a => a.id == handle.entry.id).length + 1 =
        p.active.length := by
      rw [List.length_eraseP_of_mem ha (beq_self_eq_true handle.entry.id)]
      exact Nat.sub_add_cancel (List.length_pos_of_mem ha)
    have hi : (p.idle ++ [handle.entry.successor p.nextEntry]).length = p.idle.length + 1 :=
      List.length_append
    have hn := f.count_le
    refine ⟨?_, ?_, f.examined_lt⟩
    · show (p.idle ++ [handle.entry.successor p.nextEntry]).length ≤ p.config.maxIdle.toNat
      exact hi ▸ hk.1
    · show 0 + ((p.idle ++ [handle.entry.successor p.nextEntry]).length +
        (p.active.eraseP fun a => a.id == handle.entry.id).length) ≤ p.config.maxActive.toNat
      change 0 + (p.idle.length + p.active.length) ≤ p.config.maxActive.toNat at hn
      omega

theorem fit_reset (h : ∀ x ∈ p.books.examinations, x.others < x.limit) :
    p.reset.books.Fit none := by
  obtain ⟨-, hi, ha, -, -⟩ := reset_frame p
  have hs : p.reset.books.examinations = p.books.examinations := by
    rw [books_reset, Books.examinations_drainAll, Books.examinations_drainAll]
    rfl
  exact .of_empty hi ha (hs ▸ h)

theorem fit_reconfigure (update : Config → Config) (f : p.books.Fit none) :
    (p.reconfigure update).2.books.Fit none :=
  p.reconfigure_cases update (motive := fun q => q.books.Fit none) f (fit_reset f.examined_lt)

end Pool

namespace Service

variable {σ : Type} [Driver σ]

theorem fit_move (m m' : Option Entry × Service σ) (h : Move m m')
    (hi : HasLedger m.1 m.2 ∧ m.2.pool.books.Fit m.1) :
    HasLedger m'.1 m'.2 ∧ m'.2.pool.books.Fit m'.1 := by
  obtain ⟨l, f⟩ := hi
  constructor
  · exact ledger_move m m' h l
  · cases h with
    | mark s | come s | pass s | leave s => exact f
    | awake s x | sleep s r hs hc | fail s r error => exact f.congr rfl rfl rfl rfl
    | countWait s r =>
      unfold countWait
      split
      · exact f
      · exact f.congr rfl rfl rfl rfl
    | turn s caller hand hand' q h => exact (Pool.turn_books h).fit f
    | grant s r e q h => exact (Pool.fit_grant h f).congr rfl rfl rfl rfl
    | takeBack s i handle hh hr => exact Pool.fit_takeBack l (List.mem_of_getElem? hh) f

theorem fit_command (op : Op σ) (s s' : Service σ) (h : Command op s s')
    (hi : HasLedger none s ∧ s.pool.books.Fit none) :
    HasLedger none s' ∧ s'.pool.books.Fit none := by
  obtain ⟨l, f⟩ := hi
  constructor
  · exact ledger_command op s s' h l
  · cases h with
    | meddle f' | issueToken s hl => exact f
    | reset s hl | shutDown s hl hw => exact Pool.fit_reset f.examined_lt
    | reconfigure s update hl => exact Pool.fit_reconfigure update f

theorem fit_forward (s : Service σ) (i : Nat) (c : Call)
    (hi : HasLedger none s ∧ s.pool.books.Fit none) :
    HasLedger none (s.forward i c).2 ∧ (s.forward i c).2.pool.books.Fit none := by
  obtain ⟨l, f⟩ := hi
  constructor
  · exact ledger_forward s i c l
  · rcases (forward_cases s i c).2 with hb | ⟨handle, error, -, -, -, -, hb⟩
    · rw [hb]
      exact f
    · rw [hb]
      exact f.congr rfl rfl rfl rfl

theorem fit_run (driver : σ) (config : Config) (pool : Pool σ)
    (h : Pool.create driver config = .ok pool) (ops : List (Op σ)) :
    HasLedger none (run ops (start pool)) ∧ (run ops (start pool)).pool.books.Fit none := by
  have f : (start pool).pool.books.Fit none := by
    rw [Pool.of_create driver config pool h]
    exact .of_empty rfl rfl (fun x hx => absurd hx List.not_mem_nil)
  exact run_keeps (fun hand s => HasLedger hand s ∧ s.pool.books.Fit hand) fit_move
    (fun s i c _ => fit_forward s i c) ops (fun op _ => fit_command op) _
    ⟨ledger_start driver config pool h, f⟩

/-- No run of any pool exceeds its limits. -/
theorem capacity_run (driver : σ) (config : Config) (pool : Pool σ)
    (h : Pool.create driver config = .ok pool) (ops : List (Op σ)) :
    (run ops (start pool)).pool.WithinLimits :=
  Pool.withinLimits_of_fit _ (fit_run driver config pool h ops).2

def twoCallersAfterShrink : List (Op Scripted) :=
  [.acquire .plain, .reconfigure fun c => { c with maxActive := 1 }, .acquire .plain,
    .acquire .plain]

theorem capacity_twoCallersAfterShrink :
    let s := run twoCallersAfterShrink (start (Pool.unused {} Config.trial))
    Pool.create ({} : Scripted) Config.trial = .ok (Pool.unused {} Config.trial) ∧
      s.pool.WithinLimits ∧ s.pool.active.length = 1 := by
  have hc := capacity_run ({} : Scripted) Config.trial (Pool.unused {} Config.trial) rfl
    twoCallersAfterShrink
  refine ⟨rfl, hc, ?_⟩
  decide +kernel

end Service

end ConnectionPool
