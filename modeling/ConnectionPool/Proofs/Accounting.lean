import ConnectionPool.Proofs.Safekeeping
import ConnectionPool.Proofs.Tracking
import Mathlib.Data.List.FinRange

/-!
# Accounting for connections

After every run each connection that was ever opened is idle, or lent, or has been closed since it
left the pool. With a driver on which nothing breaks this can be read off the driver: its open
connections are those that the pool holds, and after the pool has been dropped there are none, no
matter which handles are still out.
-/

set_option autoImplicit false

namespace ConnectionPool

theorem Scripted.openConnections_eq_length (s : Scripted) (channels : List Nat)
    (hn : channels.Nodup)
    (hm : ∀ i, i ∈ channels ↔ ∃ x, s.connections[i]? = some x ∧ x.closed = false) :
    s.openConnections = channels.length := by
  have hp : (((List.finRange s.connections.length).filter
      fun i => !s.connections[i].closed).map Fin.val).Perm channels := by
    have hnodup := (List.nodup_finRange s.connections.length).filter
      fun i => !s.connections[i].closed
    refine (List.perm_ext_iff_of_nodup (hnodup.map Fin.val_injective) hn).mpr fun i => ?_
    rw [hm]
    constructor
    · intro hi
      obtain ⟨j, hj, rfl⟩ := List.mem_map.mp hi
      exact ⟨_, List.getElem?_eq_getElem j.isLt, by simpa using (List.mem_filter.mp hj).2⟩
    · rintro ⟨x, hx, hc⟩
      obtain ⟨hl, rfl⟩ := List.getElem?_eq_some_iff.mp hx
      exact List.mem_map.mpr ⟨⟨i, hl⟩, by simp [hc], rfl⟩
  have hcount : s.openConnections = ((List.finRange s.connections.length).filter
      fun i => !s.connections[i].closed).length := by
    unfold openConnections
    conv_lhs => rw [← List.map_getElem_finRange s.connections]
    rw [List.filter_map, List.length_map]
    rfl
  rw [hcount, ← hp.length_eq, List.length_map]

theorem Gone.ended {channel : Nat} {journal : List Event} (h : Gone channel journal) :
    ∃ event ∈ journal, event.ending? = some channel := by
  obtain ⟨newer, departure, older, rfl, -, -, event, he, hx⟩ := h
  exact ⟨event, List.mem_append_left _ he, hx⟩

namespace Service

variable {σ : Type}

/-- Every connection that was opened is idle, lent or gone. -/
def Accounted (s : Service σ) : Prop :=
  ∀ channel < s.pool.backend.opened,
    (∃ e ∈ s.pool.idle ++ s.pool.active, e.channel = channel) ∨ Gone channel s.pool.backend.journal

theorem accounted_of_inOrder (s : Service σ) (o : s.InOrder none) : s.Accounted := by
  intro channel hl
  exact (o.2.accounted channel hl).imp_left List.mem_map.mp

theorem openConnections_of_inOrder (s : Service Scripted) (o : s.InOrder none)
    (t : s.pool.backend.Tracked) (d : s.pool.backend.Sturdy) :
    s.pool.backend.driver.openConnections = s.pool.active.length + s.pool.idle.length := by
  have hn : ((s.pool.books.held none).map Entry.channel).Nodup := o.1.distinct.channels_nodup
  rw [Scripted.openConnections_eq_length _ _ hn]
  · show ((s.pool.idle ++ s.pool.active).map Entry.channel).length = _
    rw [List.length_map, List.length_append, Nat.add_comm]
  intro i
  constructor
  · intro hi
    obtain ⟨e, he, rfl⟩ := List.mem_map.mp hi
    have hl := o.1.distinct.channel_lt e he
    change e.channel < s.pool.backend.opened at hl
    rw [t.opened] at hl
    have hx := List.getElem?_eq_getElem hl
    refine ⟨_, hx, Bool.eq_false_iff.mpr fun hc => ?_⟩
    exact o.2.unclosed e.channel hi ((t.told e.channel _ hx).mp hc)
  · rintro ⟨x, hx, hc⟩
    have hl := (List.getElem?_eq_some_iff.mp hx).1
    rw [← t.opened] at hl
    refine (o.2.accounted i hl).resolve_right fun hg => ?_
    obtain ⟨event, he, hend⟩ := hg.ended
    obtain ⟨y, hy, hdead⟩ := t.ended event he i hend
    obtain rfl : x = y := Option.some.inj (hx.symm.trans hy)
    have hb := d.unbroken x (List.mem_of_getElem? hx)
    simp [Scripted.Connection.isDead, hc, hb] at hdead

def Vacated (s : Service σ) : Prop :=
  s.isLive = false → s.pool.idle = [] ∧ s.pool.active = [] ∧ s.waiting = []

theorem isLive_settle (r : Request) (result : Except PoolError Entry) (s : Service σ) :
    (s.settle r result).isLive = s.isLive := by
  cases result <;> rfl

variable [Driver σ]

theorem isLive_move (m m' : Option Entry × Service σ) (h : Move m m') :
    m'.2.isLive = m.2.isLive := by
  cases h with
  | mark s | come s | pass s | leave s | awake s x | sleep s r | turn s => rfl
  | countWait s r =>
    unfold countWait
    split <;> rfl
  | fail s r error => exact isLive_settle r _ s
  | grant s r e q h => exact isLive_settle r _ _
  | takeBack s i handle hh hr => rfl

theorem vacated_release (s : Service σ) (l : HasLedger none s) (i : Nat)
    (hi : s.pool.idle = []) (ha : s.pool.active = []) (hw : s.waiting = []) :
    (s.release i).pool.idle = [] ∧ (s.release i).pool.active = [] ∧
      (s.release i).waiting = [] := by
  rcases release_cases s i with h | ⟨handle, hh, hr, h⟩
  · rw [h]
    exact ⟨hi, ha, hw⟩
  · have hv : s.pool.status handle.entry.id ≠ .valid := by
      intro hv
      have hm : handle.entry ∈ s.pool.active := l.running handle (List.mem_of_getElem? hh) hv
      rw [ha] at hm
      exact List.not_mem_nil hm
    obtain ⟨hk, hb⟩ := Pool.takeBack_retired s.now handle.entry s.pool hv
    have hactive : (s.takeBack i handle).pool.active =
        s.pool.active.eraseP fun a => a.id == handle.entry.id := congrArg Books.active hb
    rw [h, hk, if_neg (by decide), hactive, ha]
    exact ⟨(congrArg Books.idle hb).trans hi, rfl, hw⟩

theorem vacated_step (op : Op σ) (s : Service σ) (l : HasLedger none s) (h : s.Vacated) :
    (step op s).Vacated := by
  cases hl : s.isLive with
  | true =>
    -- a live pool is dropped by one command only, and that one empties it
    intro hd
    rcases step_moves s op with hm | hc | ⟨i, c, rfl, -, hf⟩
    · have hk : (step op s).isLive = s.isLive :=
        moves_keep (fun _ t => t.isLive = s.isLive) (fun m m' h hi => (isLive_move m m' h).trans hi)
          _ _ hm rfl
      rw [hk, hl] at hd
      exact absurd hd (by decide)
    · generalize step op s = s' at hc hd ⊢
      cases hc with
      | meddle s f | issueToken s hl | reset s hl | reconfigure s update hl =>
        exact absurd (hl.symm.trans hd) (by decide)
      | shutDown s hl hw =>
        obtain ⟨-, hi, ha, -⟩ := Pool.reset_frame s.pool
        exact ⟨hi, ha, hw⟩
    · change (s.call i c).2.isLive = false at hd
      rw [hf, (forward_cases s i c).1] at hd
      exact absurd (hl.symm.trans hd) (by decide)
  | false =>
    obtain ⟨hi, ha, hw⟩ := h hl
    intro _
    cases op with
    | acquire form | issueToken | reset | reconfigure update | shutDown =>
      simp only [step, hl, Bool.false_and, Bool.false_eq_true, if_false]
      exact ⟨hi, ha, hw⟩
    | call i c =>
      by_cases hc : c = .close
      · subst hc
        exact vacated_release s l i hi ha hw
      · obtain ⟨hw', hi', ha', -⟩ := forward_frame s i c
        rw [step, call_eq_forward s i c hc]
        exact ⟨hi'.trans hi, ha'.trans ha, hw'.trans hw⟩
    | release i => exact vacated_release s l i hi ha hw
    | advance span =>
      rw [step, advance, elapse_unwaited _ s hw]
      exact ⟨hi, ha, hw⟩
    | cancel token =>
      simp only [step, cancel, wakeAll, hw, rouse]
      exact ⟨hi, ha, trivial⟩
    | meddle f => exact ⟨hi, ha, hw⟩

theorem vacated_run (ops : List (Op σ)) (s : Service σ) (l : HasLedger none s) (h : s.Vacated) :
    (run ops s).Vacated := by
  induction ops generalizing s with
  | nil => exact h
  | cons op rest ih => exact ih (step op s) (ledger_run [op] s l) (vacated_step op s l h)

/-- The driver's open connections are those that the pool holds, none once it has been dropped. -/
structure NoneLeaked (s : Service Scripted) : Prop where
  open_eq : s.pool.backend.driver.openConnections = s.pool.active.length + s.pool.idle.length
  open_dropped : s.isLive = false → s.pool.backend.driver.openConnections = 0

/-- No run of any pool loses a connection, whatever the driver answers. -/
theorem accounting_run :
    (∀ (σ : Type) [Driver σ] (driver : σ) (config : Config) (pool : Pool σ),
      Pool.create driver config = .ok pool →
        ∀ ops : List (Op σ), (run ops (start pool)).Accounted) ∧
      ∀ (driver : Scripted) (config : Config) (pool : Pool Scripted),
        driver.connections = [] → driver.openingBroken = false →
        Pool.create driver config = .ok pool →
          ∀ ops : List (Op Scripted), Op.MeddlesBy Scripted.Act.harmless ops →
            (run ops (start pool)).NoneLeaked := by
  constructor
  · intro σ _ driver config pool h ops
    exact accounted_of_inOrder _ (inOrder_run ops _ (inOrder_start driver config pool h))
  · intro driver config pool hd hb h ops hm
    have o := inOrder_start driver config pool h
    have hsturdy : (start pool).pool.backend.Sturdy := by
      rw [Pool.of_create driver config pool h]
      exact ⟨hb, fun x hx => absurd (hd ▸ hx) List.not_mem_nil⟩
    obtain ⟨t, d⟩ := sturdy_run ops hm _ o.1 (tracked_start driver hd config pool h) hsturdy
    have hopen := openConnections_of_inOrder _ (inOrder_run ops _ o) t d
    have hvacated : (start pool).Vacated := fun hl => absurd hl (by simp [start])
    refine ⟨hopen, fun hl => ?_⟩
    obtain ⟨hi, ha, -⟩ := vacated_run ops _ o.1.ledger hvacated hl
    rw [hopen, hi, ha]
    rfl

/-- A lease is spoiled and then given up by a reset; its holder comes late, and when the pool is
dropped another lease is still out. -/
def lateReturnAfterReset : List (Op Scripted) :=
  [.acquire .plain, .meddle (Scripted.act (.failStatements 0 true)),
    .call 0 (.execute "SELECT 1"), .reset, .acquire .plain, .release 0, .shutDown]

theorem accounting_lateReturnAfterReset :
    let s := run lateReturnAfterReset (start (Pool.unused ({} : Scripted) Config.trial))
    s.Accounted ∧ s.NoneLeaked ∧ s.pool.backend.opened = 2 ∧ s.isLive = false ∧
      s.handles.map Handle.released = [true, false] := by
  obtain ⟨hany, hscripted⟩ := accounting_run
  have hm : Op.MeddlesBy Scripted.Act.harmless lateReturnAfterReset := by
    intro f hf
    simp only [lateReturnAfterReset, List.mem_cons, Op.meddle.injEq, reduceCtorEq, false_or,
      or_false, List.not_mem_nil] at hf
    exact ⟨.failStatements 0 true, rfl, hf⟩
  refine ⟨hany Scripted {} Config.trial (Pool.unused {} Config.trial) rfl lateReturnAfterReset,
    hscripted {} Config.trial (Pool.unused {} Config.trial) rfl rfl rfl lateReturnAfterReset hm, ?_⟩
  decide +kernel

end Service

end ConnectionPool
