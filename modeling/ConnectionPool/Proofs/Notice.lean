import ConnectionPool.Proofs.Attribution
import ConnectionPool.Proofs.Cancellation
import ConnectionPool.Proofs.Deadlines
import ConnectionPool.Proofs.Dependability

/-!
# Notice

Room may be made without a wake-up, so a caller may sleep beside it. It notices the room when its
sleep ends. While time passes each sleeper wakes at its deadline, and with a dependable driver it is
lent a connection or finds the pool full; and once the pool has been full it stays so, because only
other sleepers have a turn, and whoever takes a lease away has one itself. So when every sleep has
ended that there was at first, nobody is left or the pool is full.
-/

set_option autoImplicit false

namespace ConnectionPool

def Sleeper.span (x : Sleeper) : Nat := x.deadline - x.since

namespace Service

variable {σ : Type} {s t u v : Service σ} {r : Request}

def Full (s : Service σ) : Prop := s.pool.active.length = s.pool.config.maxActive.toNat

structure Reliable [Driver σ] (s : Service σ) : Prop where
  steady : s.Steady
  inOrder : s.InOrder none
  dependable : s.pool.backend.Dependable
  usable : s.pool.config.Usable
  undisturbed : s.Undisturbed

/-- From one service to the other, whoever has come to an end was lent a connection, and whoever was
waiting has come to an end or waits still. -/
structure Serves (s t : Service σ) : Prop where
  handles : s.handles <+: t.handles
  settled : ∃ newer, t.settlements = newer ++ s.settlements ∧
    (∀ y ∈ newer, ∃ e, y.result = .ok e ∧ { caller := y.caller, entry := e } ∈ t.handles) ∧
    ∀ x ∈ s.waiting, (∃ z ∈ t.waiting, z.request.caller = x.request.caller) ∨
      ∃ y ∈ newer, y.caller = x.request.caller

namespace Serves

theorem pass (s : Service σ) (now : Nat) : Serves s { s with now } where
  handles := List.prefix_rfl
  settled := ⟨[], rfl, fun _ h => absurd h List.not_mem_nil, fun x hx => Or.inl ⟨x, hx, rfl⟩⟩

theorem trans (h : Serves s t) (h' : Serves t u) : Serves s u := by
  refine ⟨h.handles.trans h'.handles, ?_⟩
  obtain ⟨newer, hn, hlent, hleft⟩ := h.settled
  obtain ⟨newer', hn', hlent', hleft'⟩ := h'.settled
  refine ⟨newer' ++ newer, by rw [hn', hn, List.append_assoc], fun y hy => ?_, fun x hx => ?_⟩
  · rcases List.mem_append.mp hy with hy | hy
    · exact hlent' y hy
    · obtain ⟨e, he, hh⟩ := hlent y hy
      exact ⟨e, he, h'.handles.subset hh⟩
  · rcases hleft x hx with ⟨z, hz, hc⟩ | ⟨y, hy, hc⟩
    · rcases hleft' z hz with ⟨w, hw, hc'⟩ | ⟨y, hy, hc'⟩
      · exact Or.inl ⟨w, hw, hc'.trans hc⟩
      · exact Or.inr ⟨y, List.mem_append_left _ hy, hc'.trans hc⟩
    · exact Or.inr ⟨y, List.mem_append_right _ hy, hc⟩

end Serves

variable [Driver σ]

theorem reliable_moves (h : Moves (none, s) (none, t)) (k : Reliable s) : Reliable t := by
  obtain ⟨o, d⟩ := moves_keep
    (fun hand u => u.InOrder hand ∧ u.pool.backend.Dependable)
    (fun m m' hm hi => ⟨inOrder_move m m' hm hi.1, hi.2.later (move_exchanges m m' hm hi.1.1)⟩)
    _ _ h ⟨k.inOrder, k.dependable⟩
  exact ⟨steady_moves h k.steady, o, d, (config_moves h).1 ▸ k.usable,
    moves_keep (fun _ u => u.Undisturbed) undisturbed_move _ _ h k.undisturbed⟩

inductive Attended (r : Request) (s u : Service σ) : Prop
  | lent (e : Entry) (hs : u.settlements = ⟨r.caller, s.now, .ok e⟩ :: s.settlements)
      (hh : u.handles = s.handles ++ [{ caller := r.caller, entry := e }])
      (hw : u.waiting = s.waiting) (ha : s.pool.active.length ≤ u.pool.active.length)
  | asleep (y : Sleeper) (hs : u.settlements = s.settlements) (hh : u.handles = s.handles)
      (hw : u.waiting = s.waiting ++ [y]) (hy : y.request.caller = r.caller) (hf : Full u)

theorem attended_pursue (k : Reliable s) (hc : s.isCancelled r.token = false) :
    Attended r s (s.pursue r) := by
  have h := pursuit_pursue r k.steady.2
  generalize s.pursue r = u at h
  cases h with
  | settled looks outcome result q hs h hr =>
    have hend := settles_seek r result hs
    rcases h.of_dependable k.steady.1 k.inOrder.2 k.dependable k.usable.active_pos with
      ⟨e, rfl⟩ | ⟨r', rfl⟩
    · obtain rfl := Option.some.inj hr
      refine .lent e hend.settlements rfl rfl ?_
      show s.pool.active.length ≤ q.active.length
      cases h.relieves k.steady.2 with
      | spared ha hv =>
        rw [ha, List.length_append]
        exact Nat.le_add_right _ _
      | taken oldest rest ho ha hv =>
        rw [ha, ho.active, List.length_append]
        exact Nat.le_refl _
    · exact absurd hr (by simp [Outcome.result?])
  | blocked h =>
    obtain ⟨ha, hconfig⟩ := limits_block r s
    have hfull : Full (s.block r) := by
      rw [Full, ha, hconfig]
      exact Nat.le_antisymm (Pool.withinLimits_of_fit _ k.steady.2).active_le
        (Pool.full_of_not_hasRoom s.pool h.full)
    rw [block_eq, hc] at hfull ⊢
    refine .asleep _ (settlements_countWait r s) ?_ (congrArg (· ++ _) (waiting_countWait r s)) rfl
      hfull
    show (s.countWait r).handles = s.handles
    unfold countWait
    split <;> rfl

omit [Driver σ] in
theorem full_mono (ha : s.pool.active.length ≤ u.pool.active.length)
    (hc : u.pool.config = s.pool.config) (f : u.pool.books.Fit none) (h : Full s) : Full u := by
  have hle := (Pool.withinLimits_of_fit _ f).active_le
  unfold Full at h ⊢
  rw [hc] at hle ⊢
  omega

theorem timeOut_of_undisturbed {x : Sleeper} (others : List Sleeper)
    (hc : s.isCancelled x.request.token = false) :
    s.timeOut x others =
      ({ s with waiting := others, now := max s.now x.deadline }.awake x).pursue x.request := by
  have hn : ¬ ({ s with waiting := others, now := max s.now x.deadline }.awake x).isCancelled
      x.request.token = true := by
    show ¬ s.isCancelled x.request.token = true
    rw [hc]
    exact Bool.false_ne_true
  rw [timeOut_eq, rouse, resume_eq, if_neg hn]
  show rouse [] _ = _
  rw [rouse]

structure Noticed (others : List Sleeper) (s u : Service σ) : Prop where
  reliable : Reliable u
  serves : Serves s u
  full : Full s ∨ u.waiting ≠ others → Full u

theorem noticed_timeOut {x : Sleeper} {others : List Sleeper} (k : Reliable s)
    (he : Sleeper.earliest s.waiting = some (x, others)) :
    Noticed others s (s.timeOut x others) := by
  have hp := Sleeper.earliest_perm s.waiting x others he
  have hsub := Sleeper.earliest_sublist s.waiting x others he
  have hmoves := timeOut_moves s x others hsub
  have ku := reliable_moves hmoves k
  have hc := k.undisturbed x (hp.symm.subset List.mem_cons_self)
  have hm : Moves (none, s)
      (none, { s with waiting := others, now := max s.now x.deadline }.awake x) := by
    have hpass : Moves (none, s) (none, { s with now := max s.now x.deadline }) :=
      .single (.pass s _ (Nat.le_max_left _ _))
    exact (hpass.tail (.leave _ others hsub)).tail (.awake _ x)
  have ha := attended_pursue (reliable_moves hm k) hc
  rw [← timeOut_of_undisturbed others hc] at ha
  have hconfig := (config_moves hmoves).1
  cases ha with
  | lent e hs hh hw hle =>
    refine ⟨ku, ⟨⟨_, hh.symm⟩, [_], hs, fun y hy => ?_, fun y hy => ?_⟩, fun h => ?_⟩
    · rw [List.mem_singleton.mp hy, hh]
      exact ⟨e, rfl, List.mem_append_right _ List.mem_cons_self⟩
    · rcases List.mem_cons.mp (hp.subset hy) with rfl | hy
      · exact Or.inr ⟨_, List.mem_cons_self, rfl⟩
      · exact Or.inl ⟨y, hw ▸ hy, rfl⟩
    · exact full_mono hle hconfig ku.steady.2 (h.resolve_right fun hn => hn hw)
  | asleep z hs hh hw hz hf =>
    refine ⟨ku, ⟨⟨[], (List.append_nil _).trans hh.symm⟩, [], hs,
      fun _ h => absurd h List.not_mem_nil, fun y hy => Or.inl ?_⟩, fun _ => hf⟩
    rw [hw]
    rcases List.mem_cons.mp (hp.subset hy) with rfl | hy
    · exact ⟨z, List.mem_append_right _ List.mem_cons_self, hz⟩
    · exact ⟨y, List.mem_append_left _ hy, rfl⟩

/-- When every sleep has ended that there was at first, nobody is left or the pool is full. -/
theorem noticed_elapse (target : Nat) (k : Reliable s)
    (hw : Full s ∨ ∀ x ∈ s.waiting, x.deadline ≤ target) :
    ((s.elapse target).waiting = [] ∨ Full (s.elapse target)) ∧ Serves s (s.elapse target) := by
  fun_induction elapse target s with
  | case1 s he => exact ⟨Or.inl (Sleeper.earliest_none s.waiting he), Serves.pass s target⟩
  | case2 s x others he hd ih =>
    have h := noticed_timeOut k he
    -- as long as the pool has not been full, nobody has gone back to sleep
    have hnext : Full (s.timeOut x others) ∨
        ∀ y ∈ (s.timeOut x others).waiting, y.deadline ≤ target := by
      rcases hw with hf | hw
      · exact Or.inl (h.full (Or.inl hf))
      · by_cases hq : (s.timeOut x others).waiting = others
        · refine Or.inr fun y hy => hw y ?_
          exact (Sleeper.earliest_sublist s.waiting x others he).subset (hq ▸ hy)
        · exact Or.inl (h.full (Or.inr hq))
    obtain ⟨hend, hserves⟩ := ih h.reliable hnext
    exact ⟨hend, h.serves.trans hserves⟩
  | case3 s x others he hd =>
    have hx : x ∈ s.waiting :=
      (Sleeper.earliest_perm s.waiting x others he).symm.subset List.mem_cons_self
    exact ⟨Or.inr (hw.resolve_right fun hw => hd (hw x hx)), Serves.pass s target⟩

/-- The sleep began in a stretch of the operation on `s`, and lasts for the waiting time configured
then, or for one tick if that was zero. -/
def FellAsleepIn (op : Op σ) (s : Service σ) (x : Sleeper) : Prop :=
  ∃ r t, Begins r t op s ∧ x.request.caller = r.caller ∧ x.since = t.now ∧
    x.span = max 1 t.pool.config.timeToWait

theorem fellAsleep_pursue {op : Op σ} (hb : Begins r u op s) (hu : u.Steady)
    (h : ∀ x ∈ u.waiting, x ∈ s.waiting ∨ FellAsleepIn op s x) :
    ∀ x ∈ (u.pursue r).waiting, x ∈ s.waiting ∨ FellAsleepIn op s x := by
  have hp := pursuit_pursue r hu.2
  generalize u.pursue r = v at hp
  cases hp with
  | settled looks outcome result q hs hl hr =>
    rw [waiting_settle]
    exact h
  | blocked hstill =>
    rw [block_eq]
    split
    · rw [waiting_settle, waiting_countWait]
      exact h
    · intro x hx
      have hconfig : (u.countWait r).pool.config = u.pool.config := by
        unfold countWait
        split <;> rfl
      change x ∈ (u.countWait r).waiting ++ [Sleeper.start _ (u.countWait r).now
        (u.countWait r).pool.config.timeToWait] at hx
      rw [waiting_countWait, now_countWait, hconfig] at hx
      rcases List.mem_append.mp hx with hx | hx
      · exact h x hx
      · rw [List.mem_singleton.mp hx]
        exact Or.inr ⟨r, u, hb, rfl, rfl, Nat.add_sub_cancel_left _ _⟩

theorem fellAsleep_kept (op : Op σ) (s : Service σ) :
    KeptThrough op s fun _ u => ∀ x ∈ u.waiting, x ∈ s.waiting ∨ FellAsleepIn op s x where
  perm _ k := k
  rise hp k x hx := k x (hp.symm.subset (List.mem_cons_of_mem _ hx))
  pass _ k := k
  awake k := k
  interrupt k := k
  pursue hb hs k := fellAsleep_pursue hb hs k
  first _ hx := Or.inl hx
  come _ _ _ _ hx := Or.inl hx
  takeBack _ _ _ hx := Or.inl hx
  mark _ _ hx := Or.inl hx
  forward i c _ x hx := Or.inl (by rwa [(forward_cases s i c).1] at hx)
  command s' h x hx := Or.inl ((command_cases op s s' h).1 ▸ hx)

/-- Every sleep of a run was timed when it began. -/
theorem fellAsleep_run (ops : List (Op σ)) (hs : s.Steady) {x : Sleeper}
    (hx : x ∈ (run ops s).waiting) :
    x ∈ s.waiting ∨ ∃ before op after, ops = before ++ op :: after ∧
      FellAsleepIn op (run before s) x := by
  induction ops generalizing s with
  | nil => exact Or.inl hx
  | cons op rest ih =>
    rcases ih (steady_step op hs) hx with hx | ⟨before, op', after, rfl, hr⟩
    · exact ((fellAsleep_kept op s).step hs x hx).imp_right fun hr => ⟨[], op, rest, rfl, hr⟩
    · exact Or.inr ⟨op :: before, op', after, rfl, hr⟩

theorem begun_run (ops : List (Op σ)) (h : ∀ x ∈ s.waiting, x.since ≤ s.now) :
    ∀ x ∈ (run ops s).waiting, x.since ≤ (run ops s).now := by
  refine run_keeps (fun _ u => ∀ x ∈ u.waiting, x.since ≤ u.now) ?_ ?_ ops ?_ s h
  · intro m m' hm k
    cases hm with
    | mark s | come s | awake s x | fail s r error | turn s caller hand hand' q h
    | grant s r e q h | takeBack s i handle hh hr => exact k
    | pass s now hn => exact fun x hx => Nat.le_trans (k x hx) hn
    | leave s waiting hs => exact fun x hx => k x (hs.subset hx)
    | countWait s r =>
      intro x hx
      rw [waiting_countWait] at hx
      rw [now_countWait]
      exact k x hx
    | sleep s r hs hc =>
      intro x hx
      rcases List.mem_append.mp hx with hx | hx
      · exact k x hx
      · rw [List.mem_singleton.mp hx]
        exact Nat.le_refl _
  · intro u i c _ k
    rw [(forward_cases u i c).1]
    exact k
  · intro op _ u u' hu k
    have hn : u'.now = u.now := by cases hu <;> rfl
    rw [(command_cases op u u' hu).1, hn]
    exact k

/-- In every run of every pool, each sleep may last for the waiting time configured when it began.
If from now on the driver can be depended on, then once as much time has passed as the longest of
the present sleeps may last, nobody is waiting or the pool is full; and whoever has come to an end
meanwhile was lent a connection. -/
theorem notice_run (driver : σ) (config : Config) (pool : Pool σ)
    (h : Pool.create driver config = .ok pool) (ops : List (Op σ))
    (hd : (run ops (start pool)).pool.backend.Dependable) (span : Nat)
    (hs : ∀ x ∈ (run ops (start pool)).waiting, x.span ≤ span) :
    (∀ x ∈ (run ops (start pool)).waiting, ∃ before op after, ops = before ++ op :: after ∧
        FellAsleepIn op (run before (start pool)) x) ∧
      ((step (.advance span) (run ops (start pool))).waiting = [] ∨
        Full (step (.advance span) (run ops (start pool)))) ∧
      Serves (run ops (start pool)) (step (.advance span) (run ops (start pool))) := by
  have k : Reliable (run ops (start pool)) :=
    { steady := steady_run ops (steady_start driver config pool h)
      inOrder := inOrder_run ops _ (inOrder_start driver config pool h)
      dependable := hd
      usable := usable_run ops _ (usable_start driver config pool h)
      undisturbed := undisturbed_run ops _ fun x hx => absurd hx List.not_mem_nil }
  have hb := begun_run ops (s := start pool) fun x hx => absurd hx List.not_mem_nil
  refine ⟨fun x hx => ?_, noticed_elapse _ k (Or.inr fun x hx => ?_)⟩
  · exact (fellAsleep_run ops (steady_start driver config pool h) hx).resolve_left List.not_mem_nil
  · have hspan := hs x hx
    have hbegun := hb x hx
    unfold Sleeper.span at hspan
    omega

/-- While a caller waits for the only connection, a fault is planted there. A reset gives the
connection up and wakes nobody. -/
def faultThenReset : List (Op (Faulty Scripted)) :=
  [.acquire .plain, .acquire .plain,
    .meddle (Faulty.plant 0 .execute (some { error := .io "broken pipe" })), .reset]

theorem notice_faultThenReset :
    let s := run faultThenReset
      (start (Pool.unused ({ behind := {} } : Faulty Scripted) Config.single))
    Pool.create ({ behind := {} } : Faulty Scripted) Config.single =
        .ok (Pool.unused { behind := {} } Config.single) ∧
      s.waiting.length = 1 ∧ ¬ Full s ∧ s.pool.backend.Dependable ∧
      (∀ x ∈ s.waiting, x.span ≤ Config.single.timeToWait) ∧
      (∀ x ∈ s.waiting, ∃ before op after, faultThenReset = before ++ op :: after ∧
        FellAsleepIn op (run before
          (start (Pool.unused ({ behind := {} } : Faulty Scripted) Config.single))) x) ∧
      ((step (.advance Config.single.timeToWait) s).waiting = [] ∨
        Full (step (.advance Config.single.timeToWait) s)) ∧
      Serves s (step (.advance Config.single.timeToWait) s) := by
  intro s
  have hhealthy : s.pool.backend.Healthy := by
    have hconnect : s.pool.backend.driver.onConnect = none := by decide +kernel
    refine ⟨by decide +kernel, by decide +kernel, ?_, by decide +kernel, by decide +kernel,
      by decide +kernel, by decide +kernel⟩
    rw [hconnect]
    exact fun _ h => absurd h (by simp)
  have hspan : ∀ x ∈ s.waiting, x.span ≤ Config.single.timeToWait := by decide +kernel
  exact ⟨rfl, by decide +kernel, by unfold Full; decide +kernel, hhealthy.dependable, hspan,
    notice_run ({ behind := {} } : Faulty Scripted) Config.single
      (Pool.unused { behind := {} } Config.single) rfl faultThenReset hhealthy.dependable
      Config.single.timeToWait hspan⟩

end Service

end ConnectionPool
