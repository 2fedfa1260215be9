import ConnectionPool.Proofs.Capacity
import ConnectionPool.Proofs.Settlements

/-!
# Stretches

An acquisition runs in stretches, each from its start or a wake-up to its end or its next sleep. In
the course of an operation the callers that come or are woken run theirs one after the other; those
that are awake and have not had their turn are pending. What is to be said of the stretches follows
the pending callers: an invariant of their requests and the service that every stretch keeps holds
when any stretch begins, and when the operation is over.
-/

set_option autoImplicit false

namespace ConnectionPool

def Outcome.result? : Outcome → Option (Except PoolError Entry)
  | granted entry => some (.ok entry)
  | failed error => some (.error error)
  | saturated _ => none

namespace Service

variable {σ : Type}

def newcomer (form : Form) (s : Service σ) : Request where
  caller := s.callers
  credentials := form.credentials s.pool.config
  token := form.token?
  startedAt := s.now

variable [Driver σ]

def Steady (s : Service σ) : Prop := s.HasLedger none ∧ s.pool.books.Fit none

theorem steady_moves {s s' : Service σ} (h : Moves (none, s) (none, s')) (hs : s.Steady) :
    s'.Steady :=
  moves_keep (fun hand u => HasLedger hand u ∧ u.pool.books.Fit hand) fit_move _ _ h hs

theorem steady_step (op : Op σ) {s : Service σ} (hs : s.Steady) : (step op s).Steady :=
  step_keeps (fun hand u => HasLedger hand u ∧ u.pool.books.Fit hand) fit_move
    (fun u i c _ => fit_forward u i c) op (fit_command op) s hs

theorem steady_run (ops : List (Op σ)) {s : Service σ} (hs : s.Steady) : (run ops s).Steady := by
  induction ops generalizing s with
  | nil => exact hs
  | cons op rest ih => exact ih (steady_step op hs)

variable {r : Request} {t : Service σ}

inductive Rouses (r : Request) (t : Service σ) : List Sleeper → Service σ → Prop
  | here (s : Service σ) (x : Sleeper) (rest : List Sleeper) (hr : x.request = r)
      (ht : s.awake x = t) (hc : t.isCancelled r.token = false) : Rouses r t (x :: rest) s
  | later (s : Service σ) (x : Sleeper) (rest : List Sleeper)
      (h : Rouses r t (rest ++ (s.resume x).1) (s.resume x).2) : Rouses r t (x :: rest) s

inductive Elapses (r : Request) (t : Service σ) (target : Nat) : Service σ → Prop
  | here (s : Service σ) (x : Sleeper) (others : List Sleeper)
      (he : Sleeper.earliest s.waiting = some (x, others)) (hd : x.deadline ≤ target)
      (h : Rouses r t [x] { s with waiting := others, now := max s.now x.deadline }) :
      Elapses r t target s
  | later (s : Service σ) (x : Sleeper) (others : List Sleeper)
      (he : Sleeper.earliest s.waiting = some (x, others)) (hd : x.deadline ≤ target)
      (h : Elapses r t target (s.timeOut x others)) : Elapses r t target s

/-- In the course of the operation on `s` a stretch of the request `r` begins from `t`. -/
inductive Begins (r : Request) (t : Service σ) : Op σ → Service σ → Prop
  | come (s : Service σ) (form : Form) (hl : s.isLive = true) (hr : s.newcomer form = r)
      (ht : { s with callers := s.callers + 1 } = t) : Begins r t (.acquire form) s
  | release (s : Service σ) (i : Nat) (handle : Handle) (hh : s.handles[i]? = some handle)
      (hr : handle.released = false) (hk : (s.pool.takeBack s.now handle.entry).1 = true)
      (h : Rouses r t (s.takeBack i handle).takeFirst.1 (s.takeBack i handle).takeFirst.2) :
      Begins r t (.release i) s
  | close (s : Service σ) (i : Nat) (h : Begins r t (.release i) s) :
      Begins r t (.call i .close) s
  | advance (s : Service σ) (span : Nat) (h : Elapses r t (s.now + span) s) :
      Begins r t (.advance span) s
  | cancel (s : Service σ) (token : Nat)
      (h : Rouses r t s.waiting { s with tokens := s.tokens.set token true, waiting := [] }) :
      Begins r t (.cancel token) s

theorem rouses_moves {woken : List Sleeper} {s : Service σ} (h : Rouses r t woken s) :
    Moves (none, s) (none, t) := by
  induction h with
  | here s x rest hr ht hc => exact ht ▸ .single (.awake s x)
  | later s x rest h ih => exact (resume_moves s x).trans ih

theorem elapses_moves {target : Nat} {s : Service σ} (h : Elapses r t target s) :
    Moves (none, s) (none, t) := by
  induction h with
  | here s x others he hd h =>
    have hp : Moves (none, s) (none, { s with now := max s.now x.deadline }) :=
      .single (.pass s _ (Nat.le_max_left _ _))
    exact (hp.tail (.leave _ others (Sleeper.earliest_sublist _ _ _ he))).trans (rouses_moves h)
  | later s x others he hd h ih =>
    exact (timeOut_moves s x others (Sleeper.earliest_sublist _ _ _ he)).trans ih

theorem begins_moves {op : Op σ} {s : Service σ} (h : Begins r t op s) :
    Moves (none, s) (none, t) := by
  induction h with
  | come s form hl hr ht => exact ht ▸ .single (.come s)
  | release s i handle hh hr hk h =>
    have ht : Moves (none, s) (none, s.takeBack i handle) := .single (.takeBack s i handle hh hr)
    exact (ht.trans (takeFirst_moves _)).trans (rouses_moves h)
  | close s i h ih => exact ih
  | advance s span h => exact elapses_moves h
  | cancel s token h =>
    have hl : Moves (none, s) (none, { s with waiting := [] }) :=
      .single (.leave s [] (List.nil_sublist _))
    exact (hl.tail (.mark _ token rfl)).trans (rouses_moves h)

/-- Every stretch that may begin keeps the invariant, and so does what happens between stretches.
The requests are those of the pending callers. -/
structure Kept (May : Request → Service σ → Prop) (Inv : List Request → Service σ → Prop) :
    Prop where
  perm : ∀ {pending pending' s}, pending.Perm pending' → Inv pending s → Inv pending' s
  rise : ∀ {pending s x others}, s.waiting.Perm (x :: others) → Inv pending s →
    Inv (x.request :: pending) { s with waiting := others }
  pass : ∀ {pending s now}, s.now ≤ now → Inv pending s → Inv pending { s with now }
  awake : ∀ {pending s x}, Inv pending s → Inv pending (s.awake x)
  interrupt : ∀ {r pending s}, Inv (r :: pending) s →
    Inv pending (s.settle r (.error .interrupted))
  pursue : ∀ {r pending s}, May r s → s.Steady → Inv (r :: pending) s → Inv pending (s.pursue r)

namespace Kept

variable {May : Request → Service σ → Prop} {Inv : List Request → Service σ → Prop}

theorem takeFirst (k : Kept May Inv) {pending : List Request} {s : Service σ}
    (h : Inv pending s) : Inv (s.takeFirst.1.map Sleeper.request ++ pending) s.takeFirst.2 := by
  unfold Service.takeFirst
  split
  · exact h
  · rename_i x rest hw
    exact k.rise (by rw [hw]) h

theorem riseAll (k : Kept May Inv) (waiting : List Sleeper) {pending : List Request}
    {s : Service σ} (hw : s.waiting = waiting) (h : Inv pending s) :
    Inv (waiting.map Sleeper.request ++ pending) { s with waiting := [] } := by
  induction waiting generalizing pending s with
  | nil =>
    have hs : { s with waiting := [] } = s := by rw [← hw]
    rw [hs]
    exact h
  | cons x rest ih =>
    have hx : Inv (x.request :: pending) { s with waiting := rest } := k.rise (by rw [hw]) h
    exact k.perm List.perm_middle (ih (s := { s with waiting := rest }) rfl hx)

theorem resume (k : Kept May Inv) {x : Sleeper} {pending : List Request} {s : Service σ}
    (hm : (s.awake x).isCancelled x.request.token = false → May x.request (s.awake x))
    (hs : s.Steady) (h : Inv (x.request :: pending) s) :
    Inv ((s.resume x).1.map Sleeper.request ++ pending) (s.resume x).2 := by
  have ha : Inv (x.request :: pending) (s.awake x) := k.awake h
  rw [resume_eq]
  split
  · exact k.interrupt (k.perm List.perm_middle (k.takeFirst ha))
  · rename_i hc
    exact k.pursue (hm (by simpa using hc)) (steady_moves (.single (.awake s x)) hs) ha

theorem resumed (k : Kept May Inv) {x : Sleeper} {rest : List Sleeper} {pending : List Request}
    {s : Service σ}
    (hm : (s.awake x).isCancelled x.request.token = false → May x.request (s.awake x))
    (hs : s.Steady) (h : Inv ((x :: rest).map Sleeper.request ++ pending) s) :
    Inv ((rest ++ (s.resume x).1).map Sleeper.request ++ pending) (s.resume x).2 := by
  have hr : Inv ((s.resume x).1.map Sleeper.request ++ (rest.map Sleeper.request ++ pending))
      (s.resume x).2 := k.resume hm hs h
  rw [← List.append_assoc] at hr
  rw [List.map_append]
  exact k.perm (List.perm_append_comm.append_right pending) hr

theorem rouse (k : Kept May Inv) {woken : List Sleeper} {pending : List Request} {s : Service σ}
    (hm : ∀ r t, Rouses r t woken s → May r t) (hs : s.Steady)
    (h : Inv (woken.map Sleeper.request ++ pending) s) : Inv pending (s.rouse woken) := by
  fun_induction Service.rouse woken s with
  | case1 s => exact h
  | case2 s x rest ih =>
    refine ih (fun r t ht => hm r t (.later s x rest ht)) (steady_moves (resume_moves s x) hs) ?_
    exact k.resumed (fun hc => hm _ _ (.here s x rest rfl rfl hc)) hs h

theorem rouses (k : Kept May Inv) {woken : List Sleeper} {pending : List Request} {s : Service σ}
    (hm : ∀ r t, Rouses r t woken s → May r t) (hs : s.Steady)
    (h : Inv (woken.map Sleeper.request ++ pending) s) (ht : Rouses r t woken s) :
    ∃ others, Inv (r :: others) t := by
  induction ht with
  | here s x rest hr ht hc =>
    subst hr ht
    exact ⟨_, k.awake h⟩
  | later s x rest ht ih =>
    refine ih (fun r t ht => hm r t (.later s x rest ht)) (steady_moves (resume_moves s x) hs) ?_
    exact k.resumed (fun hc => hm _ _ (.here s x rest rfl rfl hc)) hs h

theorem next (k : Kept May Inv) {s : Service σ} {x : Sleeper} {others : List Sleeper}
    (he : Sleeper.earliest s.waiting = some (x, others)) (hs : s.Steady) (h : Inv [] s) :
    { s with waiting := others, now := max s.now x.deadline }.Steady ∧
      Inv [x.request] { s with waiting := others, now := max s.now x.deadline } := by
  have hp := k.pass (Nat.le_max_left s.now x.deadline) h
  constructor
  · have hm : Moves (none, s) (none, { s with now := max s.now x.deadline }) :=
      .single (.pass s _ (Nat.le_max_left _ _))
    exact steady_moves (hm.tail (.leave _ others (Sleeper.earliest_sublist _ _ _ he))) hs
  · exact k.rise (s := { s with now := max s.now x.deadline })
      (Sleeper.earliest_perm s.waiting x others he) hp

theorem elapse (k : Kept May Inv) (target : Nat) {s : Service σ} (hn : s.now ≤ target)
    (hm : ∀ r t, Elapses r t target s → May r t) (hs : s.Steady) (h : Inv [] s) :
    Inv [] (s.elapse target) := by
  fun_induction Service.elapse target s with
  | case1 s he => exact k.pass hn h
  | case2 s x others he hd ih =>
    obtain ⟨ho, hx⟩ := k.next he hs h
    refine ih ?_ (fun r t ht => hm r t (.later s x others he hd ht))
      (steady_moves (timeOut_moves s x others (Sleeper.earliest_sublist _ _ _ he)) hs) ?_
    · rw [now_timeOut]
      exact Nat.max_le.mpr ⟨hn, hd⟩
    · rw [timeOut_eq]
      exact k.rouse (fun r t ht => hm r t (.here s x others he hd ht)) ho hx
  | case3 s x others he hd => exact k.pass hn h

theorem elapses (k : Kept May Inv) {target : Nat} {s : Service σ}
    (hm : ∀ r t, Elapses r t target s → May r t) (hs : s.Steady) (h : Inv [] s)
    (ht : Elapses r t target s) : ∃ others, Inv (r :: others) t := by
  induction ht with
  | here s x others he hd ht =>
    obtain ⟨ho, hx⟩ := k.next he hs h
    exact k.rouses (fun r t ht => hm r t (.here s x others he hd ht)) ho hx ht
  | later s x others he hd ht ih =>
    obtain ⟨ho, hx⟩ := k.next he hs h
    refine ih (fun r t ht => hm r t (.later s x others he hd ht))
      (steady_moves (timeOut_moves s x others (Sleeper.earliest_sublist _ _ _ he)) hs) ?_
    rw [timeOut_eq]
    exact k.rouse (fun r t ht => hm r t (.here s x others he hd ht)) ho hx

end Kept

/-- The operation on `s` keeps the invariant, which holds before it. -/
structure KeptThrough (op : Op σ) (s : Service σ) (Inv : List Request → Service σ → Prop) : Prop
    extends Kept (fun r t => Begins r t op s) Inv where
  first : Inv [] s
  come : ∀ form, op = .acquire form → s.isLive = true →
    Inv [s.newcomer form] { s with callers := s.callers + 1 }
  takeBack : ∀ {i handle}, s.handles[i]? = some handle → handle.released = false →
    Inv [] (s.takeBack i handle)
  mark : ∀ token, Inv [] { s with tokens := s.tokens.set token true }
  forward : ∀ i c, c ≠ .close → Inv [] (s.forward i c).2
  command : ∀ s', Command op s s' → Inv [] s'

namespace KeptThrough

variable {op : Op σ} {s : Service σ} {Inv : List Request → Service σ → Prop}

theorem returned (k : KeptThrough op s Inv) (hs : s.Steady) {i : Nat} {handle : Handle}
    (hh : s.handles[i]? = some handle) (hr : handle.released = false) :
    (s.takeBack i handle).takeFirst.2.Steady ∧
      Inv ((s.takeBack i handle).takeFirst.1.map Sleeper.request ++ [])
        (s.takeBack i handle).takeFirst.2 := by
  have ho := steady_moves (.single (.takeBack s i handle hh hr)) hs
  exact ⟨steady_moves (takeFirst_moves _) ho, k.toKept.takeFirst (k.takeBack hh hr)⟩

theorem cancelled (k : KeptThrough op s Inv) (hs : s.Steady) (token : Nat) :
    { s with tokens := s.tokens.set token true, waiting := [] }.Steady ∧
      Inv (s.waiting.map Sleeper.request ++ [])
        { s with tokens := s.tokens.set token true, waiting := [] } := by
  constructor
  · have hl := steady_moves (.single (.leave s [] (List.nil_sublist _))) hs
    exact steady_moves (.single (.mark { s with waiting := [] } token rfl)) hl
  · exact k.toKept.riseAll s.waiting (s := { s with tokens := s.tokens.set token true }) rfl
      (k.mark token)

theorem release (k : KeptThrough op s Inv) (hs : s.Steady) (i : Nat)
    (hm : ∀ r t, Begins r t (.release i) s → Begins r t op s) : Inv [] (s.release i) := by
  rcases release_cases s i with h | ⟨handle, hh, hr, h⟩
  · rw [h]
    exact k.first
  · rw [h]
    split
    · rename_i hk
      obtain ⟨ho, hi⟩ := k.returned hs hh hr
      exact k.toKept.rouse (fun r t ht => hm r t (.release s i handle hh hr hk ht)) ho hi
    · exact k.takeBack hh hr

theorem step (k : KeptThrough op s Inv) (hs : s.Steady) : Inv [] (Service.step op s) := by
  by_cases ho : op.isCommand = true
  · rcases step_command s op ho with h | h
    · rw [h]
      exact k.first
    · exact k.command _ h
  · cases op with
    | acquire form =>
      simp only [Service.step]
      split
      · rename_i hl
        exact k.pursue (.come s form hl rfl rfl) (steady_moves (.single (.come s)) hs)
          (k.come form rfl hl)
      · exact k.first
    | call i c =>
      by_cases hc : c = .close
      · subst hc
        exact k.release hs i fun r t h => .close s i h
      · show Inv [] (s.call i c).2
        rw [call_eq_forward s i c hc]
        exact k.forward i c hc
    | release i => exact k.release hs i fun r t h => h
    | advance span =>
      exact k.toKept.elapse _ (Nat.le_add_right _ _) (fun r t h => .advance s span h) hs k.first
    | cancel token =>
      obtain ⟨ho, hi⟩ := k.cancelled hs token
      exact k.toKept.rouse (fun r t h => .cancel s token h) ho hi
    | issueToken | reset | reconfigure update | shutDown | meddle f => exact absurd rfl ho

theorem begins (k : KeptThrough op s Inv) (hs : s.Steady) (h : Begins r t op s) :
    ∃ others, Inv (r :: others) t := by
  have hrelease (i : Nat) (hm : ∀ r t, Begins r t (.release i) s → Begins r t op s)
      (h : Begins r t (.release i) s) : ∃ others, Inv (r :: others) t := by
    cases h with
    | release _ i handle hh hr hk h =>
      obtain ⟨ho, hi⟩ := k.returned hs hh hr
      exact k.toKept.rouses (fun r t ht => hm r t (.release s i handle hh hr hk ht)) ho hi h
  cases h with
  | come _ form hl hr ht =>
    subst hr ht
    exact ⟨[], k.come form rfl hl⟩
  | release _ i handle hh hr hk h =>
    exact hrelease i (fun r t h => h) (.release s i handle hh hr hk h)
  | close _ i h => exact hrelease i (fun r t h => .close s i h) h
  | advance _ span h =>
    exact k.toKept.elapses (fun r t h => .advance s span h) hs k.first h
  | cancel _ token h =>
    obtain ⟨ho, hi⟩ := k.cancelled hs token
    exact k.toKept.rouses (fun r t h => .cancel s token h) ho hi h

end KeptThrough

/-- The operation on `s` has a stretch of this caller that comes to this result at this instant. -/
def Results (op : Op σ) (s : Service σ) (x : Settlement) : Prop :=
  ∃ r t, Begins r t op s ∧ r.caller = x.caller ∧ t.now = x.instant ∧
    (t.pool.seek t.now r).1.result? = some x.result

structure Stems (op : Op σ) (s u : Service σ) : Prop where
  settled : ∀ x ∈ u.settlements, x ∈ s.settlements ∨ x.result = .error .interrupted ∨
    Results op s x
  held : ∀ i handle, u.handles[i]? = some handle → i < s.handles.length ∨
    ∃ r t, Begins r t op s ∧ r.caller = handle.caller ∧
      (t.pool.seek t.now r).1 = .granted handle.entry

namespace Stems

variable {op : Op σ} {s u u' : Service σ}

theorem congr (k : Stems op s u) (hs : u'.settlements = u.settlements)
    (hh : u'.handles = u.handles) : Stems op s u' where
  settled x hx := k.settled x (hs ▸ hx)
  held i handle hi := k.held i handle (hh ▸ hi)

theorem refl (op : Op σ) (s : Service σ) : Stems op s s where
  settled _ hx := Or.inl hx
  held _ _ hi := Or.inl (List.getElem?_eq_some_iff.mp hi).1

theorem settle_error (k : Stems op s u) {r : Request} {error : PoolError}
    (h : error = .interrupted ∨ Results op s ⟨r.caller, u.now, .error error⟩) :
    Stems op s (u.settle r (.error error)) where
  settled x hx := by
    rw [settlements_settle] at hx
    rcases List.mem_cons.mp hx with rfl | hx
    · exact Or.inr (h.imp_left (congrArg Except.error))
    · exact k.settled x hx
  held := k.held

theorem settle_ok (k : Stems op s u) {r : Request} {e : Entry}
    (h : Results op s ⟨r.caller, u.now, .ok e⟩)
    (hg : ∃ r' t, Begins r' t op s ∧ r'.caller = r.caller ∧
      (t.pool.seek t.now r').1 = .granted e) : Stems op s (u.settle r (.ok e)) where
  settled x hx := by
    rw [settlements_settle] at hx
    rcases List.mem_cons.mp hx with rfl | hx
    · exact Or.inr (Or.inr h)
    · exact k.settled x hx
  held i handle hi := by
    change (u.handles ++ [{ caller := r.caller, entry := e }])[i]? = some handle at hi
    rcases Nat.lt_or_ge i u.handles.length with hl | hl
    · exact k.held i handle (List.getElem?_append_left hl ▸ hi)
    · rw [List.getElem?_append_right hl] at hi
      obtain rfl := List.mem_singleton.mp (List.mem_of_getElem? hi)
      exact Or.inr hg

theorem pursue (k : Stems op s u) {r : Request} (hb : Begins r u op s) :
    Stems op s (u.pursue r) := by
  have hs := Pool.settlements_seek u.now r u.pool
  have hr (result : Except PoolError Entry)
      (h : (u.pool.seek u.now r).1.result? = some result) :
      Results op s ⟨r.caller, u.now, result⟩ := ⟨r, u, hb, rfl, rfl, h⟩
  have hg (e : Entry) (h : (u.pool.seek u.now r).1 = .granted e) :
      ∃ r' t, Begins r' t op s ∧ r'.caller = r.caller ∧ (t.pool.seek t.now r').1 = .granted e :=
    ⟨r, u, hb, rfl, h⟩
  unfold Service.pursue
  generalize u.pool.seek u.now r = found at hs hr hg
  obtain ⟨outcome, q⟩ := found
  have kq : Stems op s { u with pool := q } := by
    refine k.congr ?_ rfl
    rw [settlements_books, settlements_books]
    exact hs
  cases outcome with
  | granted e => exact kq.settle_ok (hr _ rfl) (hg e rfl)
  | failed error => exact kq.settle_error (Or.inr (hr _ rfl))
  | saturated r' =>
    have kc : Stems op s ({ u with pool := q }.countWait r') :=
      kq.congr (settlements_countWait r' _) (by unfold countWait; split <;> rfl)
    dsimp only
    unfold block
    dsimp only
    split
    · exact kc.settle_error (Or.inl rfl)
    · exact kc.congr rfl rfl

theorem kept (op : Op σ) (s : Service σ) :
    KeptThrough op s fun _ u => Stems op s u where
  perm _ k := k
  rise _ k := k.congr rfl rfl
  pass _ k := k.congr rfl rfl
  awake k := k.congr rfl rfl
  interrupt k := k.settle_error (Or.inl rfl)
  pursue hb _ k := k.pursue hb
  first := refl op s
  come _ _ _ := (refl op s).congr rfl rfl
  takeBack {i handle} hh hr := by
    refine ⟨fun x hx => Or.inl ?_, fun j other hj => Or.inl ?_⟩
    · rw [settlements_books] at hx ⊢
      exact Pool.settlements_takeBack s.now handle.entry s.pool ▸ hx
    · change (s.handles.set i _)[j]? = some other at hj
      have hl := (List.getElem?_eq_some_iff.mp hj).1
      rwa [List.length_set] at hl
  mark _ := (refl op s).congr rfl rfl
  forward i c _ :=
    (refl op s).congr (settlements_forward s i c) (by rw [(forward_cases s i c).1])
  command s' h := by
    refine (refl op s).congr (settlements_command op s s' h) ?_
    cases h <;> rfl

end Stems

theorem stems_step (op : Op σ) {s : Service σ} (hs : s.Steady) : Stems op s (step op s) :=
  (Stems.kept op s).step hs

/-- What has been settled in a run, a stretch of one of its operations came to. -/
theorem settled_run (ops : List (Op σ)) {s : Service σ} (hs : s.Steady) {x : Settlement}
    (hx : x ∈ (run ops s).settlements) (hn : x.result ≠ .error .interrupted) :
    x ∈ s.settlements ∨ ∃ before op after, ops = before ++ op :: after ∧
      Results op (run before s) x := by
  induction ops generalizing s with
  | nil => exact Or.inl hx
  | cons op rest ih =>
    rcases ih (steady_step op hs) hx with hx | ⟨before, op', after, rfl, hr⟩
    · rcases (stems_step op hs).settled x hx with hx | hi | hr
      · exact Or.inl hx
      · exact absurd hi hn
      · exact Or.inr ⟨[], op, rest, rfl, hr⟩
    · exact Or.inr ⟨op :: before, op', after, rfl, hr⟩

end Service

end ConnectionPool
