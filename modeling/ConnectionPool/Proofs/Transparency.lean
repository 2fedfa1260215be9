import ConnectionPool.Driver.Faulty
import ConnectionPool.Proofs.Resets
import ConnectionPool.Proofs.Staleness

/-!
# Transparent handles

While a handle keeps its lease, a call on it is a call on its connection: the holder gets the answer
that the connection gives, the connection receives the same calls, and the pool takes no notice of
either. The first answer that the connection is of no further use is passed on too, and ends it.
From then on the handle answers by itself, nothing reaches the connection through it, and the
connection never gets into the idle set.

The calls on the handle may be anywhere among the other operations of a run. The run is compared
with one in which they are made on the connection directly, behind the back of the pool.
-/

set_option autoImplicit false

namespace ConnectionPool

structure Answered where
  call : Call
  reply : Reply call

def Answered.isFatal : Answered → Bool
  | ⟨_, .error .closed⟩ | ⟨_, .error (.io _)⟩ | ⟨_, .error .timeout⟩ => true
  | _ => false

theorem Answered.isFatal_error (c : Call) (error : DriverError) :
    Answered.isFatal ⟨c, .error error⟩ = error.isFatal := by
  cases error <;> rfl

def Op.isQuiet {σ : Type} : Op σ → Bool
  | .call _ .close => false
  | .call _ _ | .meddle _ => true
  | _ => false

theorem getElem?_of_prefix {α : Type} {xs ys : List α} (h : xs <+: ys) {i : Nat} {x : α}
    (hx : xs[i]? = some x) : ys[i]? = some x := by
  obtain ⟨more, rfl⟩ := h
  rw [List.getElem?_append_left (List.getElem?_eq_some_iff.mp hx).1, hx]

namespace Service

variable {σ : Type} {s : Service σ} {i : Nat} {handle : Handle}

theorem handles_settle (r : Request) (result : Except PoolError Entry) (s : Service σ) :
    s.handles <+: (s.settle r result).handles := by
  cases result with
  | ok entry => exact List.prefix_append _ _
  | error error => exact List.prefix_rfl

theorem handles_block (r : Request) (s : Service σ) : s.handles <+: (s.block r).handles := by
  have hc : (s.countWait r).handles = s.handles := by
    unfold countWait
    split <;> rfl
  unfold block
  dsimp only
  split
  · rw [← hc]
    exact handles_settle _ _ _
  · rw [← hc]
    exact List.prefix_rfl

theorem handles_takeFirst (s : Service σ) : s.takeFirst.2.handles = s.handles := by
  rw [takeFirst_rest]

variable [Driver σ]

theorem handles_pursue (r : Request) (s : Service σ) : s.handles <+: (s.pursue r).handles := by
  unfold pursue
  cases s.pool.seek s.now r with
  | mk outcome q =>
    cases outcome with
    | granted entry => exact handles_settle r (.ok entry) { s with pool := q }
    | failed error => exact handles_settle r (.error error) { s with pool := q }
    | saturated r' => exact handles_block r' { s with pool := q }

theorem handles_resume (x : Sleeper) (s : Service σ) :
    s.handles <+: (s.resume x).2.handles := by
  rw [resume_eq]
  split
  · have h := handles_settle x.request (.error .interrupted) (s.awake x).takeFirst.2
    rw [handles_takeFirst] at h
    exact h
  · exact handles_pursue x.request (s.awake x)

theorem handles_rouse (woken : List Sleeper) (s : Service σ) :
    s.handles <+: (s.rouse woken).handles := by
  fun_induction rouse woken s with
  | case1 s => exact List.prefix_rfl
  | case2 s x rest ih => exact (handles_resume x s).trans ih

theorem handles_elapse (target : Nat) (s : Service σ) :
    s.handles <+: (s.elapse target).handles := by
  fun_induction elapse target s with
  | case1 s he | case3 s x others he hd => exact List.prefix_rfl
  | case2 s x others he hd ih =>
    refine List.IsPrefix.trans ?_ ih
    rw [timeOut_eq]
    exact handles_rouse [x] { s with waiting := others, now := max s.now x.deadline }

theorem handles_release (s : Service σ) {j : Nat} (hj : j ≠ i) (hh : s.handles[i]? = some handle) :
    (s.release j).handles[i]? = some handle := by
  rcases release_cases s j with hs | ⟨other, -, -, hs⟩
  · rwa [hs]
  · have ht : (s.takeBack j other).handles[i]? = some handle :=
      (List.getElem?_set_ne hj).trans hh
    rw [hs]
    split
    · rw [← handles_takeFirst] at ht
      exact getElem?_of_prefix (handles_rouse _ (s.takeBack j other).takeFirst.2) ht
    · exact ht

theorem handles_step (op : Op σ) (hr : op.returned? ≠ some i) (hh : s.handles[i]? = some handle) :
    (step op s).handles[i]? = some handle := by
  by_cases ho : op.isCommand = true
  · rcases step_command s op ho with h | h
    · rwa [h]
    · obtain ⟨-, hhandles, -⟩ := command_cases op s _ h
      rwa [hhandles]
  · cases op with
    | acquire form =>
      simp only [step]
      split
      · exact getElem?_of_prefix (handles_pursue _ { s with callers := s.callers + 1 }) hh
      · exact hh
    | call j c =>
      by_cases hc : c = .close
      · subst hc
        exact handles_release s (fun hj => hr (congrArg some hj)) hh
      · show (s.call j c).2.handles[i]? = some handle
        rw [call_eq_forward s j c hc, (forward_cases s j c).1]
        exact hh
    | release j => exact handles_release s (fun hj => hr (congrArg some hj)) hh
    | advance span => exact getElem?_of_prefix (handles_elapse _ s) hh
    | cancel token =>
      exact getElem?_of_prefix (handles_rouse s.waiting
        { s with tokens := s.tokens.set token true, waiting := [] }) hh
    | issueToken | reset | reconfigure update | shutDown | meddle f => exact absurd rfl ho

/-- Makes the calls on the handle, and does everything else as well. Answers what such a call was
answered. -/
def onHandle (i : Nat) (op : Op σ) (s : Service σ) : List Answered × Service σ :=
  match op with
  | .call j c => (if j = i then [⟨c, (s.call j c).1⟩] else [], step (.call j c) s)
  | op => ([], step op s)

def onConnection (i channel : Nat) (op : Op σ) (s : Service σ) : List Answered × Service σ :=
  match op with
  | .call j c =>
    if j = i then
      let (reply, backend) := s.pool.backend.call channel c
      ([⟨c, reply⟩], { s with pool := { s.pool with backend } })
    else ([], step (.call j c) s)
  | op => ([], step op s)

/-- The answers on the way, and what the operations lead to. -/
def trace (act : Op σ → Service σ → List Answered × Service σ) :
    List (Op σ) → Service σ → List Answered × Service σ
  | [], s => ([], s)
  | op :: rest, s =>
    ((act op s).1 ++ (trace act rest (act op s).2).1, (trace act rest (act op s).2).2)

omit [Driver σ] in
theorem trace_append (act : Op σ → Service σ → List Answered × Service σ) (ops rest : List (Op σ))
    (s : Service σ) :
    trace act (ops ++ rest) s =
      ((trace act ops s).1 ++ (trace act rest (trace act ops s).2).1,
        (trace act rest (trace act ops s).2).2) := by
  induction ops generalizing s with
  | nil => simp [trace]
  | cons op ops ih => simp [trace, ih]

theorem onHandle_step (i : Nat) (op : Op σ) (s : Service σ) : (onHandle i op s).2 = step op s := by
  cases op <;> rfl

theorem trace_onHandle (i : Nat) (ops : List (Op σ)) (s : Service σ) :
    (trace (onHandle i) ops s).2 = run ops s := by
  induction ops generalizing s with
  | nil => rfl
  | cons op rest ih =>
    show (trace (onHandle i) rest (onHandle i op s).2).2 = run rest (step op s)
    rw [onHandle_step, ih]

/-- In the course of the operations the handle is not returned and its lease not taken away. -/
def Retained (i : Nat) (e : Entry) (ops : List (Op σ)) (s : Service σ) : Prop :=
  ∀ before op after, ops = before ++ op :: after →
    op.returned? ≠ some i ∧ ¬ Evicts op e (run before s)

theorem Retained.head {op : Op σ} {rest : List (Op σ)} {e : Entry}
    (h : Retained i e (op :: rest) s) : op.returned? ≠ some i ∧ ¬ Evicts op e s :=
  h [] op rest rfl

theorem Retained.tail {op : Op σ} {rest : List (Op σ)} {e : Entry}
    (h : Retained i e (op :: rest) s) : Retained i e rest (step op s) := by
  intro before op' after hsplit
  exact h (op :: before) op' after (congrArg (op :: ·) hsplit)

theorem Retained.prefix {ops rest : List (Op σ)} {e : Entry}
    (h : Retained i e (ops ++ rest) s) : Retained i e ops s := by
  rintro before op after rfl
  exact h before op (after ++ rest) (by simp)

theorem retained_of_quiet (i : Nat) (e : Entry) (ops : List (Op σ)) (s : Service σ)
    (h : ∀ op ∈ ops, op.isQuiet = true) : Retained i e ops s := by
  rintro before op after rfl
  have hq := h op (by simp)
  generalize run before s = t
  have hclaims : op.returned? ≠ some i ∧ (step op t).claims = t.claims ∧ ¬ Resets op t := by
    cases op with
    | meddle f => exact ⟨by simp [Op.returned?], rfl, id⟩
    | call j c =>
      have hc : c ≠ .close := by
        rintro rfl
        exact Bool.noConfusion hq
      refine ⟨?_, ?_, id⟩
      · cases c <;> simp [Op.returned?] at hc ⊢
      · show (t.call j c).2.claims = t.claims
        rw [call_eq_forward t j c hc, claims_books, claims_books]
        rcases (forward_cases t j c).2 with hb | ⟨handle, error, -, -, -, -, hb⟩
        · rw [hb]
        · rw [hb]
          rfl
    | _ => exact Bool.noConfusion hq
  obtain ⟨hr, hsame, hreset⟩ := hclaims
  refine ⟨hr, ?_⟩
  rintro (⟨added, x, hadded, hx, -⟩ | ⟨hres, -⟩)
  · rw [hsame, List.self_eq_append_left] at hadded
    rw [hadded] at hx
    exact List.not_mem_nil hx
  · exact hreset hres

theorem forward_of_valid (hh : s.handles[i]? = some handle) (hv : s.isValid handle = true)
    (c : Call) :
    (s.forward i c).1 = (s.pool.backend.call handle.entry.channel c).1 ∧
      (s.forward i c).2.pool.backend = (s.pool.backend.call handle.entry.channel c).2 ∧
      (Answered.isFatal ⟨c, (s.pool.backend.call handle.entry.channel c).1⟩ = false →
        (s.forward i c).2 = { s with
          pool := { s.pool with
            backend := (s.pool.backend.call handle.entry.channel c).2 } }) ∧
      (Answered.isFatal ⟨c, (s.pool.backend.call handle.entry.channel c).1⟩ = true →
        (s.forward i c).2.pool.status handle.entry.id = .invalidated) := by
  have hs := status_of_isValid handle s hv
  unfold forward
  rw [hh]
  dsimp only
  rw [if_pos hv]
  cases hr : (s.pool.backend.call handle.entry.channel c).1 with
  | ok value => exact ⟨rfl, rfl, fun _ => rfl, fun hf => Bool.noConfusion hf⟩
  | error error =>
    rw [Answered.isFatal_error]
    refine ⟨rfl, ?_, fun hf => ?_, fun hf => ?_⟩
    · dsimp only
      split
      · exact Pool.backend_retire _ _ _
      · rfl
    · dsimp only
      rw [if_neg (by simp [hf])]
    · dsimp only
      rw [if_pos hf]
      show (Pool.retire handle.entry.id .invalidated _).books.status handle.entry.id = _
      rw [Pool.books_retire, Books.status_retire, if_pos]
      exact ⟨rfl, hs⟩

theorem isValid_step (l : s.HasLedger none) (op : Op σ) (hh : s.handles[i]? = some handle)
    (hv : s.isValid handle = true) (hr : op.returned? ≠ some i) (he : ¬ Evicts op handle.entry s)
    (hf : ∀ a ∈ (onHandle i op s).1, a.isFatal = false) : (step op s).isValid handle = true := by
  have hout : handle.released = false := by simpa using (Bool.and_eq_true_iff.mp hv).1
  have hs := status_of_isValid handle s hv
  have ha : handle.entry ∈ s.pool.active := l.running handle (List.mem_of_getElem? hh) hs
  have hh' := handles_step op hr hh
  have l' : (step op s).HasLedger none := ledger_run [op] s l
  have ha' : handle.entry ∈ (step op s).pool.active := by
    by_contra hn
    rcases evicted_step op s l ⟨hn, handle, List.mem_of_getElem? hh', rfl, hout⟩ with hb | hb
    · exact hb.1 ha
    · exact he hb
  have hstatus : (step op s).pool.status handle.entry.id = .valid := by
    have hlent : (step op s).pool.status handle.entry.id ≠ .superseded := l'.lent _ ha'
    cases hst : (step op s).pool.status handle.entry.id with
    | valid => rfl
    | superseded => exact absurd hst hlent
    | invalidated =>
      -- it can only have been spoiled by a call on this very handle
      exfalso
      rcases spoiled_step s op l handle.entry ha' hst with ⟨-, hn⟩ | hspoil
      · exact absurd (hs.symm.trans hn) (by decide)
      · obtain ⟨j, c, other, error, rfl, hj, hoe, -, hreply, hfatal⟩ := hspoil
        obtain rfl := index_unique l hj hh (congrArg Entry.id hoe)
        have hno := hf ⟨c, (s.call j c).1⟩ (by simp [onHandle])
        rw [hreply, Answered.isFatal_error, hfatal] at hno
        exact Bool.noConfusion hno
  simp [isValid, hout, hstatus]

theorem onHandle_eq (hh : s.handles[i]? = some handle) (hv : s.isValid handle = true) (op : Op σ)
    (hr : op.returned? ≠ some i)
    (hf : ∀ a ∈ (onConnection i handle.entry.channel op s).1, a.isFatal = false) :
    onHandle i op s = onConnection i handle.entry.channel op s := by
  cases op with
  | call j c =>
    by_cases hj : j = i
    · subst hj
      have hc : c ≠ .close := by
        rintro rfl
        exact hr rfl
      have hno := hf ⟨c, (s.pool.backend.call handle.entry.channel c).1⟩ (by simp [onConnection])
      obtain ⟨hreply, -, hstate, -⟩ := forward_of_valid hh hv c
      simp only [onHandle, onConnection, if_true, step]
      rw [call_eq_forward s j c hc, hreply, hstate hno]
    · simp only [onHandle, onConnection, if_neg hj]
  | _ => rfl

/-- The handle is of no use any more: it answers by itself, and its connection is not idle. -/
structure Spent (i : Nat) (handle : Handle) (s : Service σ) : Prop where
  call : ∀ c, c ≠ .close → s.call i c = (.error .invalidated, s)
  idle : ∀ e ∈ s.pool.idle, e.channel ≠ handle.entry.channel

/-- Calls through the handle are calls on its connection, up to and with the first fatal error. -/
structure Transparent (i : Nat) (handle : Handle) (ops : List (Op σ)) (s : Service σ) : Prop where
  /-- Without a fatal error all is the same, and the handle stays valid. -/
  sound : (∀ a ∈ (trace (onConnection i handle.entry.channel) ops s).1, a.isFatal = false) →
    trace (onHandle i) ops s = trace (onConnection i handle.entry.channel) ops s ∧
      (run ops s).isValid handle = true
  /-- The first fatal error is answered, and the handle is spent from then on. -/
  broken : ∀ before c after, ops = before ++ .call i c :: after →
    (∀ a ∈ (trace (onConnection i handle.entry.channel) before s).1, a.isFatal = false) →
    Answered.isFatal ⟨c, ((trace (onConnection i handle.entry.channel)
      before s).2.pool.backend.call handle.entry.channel c).1⟩ = true →
    (trace (onHandle i) (before ++ [.call i c]) s).1 =
        (trace (onConnection i handle.entry.channel) (before ++ [.call i c]) s).1 ∧
      (run (before ++ [.call i c]) s).pool.backend =
        (trace (onConnection i handle.entry.channel) (before ++ [.call i c]) s).2.pool.backend ∧
      ∀ rest, Spent i handle (run (before ++ .call i c :: rest) s)

theorem trace_eq (l : s.HasLedger none) (hh : s.handles[i]? = some handle)
    (hv : s.isValid handle = true) (ops : List (Op σ)) (hk : Retained i handle.entry ops s)
    (hf : ∀ a ∈ (trace (onConnection i handle.entry.channel) ops s).1, a.isFatal = false) :
    trace (onHandle i) ops s = trace (onConnection i handle.entry.channel) ops s ∧
      (run ops s).handles[i]? = some handle ∧ (run ops s).isValid handle = true := by
  induction ops generalizing s with
  | nil => exact ⟨rfl, hh, hv⟩
  | cons op rest ih =>
    obtain ⟨hr, he⟩ := hk.head
    have hhead := onHandle_eq hh hv op hr fun a ha => hf a (List.mem_append_left _ ha)
    have hstate : (onConnection i handle.entry.channel op s).2 = step op s := by
      rw [← hhead, onHandle_step]
    have hvalid := isValid_step l op hh hv hr he fun a ha =>
      hf a (List.mem_append_left _ (hhead ▸ ha))
    have l' : (step op s).HasLedger none := ledger_run [op] s l
    obtain ⟨htail, hrest⟩ := ih l' (handles_step op hr hh) hvalid hk.tail
      fun a ha => hf a (List.mem_append_right _ (hstate.symm ▸ ha))
    refine ⟨?_, hrest⟩
    simp only [trace, hhead, hstate, htail]

theorem spent_of_invalidated (v : s.HasProvenance none) (hh : s.handles[i]? = some handle)
    (hi : s.pool.status handle.entry.id = .invalidated) (rest : List (Op σ)) :
    Spent i handle (run rest s) := by
  have hn : s.pool.status handle.entry.id ≠ .valid := by
    rw [hi]
    decide
  have hl := lasts_run rest s
  have v' := provenance_run rest s v
  obtain ⟨later, hlater, hentry, hstale⟩ := hl.handle i handle hh
  have hinv : (run rest s).pool.status later.entry.id = .invalidated := by
    rw [hentry, hl.status _ hn, hi]
  constructor
  · intro c hc
    rw [call_eq_forward _ i c hc]
    apply forward_of_stale _ i later c hlater
    exact hstale ((isValid_eq_false handle s).mpr (Or.inr hn))
  · intro e he
    rw [← hentry]
    apply channel_ne_of_valid v' (List.mem_of_getElem? hlater) hinv
    · simp [entries, he]
    · exact v'.ledger.ready e he

/-- After every run of every pool each valid handle is transparent, to whatever is done as long as
it keeps its lease, and whatever the driver answers. -/
theorem transparency_run (driver : σ) (config : Config) (pool : Pool σ)
    (h : Pool.create driver config = .ok pool) (past ops : List (Op σ)) (i : Nat) (handle : Handle)
    (hh : (run past (start pool)).handles[i]? = some handle)
    (hv : (run past (start pool)).isValid handle = true)
    (hk : Retained i handle.entry ops (run past (start pool))) :
    Transparent i handle ops (run past (start pool)) := by
  have v := provenance_run past _ (provenance_start driver config pool h)
  generalize run past (start pool) = s at hh hv hk v
  constructor
  · intro hf
    obtain ⟨htrace, -, hvalid⟩ := trace_eq v.ledger hh hv ops hk hf
    exact ⟨htrace, hvalid⟩
  · rintro before c after rfl hf hfatal
    have hc : c ≠ .close := by
      rintro rfl
      exact (hk before (.call i .close) after rfl).1 rfl
    obtain ⟨htrace, hh', hv'⟩ := trace_eq v.ledger hh hv before hk.prefix hf
    have hstate : (trace (onConnection i handle.entry.channel) before s).2 = run before s := by
      rw [← htrace, trace_onHandle]
    rw [hstate] at hfatal
    obtain ⟨hreply, hbackend, -, hspent⟩ := forward_of_valid hh' hv' c
    have hstep : step (.call i c) (run before s) = ((run before s).forward i c).2 := by
      rw [← call_eq_forward _ i c hc]
      rfl
    refine ⟨?_, ?_, fun rest => ?_⟩
    · rw [trace_append, trace_append, htrace, hstate]
      simp only [trace, onHandle, onConnection, if_true, call_eq_forward _ i c hc, hreply]
    · rw [run_append, trace_append, hstate]
      show (step (.call i c) (run before s)).pool.backend = _
      rw [hstep, hbackend]
      simp only [trace, onConnection, if_true]
    · rw [run_append]
      show Spent i handle (run rest (step (.call i c) (run before s)))
      apply spent_of_invalidated (provenance_run [.call i c] _ (provenance_run before s v))
      · apply handles_step _ _ hh'
        cases c <;> simp [Op.returned?] at hc ⊢
      · show (step (.call i c) (run before s)).pool.status handle.entry.id = _
        rw [hstep]
        exact hspent hfatal

/-- A statement fails, then the connection breaks: the holder goes on after the first error and
finds out at the commit. Whatever it tries afterwards does not reach the connection. -/
def statementsUntilBreak : List (Op (Faulty Scripted)) :=
  [.call 0 (.setAutoCommit false),
    .meddle (Faulty.plant 0 .execute (some { error := .statement "typo", remaining := some 1 })),
    .call 0 (.execute "SELEKT 1"), .call 0 (.execute "SELECT 1"),
    .meddle (fun d => { d with behind := d.behind.act (.sever 0) }), .call 0 .isClosed,
    .call 0 .commit, .call 0 .rollback]

theorem transparency_statementsUntilBreak :
    ∃ handle, (run [.acquire .plain]
        (start (Pool.unused ({ behind := {} } : Faulty Scripted) Config.single))).handles[0]? =
          some handle ∧
      (run [.acquire .plain] (start (Pool.unused ({ behind := {} } : Faulty Scripted)
        Config.single))).isValid handle = true ∧
      Transparent 0 handle statementsUntilBreak (run [.acquire .plain]
        (start (Pool.unused ({ behind := {} } : Faulty Scripted) Config.single))) ∧
      (trace (onConnection 0 handle.entry.channel) statementsUntilBreak (run [.acquire .plain]
        (start (Pool.unused ({ behind := {} } : Faulty Scripted)
          Config.single)))).1.map Answered.isFatal =
        [false, false, false, false, true, true] ∧
      (trace (onHandle 0) statementsUntilBreak (run [.acquire .plain]
        (start (Pool.unused ({ behind := {} } : Faulty Scripted)
          Config.single)))).1.map Answered.isFatal =
        [false, false, false, false, true, false] := by
  have hfirst : ((run [.acquire .plain] (start (Pool.unused
      ({ behind := {} } : Faulty Scripted) Config.single))).handles[0]?.any fun handle =>
        (run [.acquire .plain] (start (Pool.unused ({ behind := {} } : Faulty Scripted)
          Config.single))).isValid handle && handle.entry.channel == 0) = true := by
    decide +kernel
  obtain ⟨handle, hh, hs⟩ := (Option.any_eq_true _ _).mp hfirst
  simp only [Bool.and_eq_true, beq_iff_eq] at hs
  refine ⟨handle, hh, hs.1, ?_, ?_, by decide +kernel⟩
  · apply transparency_run ({ behind := {} } : Faulty Scripted) Config.single
      (Pool.unused { behind := {} } Config.single) rfl [.acquire .plain] statementsUntilBreak 0
      handle hh hs.1
    apply retained_of_quiet
    simp [statementsUntilBreak, Op.isQuiet]
  · rw [hs.2]
    decide +kernel

end Service

end ConnectionPool
