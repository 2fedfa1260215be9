import ConnectionPool.Proofs.Turns
import ConnectionPool.Service.Run

/-!
# Moves of a service

An operation that callers take part in does what it does by moves: a caller comes, takes a turn, is
granted its candidate, sleeps, wakes or gives up, a handle comes back, the clock goes on, and so
forth. A moment is a service with the candidate that the running caller has in hand, and between two
steps no hand is full. Any other operation is a command, which takes effect at once, or a call that
a handle passes on. So an invariant of moments is proved once for each move, each command and the
calls on handles, and holds after every run.
-/

set_option autoImplicit false

namespace ConnectionPool

namespace Sleeper

theorem earliest_sublist (queue : List Sleeper) (x : Sleeper) (others : List Sleeper)
    (h : earliest queue = some (x, others)) : others.Sublist queue := by
  induction queue generalizing x others with
  | nil => simp [earliest] at h
  | cons z rest ih =>
    unfold earliest at h
    split at h
    · obtain ⟨rfl, rfl⟩ := Prod.mk.inj (Option.some.inj h)
      exact List.nil_sublist _
    · rename_i y ys hs
      split at h
      · obtain ⟨rfl, rfl⟩ := Prod.mk.inj (Option.some.inj h)
        exact List.sublist_cons_self _ _
      · obtain ⟨rfl, rfl⟩ := Prod.mk.inj (Option.some.inj h)
        exact (ih y ys hs).cons_cons z

end Sleeper

def Op.isCommand {σ : Type} : Op σ → Bool
  | issueToken | reset | reconfigure _ | shutDown | meddle _ => true
  | acquire _ | call _ _ | release _ | advance _ | cancel _ => false

namespace Service

variable {σ : Type}

/-- Books the sleep of a caller that has been woken. -/
def awake (x : Sleeper) (s : Service σ) : Service σ :=
  { s with pool := { s.pool with tally := s.pool.tally.addWaitTime (s.now - x.since) } }.note
    (.woke x.request.caller (s.now - x.since))

theorem status_of_isValid (handle : Handle) (s : Service σ) (h : s.isValid handle = true) :
    s.pool.status handle.entry.id = .valid := by
  simpa using (Bool.and_eq_true_iff.mp h).2

theorem now_settle (r : Request) (result : Except PoolError Entry) (s : Service σ) :
    (s.settle r result).now = s.now := by
  cases result <;> rfl

theorem now_block (r : Request) (s : Service σ) : (s.block r).now = s.now := by
  unfold block
  dsimp only
  split
  · rw [now_settle, now_countWait]
  · exact now_countWait r s

theorem limits_block (r : Request) (s : Service σ) :
    (s.block r).pool.active = s.pool.active ∧ (s.block r).pool.config = s.pool.config := by
  unfold block countWait
  dsimp only
  split <;> split <;> exact ⟨rfl, rfl⟩

variable [Driver σ]

theorem resume_eq (x : Sleeper) (s : Service σ) :
    s.resume x =
      if (s.awake x).isCancelled x.request.token then
        ((s.awake x).takeFirst.1,
          (s.awake x).takeFirst.2.settle x.request (.error .interrupted))
      else ([], (s.awake x).pursue x.request) := rfl

theorem timeOut_eq (x : Sleeper) (others : List Sleeper) (s : Service σ) :
    s.timeOut x others =
      { s with waiting := others, now := max s.now x.deadline }.rouse [x] := by
  rw [rouse]
  rfl

/-- What is left to do of a return once the connection has been taken back is to wake a caller. -/
def takeBack (i : Nat) (handle : Handle) (s : Service σ) : Service σ :=
  { s with
    pool := (s.pool.takeBack s.now handle.entry).2
    handles := s.handles.set i { handle with released := true } }

theorem release_eq (s : Service σ) (i : Nat) (handle : Handle)
    (hh : s.handles[i]? = some handle) (hr : handle.released = false) :
    s.release i =
      if (s.pool.takeBack s.now handle.entry).1 then (s.takeBack i handle).wakeFirst
      else s.takeBack i handle := by
  unfold release
  rw [hh]
  exact if_neg (by simp [hr])

theorem release_cases (s : Service σ) (i : Nat) :
    s.release i = s ∨
      ∃ handle, s.handles[i]? = some handle ∧ handle.released = false ∧
        s.release i =
          if (s.pool.takeBack s.now handle.entry).1 then (s.takeBack i handle).wakeFirst
          else s.takeBack i handle := by
  cases hh : s.handles[i]? with
  | none =>
    left
    unfold release
    rw [hh]
  | some handle =>
    cases hr : handle.released with
    | true =>
      left
      unfold release
      rw [hh]
      exact if_pos hr
    | false => exact Or.inr ⟨handle, rfl, hr, release_eq s i handle hh hr⟩

inductive Move : Option Entry × Service σ → Option Entry × Service σ → Prop
  /-- A token is marked when all who slept have been called. -/
  | mark (s : Service σ) (token : Nat) (hw : s.waiting = []) :
      Move (none, s) (none, { s with tokens := s.tokens.set token true })
  | come (s : Service σ) : Move (none, s) (none, { s with callers := s.callers + 1 })
  | pass (s : Service σ) (now : Nat) (h : s.now ≤ now) : Move (none, s) (none, { s with now })
  | leave (s : Service σ) (waiting : List Sleeper) (h : waiting.Sublist s.waiting) :
      Move (none, s) (none, { s with waiting })
  | awake (s : Service σ) (x : Sleeper) : Move (none, s) (none, s.awake x)
  | countWait (s : Service σ) (r : Request) : Move (none, s) (none, s.countWait r)
  | sleep (s : Service σ) (r : Request) (hs : s.pool.Saturated)
      (hc : s.isCancelled r.token = false) : Move (none, s) (none, s.sleep r)
  | fail (s : Service σ) (r : Request) (error : PoolError) :
      Move (none, s) (none, s.settle r (.error error))
  | turn (s : Service σ) (caller : Nat) (hand hand' : Option Entry) (q : Pool σ)
      (h : Pool.Turn s.now caller (hand, s.pool) (hand', q)) :
      Move (hand, s) (hand', { s with pool := q })
  | grant (s : Service σ) (r : Request) (e : Entry) (q : Pool σ)
      (h : s.pool.examine s.now r.caller e = (true, q)) :
      Move (some e, s)
        (none, { s with pool := (q.grant s.now r e).2 }.settle r (.ok (q.grant s.now r e).1))
  | takeBack (s : Service σ) (i : Nat) (handle : Handle) (hh : s.handles[i]? = some handle)
      (hr : handle.released = false) :
      Move (none, s) (none, s.takeBack i handle)

abbrev Moves : Option Entry × Service σ → Option Entry × Service σ → Prop :=
  Relation.ReflTransGen Move

theorem turns_moves (s : Service σ) (caller : Nat) (hand : Option Entry)
    (m : Option Entry × Pool σ) (h : Pool.Turns s.now caller (hand, s.pool) m) :
    Moves (hand, s) (m.1, { s with pool := m.2 }) := by
  induction h with
  | refl => exact .refl
  | tail _ ht ih => exact ih.tail (.turn _ caller _ _ _ ht)

theorem block_moves (s : Service σ) (r : Request) (hs : s.pool.Saturated) :
    Moves (none, s) (none, s.block r) := by
  have hc : Moves (none, s) (none, s.countWait r) := .single (.countWait s r)
  unfold block
  dsimp only
  split
  · exact hc.tail (.fail _ r .interrupted)
  · rename_i hn
    refine hc.tail (.sleep _ _ ?_ (by simpa using hn))
    unfold countWait
    split <;> exact hs

theorem pursue_moves (s : Service σ) (r : Request) : Moves (none, s) (none, s.pursue r) := by
  have he := Pool.seek_ends s.now r s.pool
  unfold pursue
  generalize s.pool.seek s.now r = found at he
  obtain ⟨outcome, q⟩ := found
  cases outcome with
  | granted lent =>
    obtain ⟨e, p₁, p₂, ht, hx, hg⟩ := he
    obtain ⟨rfl, rfl⟩ := Prod.mk.inj hg
    exact (turns_moves s r.caller none _ ht).tail (.grant { s with pool := p₁ } r e p₂ hx)
  | failed error => exact (turns_moves s r.caller none _ he.1).tail (.fail _ r error)
  | saturated r' =>
    obtain ⟨ht, hs, -, -⟩ := he
    exact (turns_moves s r.caller none _ ht).trans (block_moves _ r' hs)

omit [Driver σ] in
theorem takeFirst_rest (s : Service σ) :
    s.takeFirst.2 = { s with waiting := s.waiting.tail } := by
  unfold takeFirst
  split
  · rename_i hw
    have ht : s.waiting.tail = s.waiting := by
      rw [hw]
      rfl
    rw [ht]
  · rename_i x rest hw
    rw [hw]
    rfl

theorem takeFirst_moves (s : Service σ) : Moves (none, s) (none, s.takeFirst.2) := by
  rw [takeFirst_rest]
  exact .single (.leave s _ (List.tail_sublist _))

theorem resume_moves (s : Service σ) (x : Sleeper) :
    Moves (none, s) (none, (s.resume x).2) := by
  have ha : Moves (none, s) (none, s.awake x) := .single (.awake s x)
  rw [resume_eq]
  split
  · exact (ha.trans (takeFirst_moves _)).tail (.fail _ x.request .interrupted)
  · exact ha.trans (pursue_moves _ x.request)

theorem rouse_moves (s : Service σ) (woken : List Sleeper) :
    Moves (none, s) (none, s.rouse woken) := by
  fun_induction rouse woken s with
  | case1 s => exact .refl
  | case2 s x rest ih => exact (resume_moves s x).trans ih

theorem timeOut_moves (s : Service σ) (x : Sleeper) (others : List Sleeper)
    (h : others.Sublist s.waiting) : Moves (none, s) (none, s.timeOut x others) := by
  rw [timeOut_eq]
  have hp : Moves (none, s) (none, { s with now := max s.now x.deadline }) :=
    .single (.pass s _ (Nat.le_max_left _ _))
  exact (hp.tail (.leave _ others h)).trans (rouse_moves _ [x])

theorem now_pursue (r : Request) (s : Service σ) : (s.pursue r).now = s.now := by
  unfold pursue
  split
  · exact now_settle _ _ _
  · exact now_settle _ _ _
  · exact now_block _ _

theorem now_resume (x : Sleeper) (s : Service σ) : (s.resume x).2.now = s.now := by
  rw [resume_eq]
  split
  · rw [now_settle, takeFirst_rest]
    rfl
  · exact now_pursue _ _

theorem now_rouse (woken : List Sleeper) (s : Service σ) : (s.rouse woken).now = s.now := by
  fun_induction rouse woken s with
  | case1 s => rfl
  | case2 s x rest ih => exact ih.trans (now_resume x s)

theorem now_timeOut (x : Sleeper) (others : List Sleeper) (s : Service σ) :
    (s.timeOut x others).now = max s.now x.deadline := by
  rw [timeOut_eq, now_rouse]

theorem call_eq_forward (s : Service σ) (i : Nat) (c : Call) (hc : c ≠ .close) :
    s.call i c = s.forward i c := by
  cases c <;> first | rfl | exact absurd rfl hc

/-- A call that is passed on leaves the books alone, unless it meets a fatal error: then the entry
is spoiled. -/
theorem forward_cases (s : Service σ) (i : Nat) (c : Call) :
    (s.forward i c).2 = { s with pool := (s.forward i c).2.pool } ∧
      ((s.forward i c).2.pool.books = s.pool.books ∨
        ∃ handle error, s.handles[i]? = some handle ∧ s.isValid handle = true ∧
          (s.forward i c).1 = .error error ∧ error.isFatal = true ∧
          (s.forward i c).2.pool.books =
            s.pool.books.retire handle.entry.id .invalidated) := by
  unfold forward
  cases hh : s.handles[i]? with
  | none => exact ⟨rfl, Or.inl rfl⟩
  | some handle =>
    dsimp only
    split
    · rename_i hv
      have hb : { s.pool with
          backend := (s.pool.backend.call handle.entry.channel c).2 }.books = s.pool.books := by
        simp only [Pool.books, Backend.record_call]
      cases hr : (s.pool.backend.call handle.entry.channel c).1 with
      | ok value => exact ⟨rfl, Or.inl hb⟩
      | error e =>
        dsimp only
        constructor
        · rfl
        · split
          · rename_i hf
            refine Or.inr ⟨handle, e, rfl, hv, rfl, hf, ?_⟩
            rw [Pool.books_retire, hb]
          · exact Or.inl hb
    · exact ⟨rfl, Or.inl rfl⟩

theorem forward_frame (s : Service σ) (i : Nat) (c : Call) :
    (s.forward i c).2.waiting = s.waiting ∧ (s.forward i c).2.pool.idle = s.pool.idle ∧
      (s.forward i c).2.pool.active = s.pool.active ∧
      (s.forward i c).2.pool.config = s.pool.config := by
  obtain ⟨hs, hb⟩ := forward_cases s i c
  constructor
  · rw [hs]
  · rcases hb with hb | ⟨handle, error, -, -, -, -, hb⟩ <;>
      exact ⟨congrArg Books.idle hb, congrArg Books.active hb, congrArg Books.config hb⟩

theorem elapse_moves (s : Service σ) (target : Nat) (hn : s.now ≤ target) :
    Moves (none, s) (none, s.elapse target) := by
  fun_induction elapse target s with
  | case1 s he => exact .single (.pass s target hn)
  | case2 s x others he hd ih =>
    have ht := timeOut_moves s x others (Sleeper.earliest_sublist _ _ _ he)
    exact ht.trans (ih (by rw [now_timeOut]; exact Nat.max_le.mpr ⟨hn, hd⟩))
  | case3 s x others he hd => exact .single (.pass s target hn)

theorem elapse_undue (target : Nat) (s : Service σ) (h : ∀ x ∈ s.waiting, target < x.deadline) :
    s.elapse target = { s with now := target } := by
  unfold elapse
  split
  · rfl
  · rename_i x others he
    have hp := Sleeper.earliest_perm _ _ _ he
    exact dif_neg (Nat.not_le_of_lt (h x (hp.symm.subset List.mem_cons_self)))

theorem elapse_unwaited (target : Nat) (s : Service σ) (hw : s.waiting = []) :
    s.elapse target = { s with now := target } :=
  elapse_undue target s (by simp [hw])

theorem wakeFirst_moves (s : Service σ) : Moves (none, s) (none, s.wakeFirst) :=
  (takeFirst_moves s).trans (rouse_moves _ _)

theorem release_moves (s : Service σ) (i : Nat) : Moves (none, s) (none, s.release i) := by
  rcases release_cases s i with hs | ⟨handle, hh, hr, hs⟩
  · rw [hs]
  · have ht : Moves (none, s) (none, s.takeBack i handle) := .single (.takeBack s i handle hh hr)
    rw [hs]
    split
    · exact ht.trans (wakeFirst_moves _)
    · exact ht

theorem cancel_moves (s : Service σ) (token : Nat) : Moves (none, s) (none, s.cancel token) := by
  have hl : Moves (none, s) (none, { s with waiting := [] }) :=
    .single (.leave s [] (List.nil_sublist _))
  exact (hl.tail (.mark _ token rfl)).trans (rouse_moves _ s.waiting)

inductive Command : Op σ → Service σ → Service σ → Prop
  | meddle (s : Service σ) (f : σ → σ) : Command (.meddle f) s (s.meddle f)
  | issueToken (s : Service σ) (hl : s.isLive = true) : Command .issueToken s s.issueToken
  | reset (s : Service σ) (hl : s.isLive = true) : Command .reset s s.reset
  | reconfigure (s : Service σ) (update : Config → Config) (hl : s.isLive = true) :
      Command (.reconfigure update) s (s.reconfigure update).2
  | shutDown (s : Service σ) (hl : s.isLive = true) (hw : s.waiting = []) :
      Command .shutDown s s.shutDown

theorem step_command (s : Service σ) (op : Op σ) (h : op.isCommand = true) :
    step op s = s ∨ Command op s (step op s) := by
  cases op with
  | acquire form | call h c | release h | advance span | cancel token => exact Bool.noConfusion h
  | meddle f => exact Or.inr (.meddle s f)
  | issueToken =>
    simp only [step]
    split
    · exact Or.inr (.issueToken s (by assumption))
    · exact Or.inl rfl
  | reset =>
    simp only [step]
    split
    · exact Or.inr (.reset s (by assumption))
    · exact Or.inl rfl
  | reconfigure update =>
    simp only [step]
    split
    · exact Or.inr (.reconfigure s update (by assumption))
    · exact Or.inl rfl
  | shutDown =>
    simp only [step]
    split
    · rename_i hs
      obtain ⟨hl, hw⟩ := Bool.and_eq_true_iff.mp hs
      exact Or.inr (.shutDown s hl (List.isEmpty_iff.mp hw))
    · exact Or.inl rfl

theorem step_moves (s : Service σ) (op : Op σ) :
    Moves (none, s) (none, step op s) ∨ Command op s (step op s) ∨
      ∃ h c, op = .call h c ∧ c ≠ .close ∧ s.call h c = s.forward h c := by
  by_cases ho : op.isCommand = true
  · rcases step_command s op ho with h | h
    · left
      rw [h]
    · exact Or.inr (Or.inl h)
  · cases op with
    | call h c =>
      by_cases hc : c = .close
      · subst hc
        exact Or.inl (release_moves s h)
      · exact Or.inr (Or.inr ⟨h, c, rfl, hc, call_eq_forward s h c hc⟩)
    | acquire form =>
      left
      simp only [step]
      split
      · exact (Relation.ReflTransGen.single (Move.come s)).trans (pursue_moves _ _)
      · exact .refl
    | release h => exact Or.inl (release_moves s h)
    | advance span => exact Or.inl (elapse_moves s _ (Nat.le_add_right _ _))
    | cancel token => exact Or.inl (cancel_moves s token)
    | issueToken | reset | reconfigure update | shutDown | meddle f => exact absurd rfl ho

theorem moves_keep (Inv : Option Entry → Service σ → Prop)
    (hm : ∀ m m', Move m m' → Inv m.1 m.2 → Inv m'.1 m'.2) (m m' : Option Entry × Service σ)
    (h : Moves m m') (hi : Inv m.1 m.2) : Inv m'.1 m'.2 := by
  induction h with
  | refl => exact hi
  | tail _ ht ih => exact hm _ _ ht ih

theorem step_keeps (Inv : Option Entry → Service σ → Prop)
    (hm : ∀ m m', Move m m' → Inv m.1 m.2 → Inv m'.1 m'.2)
    (hf : ∀ s h c, c ≠ .close → Inv none s → Inv none (s.forward h c).2) (op : Op σ)
    (hc : ∀ s s', Command op s s' → Inv none s → Inv none s') (s : Service σ)
    (hi : Inv none s) : Inv none (step op s) := by
  rcases step_moves s op with h | h | ⟨i, c, rfl, hn, h⟩
  · exact moves_keep Inv hm _ _ h hi
  · exact hc s _ h hi
  · show Inv none (s.call i c).2
    rw [h]
    exact hf s i c hn hi

/-- What every move, every call on a handle and the commands of a run preserve holds after the
run. -/
theorem run_keeps (Inv : Option Entry → Service σ → Prop)
    (hm : ∀ m m', Move m m' → Inv m.1 m.2 → Inv m'.1 m'.2)
    (hf : ∀ s h c, c ≠ .close → Inv none s → Inv none (s.forward h c).2) (ops : List (Op σ))
    (hc : ∀ op ∈ ops, ∀ s s', Command op s s' → Inv none s → Inv none s') (s : Service σ)
    (hi : Inv none s) : Inv none (run ops s) := by
  induction ops generalizing s with
  | nil => exact hi
  | cons op rest ih =>
    have hs := step_keeps Inv hm hf op (hc op List.mem_cons_self) s hi
    exact ih (fun o ho => hc o (List.mem_cons_of_mem op ho)) (step op s) hs

theorem run_append (ops rest : List (Op σ)) (s : Service σ) :
    run (ops ++ rest) s = run rest (run ops s) := by
  induction ops generalizing s with
  | nil => rfl
  | cons op ops ih => exact ih _

theorem run_advance_undue (before after : List (Op σ)) (s : Service σ) (span target : Nat)
    (hn : (run before s).now + span = target)
    (hw : ∀ x ∈ (run before s).waiting, target < x.deadline) :
    run (before ++ .advance span :: after) s =
      run after { run before s with now := target } := by
  rw [run_append, ← elapse_undue target _ hw, ← hn]
  rfl

end Service

end ConnectionPool
