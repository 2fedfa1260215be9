import ConnectionPool.Pool.Seek

/-!
# Callers

A service is a pool with its clock, the handles it has given out, the tokens that can interrupt its
callers, and the callers that sleep because the pool was saturated, in the order in which their
present sleep began. One caller runs at a time. A caller that is woken seeks again, unless its
token has been cancelled: then it wakes the first sleeper in its place and gives up. Callers that
are woken together run in the order in which they were woken, and whoever they wake runs after them.
A sleep ends at its deadline at the latest, and no deadline is the present instant: a waiting time
of zero counts as one tick of the clock.
-/

set_option autoImplicit false

namespace ConnectionPool

structure Handle where
  caller : Nat
  entry : Entry
  released : Bool := false
  deriving DecidableEq, Repr

structure Sleeper where
  request : Request
  since : Nat
  deadline : Nat
  deriving DecidableEq, Repr

def Sleeper.start (request : Request) (now wait : Nat) : Sleeper where
  request := request
  since := now
  deadline := now + max 1 wait

theorem Sleeper.now_lt_deadline (r : Request) (now wait : Nat) :
    now < (Sleeper.start r now wait).deadline := by
  simp only [Sleeper.start]
  omega

structure Service (σ : Type) where
  pool : Pool σ
  now : Nat := 0
  /-- The pool has not been dropped. -/
  isLive : Bool := true
  handles : List Handle := []
  /-- For each token whether it has been cancelled. -/
  tokens : List Bool := []
  waiting : List Sleeper := []
  callers : Nat := 0

namespace Service

variable {σ : Type}

def isCancelled (token : Option Nat) (s : Service σ) : Bool :=
  token.any fun t => (s.tokens[t]?).getD false

def isValid (h : Handle) (s : Service σ) : Bool :=
  !h.released && s.pool.status h.entry.id == .valid

def note (event : Event) (s : Service σ) : Service σ := { s with pool := s.pool.note event }

def settle (r : Request) (result : Except PoolError Entry) (s : Service σ) : Service σ :=
  let s := s.note (.settled r.caller s.now result)
  match result with
  | .ok entry => { s with handles := s.handles ++ [{ caller := r.caller, entry }] }
  | .error _ => s

def sleep (r : Request) (s : Service σ) : Service σ :=
  let s := s.note (.slept r.caller)
  { s with waiting := s.waiting ++ [Sleeper.start r s.now s.pool.config.timeToWait] }

/-- An acquisition is counted as having had to wait when it first finds the pool saturated. -/
def countWait (r : Request) (s : Service σ) : Service σ :=
  if r.hasWaited then s else { s with pool := { s.pool with tally := s.pool.tally.addWait } }

def block (r : Request) (s : Service σ) : Service σ :=
  let s := s.countWait r
  if s.isCancelled r.token then s.settle r (.error .interrupted)
  else s.sleep { r with hasWaited := true }

def takeFirst (s : Service σ) : List Sleeper × Service σ :=
  match s.waiting with
  | [] => ([], s)
  | x :: rest => ([x], { s with waiting := rest })

theorem waiting_settle (r : Request) (result : Except PoolError Entry) (s : Service σ) :
    (s.settle r result).waiting = s.waiting := by
  cases result <;> rfl

theorem waiting_countWait (r : Request) (s : Service σ) :
    (s.countWait r).waiting = s.waiting := by
  unfold countWait
  split <;> rfl

theorem now_countWait (r : Request) (s : Service σ) : (s.countWait r).now = s.now := by
  unfold countWait
  split <;> rfl

theorem waiting_block (r : Request) (s : Service σ) :
    (s.block r).waiting = s.waiting ∨
      ∃ x, (s.block r).waiting = s.waiting ++ [x] ∧ s.now < x.deadline := by
  unfold block
  dsimp only
  split
  · left
    rw [waiting_settle, waiting_countWait]
  · right
    refine ⟨_, congrArg (· ++ _) (waiting_countWait r s), ?_⟩
    rw [← now_countWait r s]
    exact Sleeper.now_lt_deadline _ _ _

variable [Driver σ]

def pursue (r : Request) (s : Service σ) : Service σ :=
  match s.pool.seek s.now r with
  | (.granted entry, pool) => { s with pool }.settle r (.ok entry)
  | (.failed error, pool) => { s with pool }.settle r (.error error)
  | (.saturated r, pool) => { s with pool }.block r

/-- Lets a woken caller go on. Answers whom it has woken in turn. -/
def resume (x : Sleeper) (s : Service σ) : List Sleeper × Service σ :=
  let slept := s.now - x.since
  let s := { s with pool := { s.pool with tally := s.pool.tally.addWaitTime slept } }
  let s := s.note (.woke x.request.caller slept)
  if s.isCancelled x.request.token then
    let (woken, s) := s.takeFirst
    (woken, s.settle x.request (.error .interrupted))
  else ([], s.pursue x.request)

theorem waiting_pursue (r : Request) (s : Service σ) :
    (s.pursue r).waiting = s.waiting ∨
      ∃ x, (s.pursue r).waiting = s.waiting ++ [x] ∧ s.now < x.deadline := by
  unfold pursue
  split
  · exact Or.inl (waiting_settle _ _ _)
  · exact Or.inl (waiting_settle _ _ _)
  · exact waiting_block _ _

theorem length_pursue (r : Request) (s : Service σ) :
    (s.pursue r).waiting.length ≤ s.waiting.length + 1 := by
  rcases waiting_pursue r s with h | ⟨x, h, -⟩ <;> simp [h]

/-- A woken caller either gives up, and then what it wakes comes out of the queue, or goes on. -/
theorem length_resume (x : Sleeper) (s : Service σ) :
    (s.resume x).2.waiting.length + (s.resume x).1.length ≤ s.waiting.length ∧
        (s.resume x).1.length ≤ 1 ∨
      (s.resume x).1 = [] ∧ (s.resume x).2.waiting.length ≤ s.waiting.length + 1 := by
  unfold resume
  dsimp only
  split
  · left
    unfold takeFirst
    dsimp only [note]
    split <;> rename_i h <;> simp [waiting_settle, h]
  · right
    refine ⟨rfl, ?_⟩
    exact length_pursue _ _

/-- Runs callers that have been woken, and those they wake, until none is left. -/
def rouse (woken : List Sleeper) (s : Service σ) : Service σ :=
  match woken with
  | [] => s
  | x :: rest => rouse (rest ++ (s.resume x).1) (s.resume x).2
termination_by s.waiting.length + 2 * woken.length
decreasing_by
  simp only [List.length_append, List.length_cons]
  rcases length_resume x s with ⟨h, hl⟩ | ⟨h, hl⟩
  · omega
  · simp only [h, List.length_nil]
    omega

def wakeFirst (s : Service σ) : Service σ :=
  let (woken, s) := s.takeFirst
  s.rouse woken

def wakeAll (s : Service σ) : Service σ := { s with waiting := [] }.rouse s.waiting

theorem length_rouse (woken : List Sleeper) (s : Service σ) :
    (s.rouse woken).waiting.length ≤ s.waiting.length + woken.length := by
  fun_induction rouse woken s with
  | case1 s => simp
  | case2 s x rest ih =>
    simp only [List.length_append, List.length_cons] at ih ⊢
    rcases length_resume x s with ⟨h, hl⟩ | ⟨h, hl⟩
    · omega
    · have hw := congrArg List.length h
      simp only [List.length_nil] at hw
      omega

end Service

end ConnectionPool
