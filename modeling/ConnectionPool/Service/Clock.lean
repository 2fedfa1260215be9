import ConnectionPool.Service.Basic

/-!
# The clock

Time passes from deadline to deadline. Of the sleepers whose deadline comes no later than the target
the one with the earliest deadline wakes first, of several the one that slept first; it and whoever
it wakes have run before the clock goes on. The passage ends because each wake-up either shortens
the queue or moves one deadline forward: `lateness` adds up how far the deadlines lie before the
target.
-/

set_option autoImplicit false

namespace ConnectionPool

namespace Sleeper

/-- The sleeper with the earliest deadline, the first of several, and the others in their order. -/
def earliest : List Sleeper → Option (Sleeper × List Sleeper)
  | [] => none
  | x :: rest =>
    match earliest rest with
    | none => some (x, [])
    | some (y, others) => if x.deadline ≤ y.deadline then some (x, rest) else some (y, x :: others)

def lateness (target : Nat) : List Sleeper → Nat
  | [] => 0
  | x :: rest => target + 1 - x.deadline + lateness target rest

theorem earliest_none (queue : List Sleeper) (h : earliest queue = none) : queue = [] := by
  cases queue with
  | nil => rfl
  | cons x rest =>
    unfold earliest at h
    split at h
    · exact absurd h (by simp)
    · split at h <;> exact absurd h (by simp)

theorem earliest_perm (queue : List Sleeper) (x : Sleeper) (others : List Sleeper)
    (h : earliest queue = some (x, others)) : queue.Perm (x :: others) := by
  induction queue generalizing x others with
  | nil => simp [earliest] at h
  | cons z rest ih =>
    unfold earliest at h
    split at h
    · rename_i hn
      obtain ⟨rfl, rfl⟩ := Prod.mk.inj (Option.some.inj h)
      rw [earliest_none rest hn]
    · rename_i y ys hs
      split at h
      · obtain ⟨rfl, rfl⟩ := Prod.mk.inj (Option.some.inj h)
        exact List.Perm.refl _
      · obtain ⟨rfl, rfl⟩ := Prod.mk.inj (Option.some.inj h)
        exact ((ih y ys hs).cons z).trans (List.Perm.swap _ _ _)

theorem lateness_append (target : Nat) (a b : List Sleeper) :
    lateness target (a ++ b) = lateness target a + lateness target b := by
  induction a with
  | nil => simp [lateness]
  | cons x rest ih =>
    simp only [List.cons_append, lateness, ih]
    omega

theorem lateness_perm (target : Nat) (a b : List Sleeper) (h : a.Perm b) :
    lateness target a = lateness target b := by
  induction h with
  | nil => rfl
  | cons x h ih => simp only [lateness, ih]
  | swap x y rest =>
    simp only [lateness]
    omega
  | trans h₁ h₂ ih₁ ih₂ => exact ih₁.trans ih₂

end Sleeper

namespace Service

variable {σ : Type} [Driver σ]

/-- Wakes one sleeper at its deadline; `others` are those that sleep on. -/
def timeOut (x : Sleeper) (others : List Sleeper) (s : Service σ) : Service σ :=
  let s := { s with waiting := others, now := max s.now x.deadline }
  let (woken, s) := s.resume x
  s.rouse woken

theorem waiting_timeOut (x : Sleeper) (others : List Sleeper) (s : Service σ) :
    (s.timeOut x others).waiting.length ≤ others.length ∨
      ∃ y, (s.timeOut x others).waiting = others ++ [y] ∧ x.deadline < y.deadline := by
  unfold timeOut resume
  dsimp only
  split
  · left
    refine Nat.le_trans (length_rouse _ _) ?_
    rw [waiting_settle]
    unfold takeFirst
    dsimp only [note]
    split <;> simp
  · rw [rouse]
    rcases waiting_pursue (σ := σ) x.request _ with h | ⟨y, h, hy⟩
    · exact Or.inl (Nat.le_of_eq (congrArg List.length h))
    · refine Or.inr ⟨y, h, ?_⟩
      dsimp only [note] at hy
      omega

def elapse (target : Nat) (s : Service σ) : Service σ :=
  match _he : Sleeper.earliest s.waiting with
  | none => { s with now := target }
  | some (x, others) =>
    if _hd : x.deadline ≤ target then elapse target (s.timeOut x others)
    else { s with now := target }
termination_by (s.waiting.length, Sleeper.lateness target s.waiting)
decreasing_by
  have hp := Sleeper.earliest_perm _ _ _ _he
  have hl := hp.length_eq
  have ht := Sleeper.lateness_perm target _ _ hp
  rw [List.length_cons] at hl
  rcases waiting_timeOut x others s with hq | ⟨y, hq, hy⟩
  · exact Prod.Lex.left _ _ (by omega)
  · rw [hq]
    have hn : (others ++ [y]).length = s.waiting.length := by simp [hl]
    rw [hn]
    refine Prod.Lex.right _ ?_
    rw [ht, Sleeper.lateness_append]
    simp only [Sleeper.lateness]
    omega

def advance (span : Nat) (s : Service σ) : Service σ := s.elapse (s.now + span)

end Service

end ConnectionPool
