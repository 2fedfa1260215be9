import ConnectionPool.Proofs.Moves

/-!
# Deadlines

No caller oversleeps: between two operations the deadline of every sleeper lies ahead. A passage of
time wakes first whoever has the earliest deadline, so no later deadline is passed meanwhile.
-/

set_option autoImplicit false

namespace ConnectionPool

namespace Sleeper

theorem deadline_of_earliest (queue : List Sleeper) (x : Sleeper) (others : List Sleeper)
    (h : earliest queue = some (x, others)) : ∀ y ∈ queue, x.deadline ≤ y.deadline := by
  induction queue generalizing x others with
  | nil => simp [earliest] at h
  | cons z rest ih =>
    unfold earliest at h
    split at h
    · rename_i hn
      obtain ⟨rfl, -⟩ := Prod.mk.inj (Option.some.inj h)
      rw [earliest_none rest hn]
      intro y hy
      exact Nat.le_of_eq (congrArg deadline (List.mem_singleton.mp hy).symm)
    · rename_i y ys hs
      have hr := ih y ys hs
      split at h
      · obtain ⟨rfl, -⟩ := Prod.mk.inj (Option.some.inj h)
        intro w hw
        rcases List.mem_cons.mp hw with rfl | hw
        · exact Nat.le_refl _
        · exact Nat.le_trans (by assumption) (hr w hw)
      · obtain ⟨rfl, -⟩ := Prod.mk.inj (Option.some.inj h)
        intro w hw
        rcases List.mem_cons.mp hw with rfl | hw
        · omega
        · exact hr w hw

end Sleeper

namespace Service

variable {σ : Type} {s s' : Service σ}

def OnTime (s : Service σ) : Prop := ∀ x ∈ s.waiting, s.now < x.deadline

theorem OnTime.sublist (h : s.OnTime) (hw : s'.waiting.Sublist s.waiting) (hn : s'.now = s.now) :
    s'.OnTime := by
  intro x hx
  rw [hn]
  exact h x (hw.subset hx)

theorem onTime_takeFirst (h : s.OnTime) : s.takeFirst.2.OnTime := by
  rw [takeFirst_rest]
  exact h.sublist (List.tail_sublist _) rfl

variable [Driver σ]

theorem onTime_pursue (r : Request) (h : s.OnTime) : (s.pursue r).OnTime := by
  intro x hx
  rw [now_pursue]
  rcases waiting_pursue r s with hw | ⟨y, hw, hy⟩
  · exact h x (hw ▸ hx)
  · rw [hw] at hx
    rcases List.mem_append.mp hx with hx | hx
    · exact h x hx
    · exact List.mem_singleton.mp hx ▸ hy

theorem onTime_resume (x : Sleeper) (h : s.OnTime) : (s.resume x).2.OnTime := by
  rw [resume_eq]
  split
  · exact onTime_takeFirst (s := s.awake x) h
  · exact onTime_pursue x.request (s := s.awake x) h

theorem onTime_rouse (woken : List Sleeper) (h : s.OnTime) : (s.rouse woken).OnTime := by
  fun_induction rouse woken s with
  | case1 s => exact h
  | case2 s x rest ih => exact ih (onTime_resume x h)

theorem onTime_elapse (target : Nat) (s : Service σ) : (s.elapse target).OnTime := by
  fun_induction elapse target s with
  | case1 s he =>
    intro x hx
    change x ∈ s.waiting at hx
    rw [Sleeper.earliest_none s.waiting he] at hx
    exact absurd hx List.not_mem_nil
  | case2 s x others he hd ih => exact ih
  | case3 s x others he hd =>
    intro y hy
    exact Nat.lt_of_lt_of_le (Nat.lt_of_not_le hd)
      (Sleeper.deadline_of_earliest s.waiting x others he y hy)

theorem onTime_release (i : Nat) (h : s.OnTime) : (s.release i).OnTime := by
  rcases release_cases s i with hs | ⟨handle, -, -, hs⟩
  · rw [hs]
    exact h
  · have ht : (s.takeBack i handle).OnTime := h
    rw [hs]
    split
    · exact onTime_rouse _ (onTime_takeFirst ht)
    · exact ht

theorem onTime_step (op : Op σ) (h : s.OnTime) : (step op s).OnTime := by
  cases op with
  | acquire form =>
    simp only [step]
    split
    · exact onTime_pursue _ h
    · exact h
  | call i c =>
    cases c with
    | close => exact onTime_release i h
    | isClosed | autoCommit | setAutoCommit enabled | commit | rollback | execute sql =>
      simp only [step, call]
      rw [(forward_cases s i _).1]
      exact h
  | release i => exact onTime_release i h
  | advance span => exact onTime_elapse _ s
  | cancel token => exact onTime_rouse _ (fun x hx => absurd hx List.not_mem_nil)
  | issueToken | reset | reconfigure update | shutDown =>
    simp only [step]
    split <;> exact h
  | meddle f => exact h

theorem onTime_run (ops : List (Op σ)) (h : s.OnTime) : (run ops s).OnTime := by
  induction ops generalizing s with
  | nil => exact h
  | cons op rest ih => exact ih (onTime_step op h)

end Service

end ConnectionPool
