import ConnectionPool.Proofs.Settlements

/-!
# Waking as a relay

A wake-up is a baton. The caller that has it seeks, and is done with it, or gives up and hands it on
to the first sleeper. A property of services at rest may fail while a baton is on its way; it is
enough that a weaker one then holds, which the search of whoever runs with the baton makes good.
-/

set_option autoImplicit false

namespace ConnectionPool

namespace Service

variable {σ : Type} [Driver σ]

/-- `Rest` holds where nobody runs, and `Due` where somebody has yet to seek. `Due` looks at the two
sets of connections, at the configuration and at whether anybody sleeps, and settlements may be
added to it. -/
structure Relay (Rest Due : Service σ → Prop) : Prop where
  due : ∀ s, Rest s → Due s
  alone : ∀ s, s.waiting = [] → Due s → Rest s
  pursue : ∀ s r, Due s → Rest (s.pursue r)
  pass : ∀ s now, Rest s → Rest { s with now }
  frame : ∀ s s', s'.pool.idle = s.pool.idle → s'.pool.active = s.pool.active →
    s'.pool.config = s.pool.config → s.settlements <:+ s'.settlements →
    (s.waiting = [] → s'.waiting = []) → Due s → Due s'

namespace Relay

variable {Rest Due : Service σ → Prop} (relay : Relay Rest Due)

include relay

theorem awake (x : Sleeper) (s : Service σ) (h : Due s) : Due (s.awake x) :=
  relay.frame s (s.awake x) rfl rfl rfl List.suffix_rfl id h

theorem giveUp (r : Request) (s : Service σ) (h : Due s) :
    Due (s.settle r (.error .interrupted)) := by
  refine relay.frame s _ rfl rfl rfl ?_ id h
  rw [settlements_settle]
  exact List.suffix_cons _ _

theorem dequeue (s : Service σ) (waiting : List Sleeper) (hw : s.waiting ≠ []) (h : Due s) :
    Due { s with waiting } :=
  relay.frame s _ rfl rfl rfl List.suffix_rfl (fun hn => absurd hn hw) h

theorem resume (x : Sleeper) (s : Service σ) (h : Due s) :
    Rest (s.resume x).2 ∨ (s.resume x).1 ≠ [] ∧ Due (s.resume x).2 := by
  have ha := relay.awake x s h
  rw [resume_eq]
  split
  · unfold takeFirst
    cases hw : (s.awake x).waiting with
    | nil => exact Or.inl (relay.alone _ hw (relay.giveUp x.request _ ha))
    | cons y rest =>
      have hd := relay.dequeue (s.awake x) rest (by rw [hw]; exact List.cons_ne_nil _ _) ha
      exact Or.inr ⟨List.cons_ne_nil _ _, relay.giveUp x.request _ hd⟩
  · exact Or.inl (relay.pursue _ _ ha)

theorem rouse (woken : List Sleeper) (s : Service σ) (h : Rest s ∨ woken ≠ [] ∧ Due s) :
    Rest (s.rouse woken) := by
  fun_induction Service.rouse woken s with
  | case1 s => exact h.resolve_right fun hw => hw.1 rfl
  | case2 s x rest ih =>
    have hd : Due s := h.elim (relay.due s) And.right
    apply ih
    rcases relay.resume x s hd with hr | ⟨hw, hd⟩
    · exact Or.inl hr
    · exact Or.inr ⟨fun hn => hw (List.append_eq_nil_iff.mp hn).2, hd⟩

theorem wakeFirst (s : Service σ) (h : Due s) : Rest s.wakeFirst := by
  unfold Service.wakeFirst takeFirst
  cases hw : s.waiting with
  | nil => exact relay.rouse [] s (Or.inl (relay.alone s hw h))
  | cons x rest =>
    have hd := relay.dequeue s rest (by rw [hw]; exact List.cons_ne_nil _ _) h
    exact relay.rouse [x] _ (Or.inr ⟨List.cons_ne_nil _ _, hd⟩)

theorem elapse (target : Nat) (s : Service σ) (h : Rest s) : Rest (s.elapse target) := by
  fun_induction Service.elapse target s with
  | case1 s he => exact relay.pass s target h
  | case2 s x others he hd ih =>
    have hw : s.waiting ≠ [] := by
      intro hw
      rw [hw] at he
      exact absurd he (by simp [Sleeper.earliest])
    have hp := relay.due _ (relay.pass s (max s.now x.deadline) h)
    apply ih
    rw [timeOut_eq]
    have ho := relay.dequeue { s with now := max s.now x.deadline } others hw hp
    exact relay.rouse [x] _ (Or.inr ⟨List.cons_ne_nil _ _, ho⟩)
  | case3 s x others he hd => exact relay.pass s target h

end Relay

end Service

end ConnectionPool
