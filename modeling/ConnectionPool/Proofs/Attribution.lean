import ConnectionPool.Proofs.Resets
import Mathlib.Data.List.Induction

/-!
# Attribution

Each sleeper and each lease stems from one acquisition. The credentials that a caller came with may
be its own, or those of a configuration that was given up while the caller waited; it keeps them
until it is lent a connection, and they decide the type code of the lease. Moves do not show whose
request they serve, so what a caller keeps is followed from its search through sleeping and waking.
-/

set_option autoImplicit false

namespace ConnectionPool

namespace Service

variable {σ : Type} {s s' : Service σ}

structure Attributed (asked : Nat → Credentials → Prop) (s : Service σ) : Prop where
  waiting : ∀ x ∈ s.waiting, asked x.request.caller x.request.credentials
  lent : ∀ e ∈ s.pool.active, ∃ handle ∈ s.handles, handle.entry = e ∧ ∃ credentials,
    asked handle.caller credentials ∧
      e.typeCode = Login.typeCode ⟨s.pool.config.url, credentials⟩

namespace Attributed

variable {asked : Nat → Credentials → Prop}

theorem mono {asked' : Nat → Credentials → Prop} (k : Attributed asked s)
    (ha : ∀ caller credentials, asked caller credentials → asked' caller credentials) :
    Attributed asked' s where
  waiting x hx := ha _ _ (k.waiting x hx)
  lent e he := by
    obtain ⟨handle, hm, hentry, credentials, hasked, htype⟩ := k.lent e he
    exact ⟨handle, hm, hentry, credentials, ha _ _ hasked, htype⟩

theorem shrink (k : Attributed asked s) (hw : s'.waiting ⊆ s.waiting)
    (ha : s'.pool.active ⊆ s.pool.active) (hc : s'.pool.config = s.pool.config)
    (hh : ∀ handle ∈ s.handles, ∃ handle' ∈ s'.handles,
      handle'.entry = handle.entry ∧ handle'.caller = handle.caller) : Attributed asked s' where
  waiting x hx := k.waiting x (hw hx)
  lent e he := by
    obtain ⟨handle, hm, hentry, credentials, hasked, htype⟩ := k.lent e (ha he)
    obtain ⟨handle', hm', hentry', hcaller⟩ := hh handle hm
    exact ⟨handle', hm', hentry'.trans hentry, credentials, hcaller ▸ hasked, hc ▸ htype⟩

theorem settle_error (k : Attributed asked s) (r : Request) (error : PoolError) :
    Attributed asked (s.settle r (.error error)) := ⟨k.waiting, k.lent⟩

theorem sleep (k : Attributed asked s) {r : Request} (hr : asked r.caller r.credentials) :
    Attributed asked (s.sleep r) where
  waiting x hx := by
    rcases List.mem_append.mp hx with hx | hx
    · exact k.waiting x hx
    · rw [List.mem_singleton.mp hx]
      exact hr
  lent := k.lent

theorem block (k : Attributed asked s) {r : Request} (hr : asked r.caller r.credentials) :
    Attributed asked (s.block r) := by
  have hc : Attributed asked (s.countWait r) := by
    unfold countWait
    split
    · exact k
    · exact ⟨k.waiting, k.lent⟩
  unfold Service.block
  dsimp only
  split
  · exact hc.settle_error r .interrupted
  · exact hc.sleep hr

theorem takeFirst (k : Attributed asked s) :
    (∀ x ∈ s.takeFirst.1, asked x.request.caller x.request.credentials) ∧
      Attributed asked s.takeFirst.2 := by
  unfold Service.takeFirst
  split
  · exact ⟨fun x hx => absurd hx List.not_mem_nil, k⟩
  · rename_i x rest hw
    have hx : ∀ y ∈ x :: rest, asked y.request.caller y.request.credentials := hw ▸ k.waiting
    refine ⟨fun y hy => ?_, fun y hy => hx y (List.mem_cons_of_mem x hy), k.lent⟩
    exact List.mem_singleton.mp hy ▸ hx x List.mem_cons_self

variable [Driver σ]

theorem pursue (k : Attributed asked s) {r : Request} (hr : asked r.caller r.credentials) :
    Attributed asked (s.pursue r) := by
  have he := Pool.seek_ends s.now r s.pool
  unfold Service.pursue
  generalize s.pool.seek s.now r = found at he
  obtain ⟨outcome, q⟩ := found
  have hq (p : Pool σ) (hc : p.config = s.pool.config) (ha : p.active ⊆ s.pool.active) :
      Attributed asked { s with pool := p } :=
    k.shrink (List.Subset.refl _) ha hc fun handle hm => ⟨handle, hm, rfl, rfl⟩
  cases outcome with
  | granted lent =>
    obtain ⟨e, p₁, p₂, ht, hx, hg⟩ := he
    obtain ⟨rfl, rfl⟩ := Prod.mk.inj hg
    obtain ⟨hc, ha⟩ := Pool.sets_turns ht
    have hb := Pool.examine_books s.now r.caller e true p₁ p₂ hx
    have ha₂ : p₂.active = p₁.active := congrArg Books.active hb
    have k₂ := hq p₂ ((congrArg Books.config hb).trans hc) (by rw [ha₂]; exact ha)
    refine ⟨k.waiting, fun a hm => ?_⟩
    rcases List.mem_append.mp hm with hm | hm
    · obtain ⟨handle, hh, hrest⟩ := k₂.lent a hm
      exact ⟨handle, List.mem_append_left _ hh, hrest⟩
    · -- the new lease has the new handle
      refine ⟨_, List.mem_append_right _ List.mem_cons_self, (List.mem_singleton.mp hm).symm, ?_⟩
      rw [List.mem_singleton.mp hm]
      exact ⟨r.credentials, hr, rfl⟩
  | failed error =>
    obtain ⟨hc, ha⟩ := Pool.sets_turns he.1
    exact (hq q hc ha).settle_error r error
  | saturated r' =>
    obtain ⟨ht, -, -, strikes, rfl⟩ := he
    obtain ⟨hc, ha⟩ := Pool.sets_turns ht
    exact (hq q hc ha).block hr

theorem resume (k : Attributed asked s) {x : Sleeper}
    (hx : asked x.request.caller x.request.credentials) :
    (∀ y ∈ (s.resume x).1, asked y.request.caller y.request.credentials) ∧
      Attributed asked (s.resume x).2 := by
  have ha : Attributed asked (s.awake x) := ⟨k.waiting, k.lent⟩
  rw [resume_eq]
  split
  · obtain ⟨hw, ht⟩ := ha.takeFirst
    exact ⟨hw, ht.settle_error x.request .interrupted⟩
  · exact ⟨fun y hy => absurd hy List.not_mem_nil, ha.pursue hx⟩

theorem rouse (k : Attributed asked s) (woken : List Sleeper)
    (hw : ∀ x ∈ woken, asked x.request.caller x.request.credentials) :
    Attributed asked (s.rouse woken) := by
  fun_induction Service.rouse woken s with
  | case1 s => exact k
  | case2 s x rest ih =>
    obtain ⟨hn, hk⟩ := k.resume (hw x List.mem_cons_self)
    refine ih hk fun y hy => ?_
    exact (List.mem_append.mp hy).elim (fun h => hw y (List.mem_cons_of_mem x h)) (hn y)

theorem elapse (k : Attributed asked s) (target : Nat) : Attributed asked (s.elapse target) := by
  fun_induction Service.elapse target s with
  | case1 s he | case3 s x others he hd => exact ⟨k.waiting, k.lent⟩
  | case2 s x others he hd ih =>
    have hp := (Sleeper.earliest_perm s.waiting x others he).symm
    have ho : Attributed asked { s with waiting := others, now := max s.now x.deadline } :=
      ⟨fun y hy => k.waiting y (hp.subset (List.mem_cons_of_mem x hy)), k.lent⟩
    have hx := k.waiting x (hp.subset List.mem_cons_self)
    apply ih
    rw [timeOut_eq]
    exact ho.rouse [x] fun y hy => List.mem_singleton.mp hy ▸ hx

theorem takeBack (k : Attributed asked s) {i : Nat} {handle : Handle}
    (hh : s.handles[i]? = some handle) : Attributed asked (s.takeBack i handle) := by
  obtain ⟨hc, ha⟩ := Pool.takeBack_frame s.now handle.entry s.pool
  refine k.shrink (List.Subset.refl _) ?_ hc fun other hm => ?_
  · show (s.pool.takeBack s.now handle.entry).2.active ⊆ s.pool.active
    rw [ha]
    exact List.eraseP_subset
  · -- marking a handle changes neither its entry nor its caller
    have hmap := map_released (fun h => (h.entry, h.caller)) hh rfl
    obtain ⟨other', hm', he⟩ := List.mem_map.mp (hmap ▸ List.mem_map_of_mem hm)
    exact ⟨other', hm', (Prod.mk.inj he).1, (Prod.mk.inj he).2⟩

theorem release (k : Attributed asked s) (i : Nat) : Attributed asked (s.release i) := by
  rcases release_cases s i with hs | ⟨handle, hh, -, hs⟩
  · rw [hs]
    exact k
  · rw [hs]
    split
    · obtain ⟨hw, ht⟩ := (k.takeBack hh).takeFirst
      exact ht.rouse _ hw
    · exact k.takeBack hh

theorem forward (k : Attributed asked s) (i : Nat) (c : Call) :
    Attributed asked (s.forward i c).2 := by
  obtain ⟨hw, -, ha, hc⟩ := forward_frame s i c
  have hh : (s.forward i c).2.handles = s.handles := by rw [(forward_cases s i c).1]
  exact k.shrink (fun x hx => hw ▸ hx) (fun e he => ha ▸ he) hc
    fun handle hm => ⟨handle, hh ▸ hm, rfl, rfl⟩

theorem command {op : Op σ} (k : Attributed asked s) (h : Command op s s') :
    Attributed asked s' := by
  obtain ⟨hw, hh, hb | ⟨config, -, hp⟩⟩ := command_cases op s s' h
  · have ha : s'.pool.active = s.pool.active := congrArg Books.active hb
    exact k.shrink (fun x hx => hw ▸ hx) (fun e he => ha ▸ he) (congrArg Books.config hb)
      fun handle hm => ⟨handle, hh ▸ hm, rfl, rfl⟩
  · refine ⟨hw ▸ k.waiting, fun e he => ?_⟩
    rw [hp, (Pool.reset_frame { s.pool with config }).2.2.1] at he
    exact absurd he List.not_mem_nil

theorem step (k : Attributed asked s) (op : Op σ)
    (ha : ∀ form, op = .acquire form → s.isLive = true →
      asked s.callers (form.credentials s.pool.config)) : Attributed asked (step op s) := by
  by_cases ho : op.isCommand = true
  · rcases step_command s op ho with h | h
    · rw [h]
      exact k
    · exact k.command h
  · cases op with
    | acquire form =>
      simp only [Service.step]
      split
      · rename_i hl
        have hc : Attributed asked { s with callers := s.callers + 1 } := ⟨k.waiting, k.lent⟩
        exact hc.pursue (ha form rfl hl)
      · exact k
    | call i c =>
      by_cases hc : c = .close
      · subst hc
        exact k.release i
      · show Attributed asked (s.call i c).2
        rw [call_eq_forward s i c hc]
        exact k.forward i c
    | release i => exact k.release i
    | advance span => exact k.elapse _
    | cancel token =>
      have hw : Attributed asked { s with tokens := s.tokens.set token true, waiting := [] } :=
        ⟨fun x hx => absurd hx List.not_mem_nil, k.lent⟩
      exact hw.rouse s.waiting k.waiting
    | issueToken | reset | reconfigure update | shutDown | meddle f => exact absurd rfl ho

end Attributed

variable [Driver σ]

/-- In the course of the operations the caller came, with these credentials. -/
def Asked (ops : List (Op σ)) (s : Service σ) (caller : Nat) (credentials : Credentials) : Prop :=
  ∃ before form after, ops = before ++ .acquire form :: after ∧ (run before s).isLive = true ∧
    (run before s).callers = caller ∧ credentials = form.credentials (run before s).pool.config

theorem asked_append {ops : List (Op σ)} {caller : Nat} {credentials : Credentials}
    (h : Asked ops s caller credentials) (rest : List (Op σ)) :
    Asked (ops ++ rest) s caller credentials := by
  obtain ⟨before, form, after, rfl, hrest⟩ := h
  exact ⟨before, form, after ++ rest, by simp, hrest⟩

theorem attributed_run (ops : List (Op σ)) (s : Service σ) (hw : s.waiting = [])
    (ha : s.pool.active = []) : Attributed (Asked ops s) (run ops s) := by
  -- from the end: the last operation is the one that may add an acquisition
  induction ops using List.reverseRecOn with
  | nil =>
    refine ⟨fun x hx => ?_, fun e he => ?_⟩
    · exact absurd (show x ∈ [] from hw ▸ hx) List.not_mem_nil
    · exact absurd (show e ∈ [] from ha ▸ he) List.not_mem_nil
  | append_singleton ops op ih =>
    rw [run_append]
    have k : Attributed (Asked (ops ++ [op]) s) (run ops s) :=
      ih.mono fun caller credentials hasked => asked_append hasked [op]
    refine k.step op fun form ho hl => ?_
    exact ⟨ops, form, [], by rw [ho], hl, rfl, rfl⟩

theorem callers_move (m m' : Option Entry × Service σ) (h : Move m m') :
    m.2.callers ≤ m'.2.callers := by
  cases h with
  | come s => exact Nat.le_succ _
  | countWait s r =>
    unfold countWait
    split <;> exact Nat.le_refl _
  | mark s | pass s | leave s | awake s x | sleep s r hs hc | fail s r error
  | turn s caller hand hand' q h | grant s r e q h | takeBack s i handle hh hr =>
    exact Nat.le_refl _

theorem callers_run (ops : List (Op σ)) (s : Service σ) : s.callers ≤ (run ops s).callers := by
  refine run_keeps (fun _ u => s.callers ≤ u.callers) ?_ ?_ ops ?_ s (Nat.le_refl _)
  · exact fun m m' h hu => Nat.le_trans hu (callers_move m m' h)
  · intro u i c _ hu
    rw [(forward_cases u i c).1]
    exact hu
  · intro op _ u u' h hu
    cases h with
    | meddle u f | issueToken u hl | reset u hl | reconfigure u update hl | shutDown u hl hw =>
      exact hu

theorem callers_acquire (form : Form) (s : Service σ) (hl : s.isLive = true) :
    s.callers < (step (.acquire form) s).callers := by
  simp only [step, if_pos hl]
  exact moves_keep (fun _ u => s.callers < u.callers)
    (fun m m' h hu => Nat.lt_of_lt_of_le hu (callers_move m m' h)) _ _
    (pursue_moves { s with callers := s.callers + 1 } _) (Nat.lt_succ_self _)

theorem acquisition_unique {before before' after after' : List (Op σ)} {form form' : Form}
    (heq : before ++ .acquire form :: after = before' ++ .acquire form' :: after')
    (hl : (run before s).isLive = true) (hl' : (run before' s).isLive = true)
    (hc : (run before s).callers = (run before' s).callers) :
    before = before' ∧ form = form' := by
  wlog hle : before.length ≤ before'.length generalizing before before' after after' form form'
  · obtain ⟨hb, hf⟩ := this heq.symm hl' hl hc.symm (Nat.le_of_not_le hle)
    exact ⟨hb.symm, hf.symm⟩
  · rcases List.append_eq_append_iff.mp heq with ⟨between, hb, ha⟩ | ⟨between, hb, ha⟩
    · cases between with
      | nil =>
        rw [List.append_nil] at hb
        exact ⟨hb.symm, Op.acquire.inj (List.cons.inj ha).1⟩
      | cons op between =>
        obtain ⟨rfl, -⟩ := List.cons.inj ha
        have hlt := Nat.lt_of_lt_of_le (callers_acquire form (run before s) hl)
          (callers_run between _)
        rw [hc, hb, run_append] at hlt
        exact absurd hlt (Nat.lt_irrefl _)
    · have hn : between = [] := by
        rw [hb, List.length_append] at hle
        exact List.eq_nil_of_length_eq_zero (by omega)
      subst hn
      rw [List.append_nil] at hb
      exact ⟨hb, (Op.acquire.inj (List.cons.inj ha).1).symm⟩

end Service

end ConnectionPool
