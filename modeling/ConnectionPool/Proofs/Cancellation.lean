import ConnectionPool.Proofs.Attribution
import ConnectionPool.Proofs.Failures
import ConnectionPool.Proofs.Handoff

/-!
# Cancellation

A caller is interrupted in two ways only. A token is cancelled on which it sleeps, and then it ends
in this very operation; or it comes with a token that has been cancelled and finds the pool crowded,
so that it would have to sleep. Tokens change only when they are issued or cancelled, and nobody
sleeps on a cancelled one. So in any other operation nobody is interrupted, and a caller with a
cancelled token fares in a pool that is not crowded as one that has no token.
-/

set_option autoImplicit false

namespace ConnectionPool

namespace Pool

variable {σ : Type} [Driver σ] {now : Nat} {p : Pool σ}

theorem seek_of_atStandstill (r : Request) (h : p.AtStandstill now) :
    p.seek now r = (.saturated r, p) := by
  have hlent : p.active.isEmpty = false := by
    rw [Bool.eq_false_iff]
    exact fun he => h.lent (List.isEmpty_iff.mp he)
  have hclaim : p.claim now r.caller = (.saturated, p) := by
    unfold claim
    split
    · rename_i ha
      exact absurd ha h.lent
    · rename_i oldest rest ha
      exact if_pos (h.inTime oldest (by rw [ha]; rfl))
  have hnext : p.nextCandidate now r.caller = (.saturated, p) := by
    unfold nextCandidate
    rw [h.idle]
    dsimp only
    rw [h.full]
    exact hclaim
  unfold seek seekWithin
  rw [hnext]
  dsimp only
  rw [hlent]
  rfl

theorem seekWithin_token (now left : Nat) (token : Option Nat) (r : Request) (p : Pool σ) :
    (p.seekWithin now left { r with token }).1.result? = (p.seekWithin now left r).1.result? ∧
      (p.seekWithin now left { r with token }).2 = (p.seekWithin now left r).2 := by
  fun_induction seekWithin now left r p with
  | case1 left r p error q hc =>
    unfold seekWithin
    rw [show p.nextCandidate now r.caller = _ from hc]
    exact ⟨rfl, rfl⟩
  | case2 left r p q hc hn | case3 left r p q hc hn =>
    unfold seekWithin
    rw [show p.nextCandidate now r.caller = _ from hc]
    simp only [hn]
    exact ⟨rfl, rfl⟩
  | case4 left r p e p₁ hc p₂ hx lent q hg =>
    unfold seekWithin
    rw [show p.nextCandidate now r.caller = _ from hc]
    simp only [hx]
    show (Outcome.granted (p₂.grant now r e).1).result? = _ ∧ (p₂.grant now r e).2 = q
    rw [hg]
    exact ⟨rfl, rfl⟩
  | case5 r p e p₁ hc p₂ hx =>
    unfold seekWithin
    rw [show p.nextCandidate now r.caller = _ from hc]
    simp only [hx]
    exact ⟨rfl, rfl⟩
  | case6 r p e p₁ hc p₂ hx q left ih =>
    have hnext : p.seekWithin now (left + 1) { r with token } =
        q.seekWithin now left { { r with strikes := r.strikes + 1 } with token } := by
      rw [seekWithin, show p.nextCandidate now r.caller = _ from hc]
      simp only [hx]
      rfl
    rw [hnext]
    exact ih

end Pool

namespace Service

variable {σ : Type} {op : Op σ} {s v w u : Service σ} {r : Request} {x : Sleeper}
  {woken : List Sleeper}

/-- A caller that came now would have to sleep: nothing is idle, the pool is full, and no lease is
overdue. -/
structure Crowded (s : Service σ) : Prop where
  idle : s.pool.idle = []
  full : s.pool.active.length = s.pool.config.maxActive.toNat
  inTime : ∀ e ∈ s.pool.active, e.heldFor s.now ≤ s.pool.config.maxCheckout

theorem crowded_iff (f : s.pool.books.Fit none) (k : BySeniority s.now s.pool.active)
    (hu : s.pool.config.Usable) : s.pool.AtStandstill s.now ↔ s.Crowded := by
  constructor
  · intro h
    exact ⟨h.idle, Nat.le_antisymm (Pool.withinLimits_of_fit _ f).active_le
      (Pool.full_of_not_hasRoom s.pool h.full), k.inTime h.inTime⟩
  · intro h
    have hpos := hu.active_pos
    refine ⟨h.idle, decide_eq_false (by rw [h.full]; exact Nat.lt_irrefl _), fun ha => ?_,
      fun e he => h.inTime e (List.mem_of_head? he)⟩
    rw [← h.full, ha] at hpos
    exact absurd hpos (by decide)

/-- The operation on `s` interrupts this caller: it cancels the token on which the caller sleeps, or
the caller comes with a cancelled token and would have to sleep. -/
inductive Interrupts (caller : Nat) : Op σ → Service σ → Prop
  | cancel (s : Service σ) (token : Nat) (x : Sleeper) (hx : x ∈ s.waiting)
      (ht : x.request.token = some token) (hi : token < s.tokens.length)
      (hc : x.request.caller = caller) : Interrupts caller (.cancel token) s
  | refuse (s : Service σ) (token : Nat) (hl : s.isLive = true)
      (hc : s.isCancelled (some token) = true) (hs : s.Crowded) (hn : s.callers = caller) :
      Interrupts caller (.acquire (.interruptible token)) s

theorem tokens_settle (r : Request) (result : Except PoolError Entry) (s : Service σ) :
    (s.settle r result).tokens = s.tokens := by
  cases result <;> rfl

theorem tokens_block (r : Request) (s : Service σ) : (s.block r).tokens = s.tokens := by
  unfold block countWait
  dsimp only
  split <;> split <;> rfl

theorem isCancelled_countWait (r : Request) (s : Service σ) (token? : Option Nat) :
    (s.countWait r).isCancelled token? = s.isCancelled token? := by
  unfold countWait
  split <;> rfl

theorem block_eq (r : Request) (s : Service σ) :
    s.block r =
      if s.isCancelled r.token then (s.countWait r).settle r (.error .interrupted)
      else (s.countWait r).sleep { r with hasWaited := true } := by
  rw [← isCancelled_countWait r s]
  rfl

theorem tokens_takeFirst (s : Service σ) : s.takeFirst.2.tokens = s.tokens := by
  rw [takeFirst_rest]

theorem isCancelled_of_tokens (h : w.tokens = v.tokens) (token? : Option Nat) :
    w.isCancelled token? = v.isCancelled token? := by
  unfold isCancelled
  rw [h]

def tokensIn (s : Service σ) : Op σ → List Bool
  | .cancel token => s.tokens.set token true
  | .acquire _ | .call _ _ | .release _ | .advance _ | .issueToken | .reset | .reconfigure _
  | .shutDown | .meddle _ => s.tokens

theorem isCancelled_cancel {token : Nat} (hl : token < s.tokens.length)
    (ht : v.tokens = s.tokensIn (.cancel token)) : v.isCancelled (some token) = true := by
  show (v.tokens[token]?).getD false = true
  rw [ht, tokensIn, List.getElem?_set_self hl]
  rfl

theorem token_of_cancelled {token? : Option Nat} (h : v.isCancelled token? = true)
    (ht : v.tokens = s.tokensIn op) (hn : s.isCancelled token? = false) :
    ∃ token, op = .cancel token ∧ token? = some token ∧ token < s.tokens.length := by
  have hsame (hs : s.tokensIn op = s.tokens) : False := by
    rw [isCancelled_of_tokens (ht.trans hs)] at h
    exact absurd (h.symm.trans hn) (by decide)
  cases op with
  | cancel token =>
    cases token? with
    | none => exact absurd h (by simp [isCancelled])
    | some t =>
      change (v.tokens[t]?).getD false = true at h
      change (s.tokens[t]?).getD false = false at hn
      rw [ht, tokensIn, List.getElem?_set] at h
      split at h
      · rename_i he
        split at h
        · rename_i hl
          exact ⟨token, rfl, congrArg some he.symm, hl⟩
        · exact absurd h (by decide)
      · exact absurd (h.symm.trans hn) (by decide)
  | acquire form | call i c | release i | advance span | issueToken | reset | reconfigure update
  | shutDown | meddle f => exact (hsame rfl).elim

variable [Driver σ]

theorem tokens_pursue (r : Request) (s : Service σ) : (s.pursue r).tokens = s.tokens := by
  unfold pursue
  split
  · exact tokens_settle _ _ _
  · exact tokens_settle _ _ _
  · exact tokens_block _ _

theorem tokens_resume (x : Sleeper) (s : Service σ) : (s.resume x).2.tokens = s.tokens := by
  rw [resume_eq]
  split
  · rw [tokens_settle]
    exact tokens_takeFirst _
  · exact tokens_pursue _ _

theorem tokens_rouse (woken : List Sleeper) (s : Service σ) :
    (s.rouse woken).tokens = s.tokens := by
  fun_induction rouse woken s with
  | case1 s => rfl
  | case2 s x rest ih => exact ih.trans (tokens_resume x s)

theorem tokens_timeOut (x : Sleeper) (others : List Sleeper) (s : Service σ) :
    (s.timeOut x others).tokens = s.tokens := by
  rw [timeOut_eq, tokens_rouse]

theorem tokens_calls (h : Calls x v woken w) : v.tokens = w.tokens ∧ v.now = w.now := by
  induction h with
  | here rest => exact ⟨rfl, rfl⟩
  | later s y rest h ih => exact ⟨ih.1.trans (tokens_resume y s), ih.2.trans (now_resume y s)⟩

theorem tokens_falls {target : Nat} (h : Falls x w target s) : w.tokens = s.tokens := by
  induction h with
  | here s others he hd hw => exact hw ▸ rfl
  | later s y others he hd h ih => exact ih.trans (tokens_timeOut y others s)

theorem tokens_rousing (h : Rousing woken w op s) : w.tokens = s.tokensIn op := by
  induction h with
  | release s i handle hh hr hk hw =>
    have ht := tokens_takeFirst (s.takeBack i handle)
    rw [hw] at ht
    exact ht
  | close s i h ih => exact ih
  | advance s span x hx h => exact tokens_falls h
  | cancel s token hx hw => exact hw ▸ rfl

theorem tokens_elapse (target : Nat) (s : Service σ) : (s.elapse target).tokens = s.tokens := by
  fun_induction elapse target s with
  | case1 s he | case3 s x others he hd => rfl
  | case2 s x others he hd ih => exact ih.trans (tokens_timeOut x others s)

theorem tokens_release (s : Service σ) (i : Nat) : (s.release i).tokens = s.tokens := by
  rcases release_cases s i with h | ⟨handle, hh, hr, h⟩
  · rw [h]
  · rw [h]
    split
    · exact (tokens_rouse _ _).trans (tokens_takeFirst (s.takeBack i handle))
    · rfl

theorem tokens_step (op : Op σ) (s : Service σ) :
    (step op s).tokens = s.tokensIn op ∨ step op s = s.issueToken := by
  cases op with
  | acquire form =>
    left
    simp only [step]
    split
    · exact tokens_pursue _ _
    · rfl
  | call i c =>
    left
    by_cases hc : c = .close
    · subst hc
      exact tokens_release s i
    · show (s.call i c).2.tokens = s.tokens
      rw [call_eq_forward s i c hc, (forward_cases s i c).1]
  | release i => exact Or.inl (tokens_release s i)
  | advance span => exact Or.inl (tokens_elapse _ s)
  | cancel token => exact Or.inl (tokens_rouse _ _)
  | issueToken =>
    simp only [step]
    split
    · exact Or.inr rfl
    · exact Or.inl rfl
  | reset | reconfigure update | shutDown =>
    left
    simp only [step]
    split <;> rfl
  | meddle f => exact Or.inl rfl

theorem cancelled_step (op : Op σ) (s : Service σ) {token : Nat}
    (h : (step op s).isCancelled (some token) = true) :
    s.isCancelled (some token) = true ∨ op = .cancel token := by
  cases hn : s.isCancelled (some token) with
  | true => exact Or.inl rfl
  | false =>
    rcases tokens_step op s with ht | ht
    · obtain ⟨other, rfl, he, -⟩ := token_of_cancelled h ht hn
      exact Or.inr (congrArg _ (Option.some.inj he).symm)
    · rw [ht, isCancelled_issueToken, hn] at h
      exact absurd h (by decide)

theorem cancelled_run (ops : List (Op σ)) (s : Service σ) {token : Nat}
    (h : (run ops s).isCancelled (some token) = true) :
    s.isCancelled (some token) = true ∨ .cancel token ∈ ops := by
  induction ops generalizing s with
  | nil => exact Or.inl h
  | cons op rest ih =>
    rcases ih (step op s) h with h | h
    · refine (cancelled_step op s h).imp_right fun he => ?_
      exact he ▸ List.mem_cons_self
    · exact Or.inr (List.mem_cons_of_mem op h)

/-- A request is the one that its caller came with, but that it may have been counted as waiting. So
what is known of the newcomers is known of all who wait and of all who have an episode. -/
theorem each_kept {P : Request → Prop} (hw : ∀ r, P r → P { r with hasWaited := true })
    (hs : ∀ x ∈ s.waiting, P x.request)
    (hc : ∀ form, op = .acquire form → s.isLive = true → P (s.newcomer form)) :
    KeptThrough op s fun pending u => ∀ r ∈ u.underWay pending, P r where
  perm hp k r hr := k r ((hp.symm.append_right _).subset hr)
  rise {pending s x others} hq k r hr := by
    have hp := List.perm_middle.symm.trans ((hq.symm.map Sleeper.request).append_left pending)
    exact k r (hp.subset hr)
  pass _ k := k
  awake k := k
  interrupt {r pending s} k y hy := k y (List.mem_cons_of_mem r hy)
  pursue {r pending s} _ ho k := by
    intro y hy
    rcases List.mem_append.mp hy with hy | hy
    · exact k y (List.mem_cons_of_mem r (List.mem_append_left _ hy))
    · have hold (z : Sleeper) (hz : z ∈ s.waiting) : P z.request :=
        k z.request (List.mem_cons_of_mem r (List.mem_append_right _ (List.mem_map_of_mem hz)))
      obtain ⟨z, hz, rfl⟩ := List.mem_map.mp hy
      rcases (pursuit_pursue r ho.2).ends with ⟨result, h⟩ | h
      · exact hold z (h.waiting.subset hz)
      · obtain ⟨last, hq, hl⟩ := h.waiting
        rw [hq] at hz
        rcases List.mem_append.mp hz with hz | hz
        · exact hold z hz
        · rw [List.mem_singleton.mp hz, hl]
          exact hw r (k r List.mem_cons_self)
  first r hr := by
    obtain ⟨x, hx, rfl⟩ := List.mem_map.mp hr
    exact hs x hx
  come form ho hl r hr := by
    rcases List.mem_cons.mp hr with rfl | hr
    · exact hc form ho hl
    · obtain ⟨x, hx, rfl⟩ := List.mem_map.mp hr
      exact hs x hx
  takeBack _ _ r hr := by
    obtain ⟨x, hx, rfl⟩ := List.mem_map.mp hr
    exact hs x hx
  mark _ r hr := by
    obtain ⟨x, hx, rfl⟩ := List.mem_map.mp hr
    exact hs x hx
  forward i c _ r hr := by
    obtain ⟨x, hx, rfl⟩ := List.mem_map.mp hr
    exact hs x ((forward_frame s i c).1 ▸ hx)
  command s' h r hr := by
    obtain ⟨x, hx, rfl⟩ := List.mem_map.mp hr
    exact hs x ((command_cases op s s' h).1 ▸ hx)

theorem waiter_of_called (hr : Rousing woken w op s) (hc : Calls x v woken w) (hs : s.Steady) :
    ∃ y ∈ s.waiting, y.request.caller = x.request.caller ∧ y.request.token = x.request.token := by
  have hk : KeptThrough op s fun pending u => ∀ r ∈ u.underWay pending,
      ∃ y ∈ s.waiting, y.request.caller = r.caller ∧ y.request.token = r.token := by
    refine each_kept (fun r h => h) (fun y hy => ⟨y, hy, rfl, rfl⟩) fun form ho _ => ?_
    subst ho
    cases hr
  obtain ⟨others, k⟩ := hk.episode hs (.called x v w woken hr hc)
  exact k x.request List.mem_cons_self

def Came (ops : List (Op σ)) (s : Service σ) (caller : Nat) (form : Form) : Prop :=
  ∃ before after, ops = before ++ .acquire form :: after ∧ (run before s).isLive = true ∧
    (run before s).callers = caller

theorem came_unique {ops : List (Op σ)} {caller : Nat} {form form' : Form}
    (h : Came ops s caller form) (h' : Came ops s caller form') : form = form' := by
  obtain ⟨before, after, rfl, hl, hc⟩ := h
  obtain ⟨before', after', heq, hl', hc'⟩ := h'
  exact (acquisition_unique heq hl hl' (hc.trans hc'.symm)).2

theorem came_append {ops : List (Op σ)} {caller : Nat} {form : Form} (h : Came ops s caller form)
    (rest : List (Op σ)) : Came (ops ++ rest) s caller form := by
  obtain ⟨before, after, rfl, h⟩ := h
  exact ⟨before, after ++ rest, by simp, h⟩

theorem came_run (ops : List (Op σ)) (hs : s.Steady) (hw : s.waiting = []) :
    ∀ x ∈ (run ops s).waiting, ∃ form, Came ops s x.request.caller form ∧
      form.token? = x.request.token := by
  -- from the end: the last operation is the one in which somebody may come
  induction ops using List.reverseRecOn with
  | nil => exact fun x hx => absurd (show x ∈ [] from hw ▸ hx) List.not_mem_nil
  | append_singleton ops op ih =>
    rw [run_append]
    have hk : KeptThrough op (run ops s) fun pending u => ∀ r ∈ u.underWay pending,
        ∃ form, Came (ops ++ [op]) s r.caller form ∧ form.token? = r.token := by
      refine each_kept (fun r h => h) (fun x hx => ?_) fun form hop hl => ?_
      · obtain ⟨form, hc, ht⟩ := ih x hx
        exact ⟨form, came_append hc [op], ht⟩
      · exact ⟨form, ⟨ops, [], by rw [hop], hl, rfl⟩, rfl⟩
    exact fun x hx => hk.step (steady_run ops hs) x.request (List.mem_map_of_mem hx)

theorem Pursuit.interrupted {y : Settlement} (h : Pursuit r s u)
    (hu : u.settlements = y :: s.settlements) (hy : y.result = .error .interrupted) :
    s.pool.AtStandstill s.now ∧ s.isCancelled r.token = true := by
  cases h with
  | settled looks outcome result q hs h hr =>
    obtain rfl := (List.cons.inj ((settles_seek r result hs).settlements.symm.trans hu)).1
    obtain rfl : result = _ := hy
    have hend := Pool.seek_ends s.now r s.pool
    rw [hs] at hend
    cases outcome with
    | granted e => exact absurd hr (by simp [Outcome.result?])
    | failed error => exact absurd (Except.error.inj (Option.some.inj hr)) hend.2
    | saturated r' => exact absurd hr (by simp [Outcome.result?])
  | blocked h =>
    refine ⟨h, ?_⟩
    cases hn : s.isCancelled r.token with
    | true => rfl
    | false =>
      have hs : (s.block r).settlements = s.settlements := by
        rw [block_eq, hn]
        exact settlements_countWait r s
      rw [hs] at hu
      exact absurd (congrArg List.length hu) (Nat.ne_of_lt (Nat.lt_succ_self _))

theorem Episode.interrupts {y : Settlement} (h : Episode op s r v u) (hs : s.Steady)
    (k : BySeniority s.now s.pool.active) (hc : s.pool.config.Usable) (hd : s.Undisturbed)
    (hu : u.settlements = y :: v.settlements) (hy : y.result = .error .interrupted) :
    Interrupts r.caller op s ∧ v.now = s.now := by
  cases h with
  | come form ho hl =>
    subst ho
    obtain ⟨hstill, hcancelled⟩ := (pursuit_pursue (s := { s with callers := s.callers + 1 })
      (s.newcomer form) hs.2).interrupted hu hy
    cases form with
    | plain | signedIn credentials => exact absurd hcancelled Bool.false_ne_true
    | interruptible token =>
      exact ⟨.refuse s token hl hcancelled ((crowded_iff hs.2 k hc).mp hstill) rfl, rfl⟩
  | called x v w woken hr hcalls =>
    obtain ⟨htokens, hnow⟩ := tokens_calls hcalls
    have hcancelled : v.isCancelled x.request.token = true := by
      cases hn : v.isCancelled x.request.token with
      | true => rfl
      | false =>
        have hv := (Episode.called x v w woken hr hcalls).steady hs
        have ha := steady_moves (.single (.awake v x)) hv
        rw [resume_eq, if_neg (by rw [show (v.awake x).isCancelled _ = _ from hn]; decide)] at hu
        have hp := (pursuit_pursue x.request ha.2).interrupted hu hy
        exact absurd (hn.symm.trans hp.2) (by decide)
    obtain ⟨waiter, hm, hcaller, htoken⟩ := waiter_of_called hr hcalls hs
    obtain ⟨token, rfl, hx, hl⟩ := token_of_cancelled hcancelled
      (htokens.trans (tokens_rousing hr)) (htoken ▸ hd waiter hm)
    refine ⟨.cancel s token waiter hm (htoken.trans hx) hl hcaller, hnow.trans ?_⟩
    cases hr with
    | cancel _ _ hx hw => exact hw ▸ rfl

theorem interrupted_rouse (woken : List Sleeper) (w : Service σ) (hx : x ∈ woken)
    (hc : w.isCancelled x.request.token = true) :
    ∃ newer, (w.rouse woken).settlements = newer ++ w.settlements ∧
      ⟨x.request.caller, w.now, .error .interrupted⟩ ∈ newer := by
  fun_induction rouse woken w with
  | case1 w => exact absurd hx List.not_mem_nil
  | case2 w y rest ih =>
    rcases List.mem_cons.mp hx with rfl | hx
    · have hr : (w.resume x).2 =
          (w.awake x).takeFirst.2.settle x.request (.error .interrupted) := by
        rw [resume_eq, if_pos (show (w.awake x).isCancelled x.request.token = true from hc)]
      obtain ⟨more, hm⟩ :=
        settlements_moves (rouse_moves (w.resume x).2 (rest ++ (w.resume x).1))
      refine ⟨more ++ [⟨x.request.caller, w.now, .error .interrupted⟩], ?_,
        List.mem_append_right _ List.mem_cons_self⟩
      rw [← hm]
      dsimp only
      rw [hr, (gaveUp_ends x.request x w).settlements, List.append_assoc]
      rfl
    · obtain ⟨newer, hn, hm⟩ := ih (List.mem_append_left _ hx)
        ((isCancelled_of_tokens (tokens_resume y w) _).trans hc)
      obtain ⟨first, hf⟩ := settlements_moves (resume_moves w y)
      refine ⟨newer ++ first, ?_, List.mem_append_left _ (now_resume y w ▸ hm)⟩
      rw [hn, ← hf, List.append_assoc]

theorem pursue_of_result {result : Except PoolError Entry}
    (h : (s.pool.seek s.now r).1.result? = some result) :
    s.pursue r = { s with pool := (s.pool.seek s.now r).2 }.settle r result := by
  unfold pursue
  generalize s.pool.seek s.now r = found at h
  obtain ⟨outcome, q⟩ := found
  cases outcome with
  | granted e | failed error =>
    obtain rfl := Option.some.inj h
    rfl
  | saturated r' => exact absurd h (by simp [Outcome.result?])

theorem pursue_token (token : Option Nat) (f : s.pool.books.Fit none)
    (hn : ¬ s.pool.AtStandstill s.now) : s.pursue { r with token } = s.pursue r ∧
      ∃ result, (s.pursue r).settlements = ⟨r.caller, s.now, result⟩ :: s.settlements ∧
        result ≠ .error .interrupted ∧ (s.pursue r).waiting = s.waiting := by
  obtain ⟨looks, h⟩ := Pool.seek_loop s.now r s.pool f
  have hend := Pool.seek_ends s.now r s.pool
  obtain ⟨hresult, hpool⟩ :=
    Pool.seekWithin_token s.now (s.pool.config.badLimit.toNat - r.strikes.toNat) token r s.pool
  have hr : ∃ result, (s.pool.seek s.now r).1.result? = some result ∧
      result ≠ .error .interrupted := by
    generalize s.pool.seek s.now r = found at h hend
    obtain ⟨outcome, q⟩ := found
    cases outcome with
    | granted e => exact ⟨.ok e, rfl, by simp⟩
    | failed error => exact ⟨.error error, rfl, fun he => hend.2 (Except.error.inj he)⟩
    | saturated r' => exact absurd (h.atStandstill f rfl).1 hn
  obtain ⟨result, hr, hi⟩ := hr
  have hp := pursue_of_result hr
  have hs := settles_seek r result (Prod.eta (s.pool.seek s.now r)).symm
  refine ⟨?_, result, hp ▸ hs.settlements, hi, ?_⟩
  · rw [pursue_of_result (r := { r with token }) (hresult.trans hr), hp]
    show { s with pool := (s.pool.seekWithin s.now _ { r with token }).2 }.settle _ result = _
    rw [hpool]
    cases result <;> rfl
  · rw [hp, waiting_settle]

theorem pursue_of_atStandstill (h : s.pool.AtStandstill s.now)
    (hc : s.isCancelled r.token = true) :
    s.pursue r = (s.countWait r).settle r (.error .interrupted) := by
  unfold pursue
  rw [Pool.seek_of_atStandstill r h]
  exact (block_eq r s).trans (if_pos hc)

/-- Whoever comes with a cancelled token has its result at once. It is interrupted if the pool is
crowded, and otherwise it fares as one without a token. -/
structure Prompt (token : Nat) (s : Service σ) : Prop where
  waiting : (step (.acquire (.interruptible token)) s).waiting = s.waiting
  settled : ∃ result, (step (.acquire (.interruptible token)) s).settlements =
    ⟨s.callers, s.now, result⟩ :: s.settlements ∧ (result = .error .interrupted ↔ s.Crowded)
  uncrowded : ¬ s.Crowded → step (.acquire (.interruptible token)) s = step (.acquire .plain) s

theorem prompt_of_cancelled {token : Nat} (hs : s.Steady)
    (k : BySeniority s.now s.pool.active) (hu : s.pool.config.Usable) (hl : s.isLive = true)
    (hc : s.isCancelled (some token) = true) : Prompt token s := by
  have hstep (form : Form) : step (.acquire form) s =
      { s with callers := s.callers + 1 }.pursue (s.newcomer form) := if_pos hl
  have hcrowded := crowded_iff hs.2 k hu
  by_cases h : s.Crowded
  · have hp := pursue_of_atStandstill (s := { s with callers := s.callers + 1 })
      (r := s.newcomer (.interruptible token)) (hcrowded.mpr h) hc
    refine ⟨?_, ⟨.error .interrupted, ?_, iff_of_true rfl h⟩, fun hn => absurd h hn⟩
    · rw [hstep, hp, waiting_settle, waiting_countWait]
    · rw [hstep, hp, settlements_settle, settlements_countWait, now_countWait]
      rfl
  · obtain ⟨heq, result, hresult, hi, hw⟩ :=
      pursue_token (s := { s with callers := s.callers + 1 }) (r := s.newcomer .plain)
        (some token) hs.2 (mt hcrowded.mp h)
    -- the two requests are the same but for the token
    have hsame : step (.acquire (.interruptible token)) s = step (.acquire .plain) s := by
      rw [hstep, hstep]
      exact heq
    have hplain := hstep .plain
    refine ⟨?_, ⟨result, ?_, iff_of_false hi h⟩, fun _ => hsame⟩
    · rw [hsame, hplain, hw]
    · rw [hsame, hplain, hresult]
      rfl

theorem interrupted_of_interrupts {caller : Nat} (h : Interrupts caller op s) (hs : s.Steady)
    (k : BySeniority s.now s.pool.active) (hu : s.pool.config.Usable) :
    ∃ newer, (step op s).settlements = newer ++ s.settlements ∧
      ⟨caller, s.now, .error .interrupted⟩ ∈ newer := by
  cases h with
  | cancel _ token x hx ht hl hc =>
    subst hc
    refine interrupted_rouse s.waiting
      { s with tokens := s.tokens.set token true, waiting := [] } hx ?_
    rw [ht]
    exact isCancelled_cancel hl rfl
  | refuse _ token hl hc hcrowded hn =>
    subst hn
    obtain ⟨result, hr, hi⟩ := (prompt_of_cancelled hs k hu hl hc).settled
    refine ⟨[⟨s.callers, s.now, result⟩], hr, ?_⟩
    rw [hi.mpr hcrowded]
    exact List.mem_cons_self

/-- An operation interrupts those whom it should, at once, and nobody else. -/
structure Precise (op : Op σ) (s : Service σ) : Prop where
  interrupted : ∃ newer, (step op s).settlements = newer ++ s.settlements ∧ ∀ caller instant,
    ⟨caller, instant, .error .interrupted⟩ ∈ newer ↔ instant = s.now ∧ Interrupts caller op s
  gone : ∀ caller, Interrupts caller op s → ∀ y ∈ (step op s).waiting, y.request.caller ≠ caller

theorem interrupted_step (op : Op σ) (hs : s.Steady) (k : BySeniority s.now s.pool.active)
    (hc : s.pool.config.Usable) (hd : s.Undisturbed) :
    ∃ newer, (step op s).settlements = newer ++ s.settlements ∧ ∀ caller instant,
      ⟨caller, instant, .error .interrupted⟩ ∈ newer ↔
        instant = s.now ∧ Interrupts caller op s := by
  obtain ⟨newer, hn, hnew⟩ := settledIn_step op hs
  refine ⟨newer, hn, fun caller instant => ⟨fun hm => ?_, fun ⟨ht, hi⟩ => ?_⟩⟩
  · obtain ⟨r, v, u, he, hcaller, ht, hu⟩ := hnew _ hm
    obtain ⟨hi, hnow⟩ := he.interrupts hs k hc hd hu rfl
    obtain rfl : r.caller = caller := hcaller
    exact ⟨ht.symm.trans hnow, hi⟩
  · obtain ⟨newer', hn', hm⟩ := interrupted_of_interrupts hi hs k hc
    obtain rfl := List.append_cancel_right (hn'.symm.trans hn)
    exact ht ▸ hm

theorem gone_step (ops : List (Op σ)) (op : Op σ) (hs : s.Steady) (hw : s.waiting = [])
    (hd : (step op (run ops s)).Undisturbed) (hr : Rested [] (run ops s))
    (hp : ∀ token, (run ops s).isLive = true →
      (run ops s).isCancelled (some token) = true → Prompt token (run ops s)) {caller : Nat}
    (h : Interrupts caller op (run ops s)) :
    ∀ y ∈ (step op (run ops s)).waiting, y.request.caller ≠ caller := by
  intro y hy heq
  generalize ht : run ops s = t at *
  cases h with
  | cancel _ token x hx htoken hl hc =>
    subst ht
    -- it would still have the token with which it came
    obtain ⟨form, hcame, hform⟩ := came_run ops hs hw x hx
    have hlast := came_run (ops ++ [.cancel token]) hs hw
    rw [run_append] at hlast
    obtain ⟨form', hcame', hform'⟩ := hlast y hy
    rw [heq, ← hc] at hcame'
    obtain rfl := came_unique (came_append hcame [.cancel token]) hcame'
    have hy' := hd y hy
    rw [← hform', hform, htoken] at hy'
    have htokens : (step (.cancel token) (run ops s)).tokens =
        (run ops s).tokensIn (.cancel token) := tokens_rouse _ _
    exact absurd ((isCancelled_cancel hl htokens).symm.trans hy') (by decide)
  | refuse _ token hl hc hcrowded hn =>
    rw [(hp token hl hc).waiting] at hy
    have hlt := hr.came y.request (List.mem_map_of_mem hy)
    rw [heq, hn] at hlt
    exact absurd hlt (Nat.lt_irrefl caller)

theorem cancelled_of_interrupted (ops : List (Op σ)) (hs : s.Steady) (hw : s.waiting = [])
    (ht : s.tokens = [])
    (hp : ∀ before op, Precise op (run before s)) {x : Settlement}
    (hx : x ∈ (run ops s).settlements) (hi : x.result = .error .interrupted) :
    x ∈ s.settlements ∨
      ∃ token, Came ops s x.caller (.interruptible token) ∧ .cancel token ∈ ops := by
  induction ops using List.reverseRecOn with
  | nil => exact Or.inl hx
  | append_singleton ops op ih =>
    obtain ⟨newer, hn, hnew⟩ := (hp ops op).interrupted
    rw [run_append] at hx
    rw [show run [op] (run ops s) = step op (run ops s) from rfl, hn] at hx
    rcases List.mem_append.mp hx with hx | hx
    · right
      obtain ⟨caller, instant, result⟩ := x
      obtain rfl : result = _ := hi
      have h := ((hnew caller instant).mp hx).2
      generalize hu : run ops s = t at h
      cases h with
      | cancel _ token y hy htoken hl hc =>
        subst hu
        obtain ⟨form, hcame, hform⟩ := came_run ops hs hw y hy
        have hf : form = .interruptible token := by
          rw [htoken] at hform
          cases form with
          | plain | signedIn credentials => exact absurd hform (by simp [Form.token?])
          | interruptible other => exact congrArg _ (Option.some.inj hform)
        exact ⟨token, came_append (hf ▸ hc ▸ hcame) _,
          List.mem_append_right _ List.mem_cons_self⟩
      | refuse _ token hl hc hcrowded hcaller =>
        subst hu
        refine ⟨token, ⟨ops, [], rfl, hl, hcaller⟩, List.mem_append_left _ ?_⟩
        refine (cancelled_run ops s hc).resolve_left fun h => ?_
        rw [isCancelled, ht] at h
        exact absurd h (by simp)
    · refine (ih hx).imp_right fun ⟨token, hcame, hm⟩ => ?_
      exact ⟨token, came_append hcame _, List.mem_append_left _ hm⟩

/-- After every run of every pool nobody waits with a cancelled token, and the next operation
interrupts precisely those who wait with the token that it cancels, and the one that comes with a
cancelled token to a crowded pool. With a cancelled token nobody sleeps, and in a pool that is not
crowded it makes no difference. -/
theorem cancellation_run (driver : σ) (config : Config) (pool : Pool σ)
    (h : Pool.create driver config = .ok pool) (ops : List (Op σ)) :
    (∀ x ∈ (run ops (start pool)).waiting,
        (run ops (start pool)).isCancelled x.request.token = false ∧
          ∃ form, Came ops (start pool) x.request.caller form ∧ form.token? = x.request.token) ∧
      (∀ op, Precise op (run ops (start pool))) ∧
      (∀ x ∈ (run ops (start pool)).settlements, x.result = .error .interrupted →
        ∃ token, Came ops (start pool) x.caller (.interruptible token) ∧
          .cancel token ∈ ops) ∧
      ∀ token, (run ops (start pool)).isLive = true →
        (run ops (start pool)).isCancelled (some token) = true →
          Prompt token (run ops (start pool)) := by
  have hs := steady_start driver config pool h
  have hp := Pool.of_create driver config pool h
  have hw : (start pool).waiting = [] := rfl
  have hd (ops : List (Op σ)) : (run ops (start pool)).Undisturbed :=
    undisturbed_run ops (start pool) fun x hx => absurd hx List.not_mem_nil
  have hprompt (ops : List (Op σ)) (token : Nat) (hl : (run ops (start pool)).isLive = true)
      (hc : (run ops (start pool)).isCancelled (some token) = true) :
      Prompt token (run ops (start pool)) :=
    prompt_of_cancelled (steady_run ops hs)
      (seniority_run ops _ (seniority_start driver config pool h))
      (usable_run ops _ (usable_start driver config pool h)) hl hc
  have hprecise (ops : List (Op σ)) (op : Op σ) : Precise op (run ops (start pool)) := by
    have hlast := hd (ops ++ [op])
    rw [run_append] at hlast
    constructor
    · exact interrupted_step op (steady_run ops hs)
        (seniority_run ops _ (seniority_start driver config pool h))
        (usable_run ops _ (usable_start driver config pool h)) (hd ops)
    · intro caller hi
      exact gone_step ops op hs hw hlast (rested_run ops hs (rested_start driver config pool h))
        (hprompt ops) hi
  refine ⟨fun x hx => ⟨hd ops x hx, came_run ops hs hw x hx⟩, hprecise ops, fun x hx hi => ?_,
    hprompt ops⟩
  refine (cancelled_of_interrupted ops hs hw rfl hprecise hx hi).resolve_left fun hn => ?_
  rw [hp] at hn
  exact absurd hn List.not_mem_nil

def twoSleepersOneToken : List (Op Scripted) :=
  [.acquire .plain, .issueToken, .acquire (.interruptible 0), .acquire .plain]

theorem cancellation_twoSleepersOneToken :
    let s := run twoSleepersOneToken (start (Pool.unused ({} : Scripted) Config.single))
    Pool.create ({} : Scripted) Config.single = .ok (Pool.unused {} Config.single) ∧
      ⟨1, 0, .error .interrupted⟩ ∈ (step (.cancel 0) s).settlements ∧
      (∀ y ∈ (step (.cancel 0) s).waiting, y.request.caller ≠ 1) ∧
      (step (.cancel 0) s).waiting.map (fun y => y.request.caller) = [2] ∧
      Prompt 0 (run (twoSleepersOneToken ++ [.cancel 0])
        (start (Pool.unused ({} : Scripted) Config.single))) := by
  intro s
  have hrun := cancellation_run ({} : Scripted) Config.single (Pool.unused {} Config.single) rfl
  have hwaits : (s.waiting.any fun x => x.request.caller == 1 && x.request.token == some 0) =
      true := by
    decide +kernel
  obtain ⟨x, hx, he⟩ := List.any_eq_true.mp hwaits
  obtain ⟨hcaller, htoken⟩ := Bool.and_eq_true_iff.mp he
  have hi : Interrupts 1 (.cancel 0) s :=
    .cancel s 0 x hx (by simpa using htoken) (by decide +kernel) (by simpa using hcaller)
  obtain ⟨hnewer, hgone⟩ := (hrun twoSleepersOneToken).2.1 (.cancel 0)
  obtain ⟨newer, hn, hm⟩ := hnewer
  refine ⟨rfl, ?_, hgone 1 hi, by decide +kernel,
    (hrun (twoSleepersOneToken ++ [.cancel 0])).2.2.2 0 (by decide +kernel) (by decide +kernel)⟩
  show _ ∈ (step (.cancel 0) (run twoSleepersOneToken _)).settlements
  rw [hn]
  exact List.mem_append_left _ ((hm 1 0).mpr ⟨by decide +kernel, hi⟩)

end Service

end ConnectionPool
