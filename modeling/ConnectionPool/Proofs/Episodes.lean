import ConnectionPool.Proofs.Loop
import ConnectionPool.Proofs.Stretches

/-!
# Episodes

An episode of an acquisition lasts from the moment when its caller comes or is called out of the
queue until it is done or sleeps again. The caller runs a stretch, or gives up at once because its
token has been cancelled. All that acquisitions do in an operation they do in episodes; so what
every episode and the rest of the operation preserve holds when the operation is over.
-/

set_option autoImplicit false

namespace ConnectionPool

namespace Pool

variable {σ : Type} [Driver σ] {now : Nat} {r r' : Request} {p q : Pool σ} {looks : List Look}
  {outcome : Outcome}

structure AtStandstill (now : Nat) (p : Pool σ) : Prop where
  idle : p.idle = []
  full : p.hasRoom = false
  lent : p.active ≠ []
  inTime : ∀ oldest ∈ p.active.head?, oldest.heldFor now ≤ p.config.maxCheckout

theorem Loop.atStandstill (h : Loop now r p looks outcome q) (f : p.books.Fit none)
    (ho : outcome = .saturated r') : p.AtStandstill now ∧ q = p ∧ r' = r := by
  obtain ⟨rfl, rfl, rfl⟩ := h.saturated f ho
  refine ⟨?_, rfl, rfl⟩
  cases h with
  | standstill _ _ hi hr hs =>
    split at ho
    · exact Outcome.noConfusion ho
    · rename_i hn
      exact ⟨hi, hr, fun ha => hn (List.isEmpty_iff.mpr ha), hs⟩

end Pool

namespace Service

variable {σ : Type} [Driver σ] {x : Sleeper} {v w s : Service σ} {woken : List Sleeper}
  {op : Op σ} {r : Request}

inductive Calls (x : Sleeper) (v : Service σ) : List Sleeper → Service σ → Prop
  | here (rest : List Sleeper) : Calls x v (x :: rest) v
  | later (s : Service σ) (y : Sleeper) (rest : List Sleeper)
      (h : Calls x v (rest ++ (s.resume y).1) (s.resume y).2) : Calls x v (y :: rest) s

inductive Falls (x : Sleeper) (w : Service σ) (target : Nat) : Service σ → Prop
  | here (s : Service σ) (others : List Sleeper)
      (he : Sleeper.earliest s.waiting = some (x, others)) (hd : x.deadline ≤ target)
      (hw : { s with waiting := others, now := max s.now x.deadline } = w) : Falls x w target s
  | later (s : Service σ) (y : Sleeper) (others : List Sleeper)
      (he : Sleeper.earliest s.waiting = some (y, others)) (hd : y.deadline ≤ target)
      (h : Falls x w target (s.timeOut y others)) : Falls x w target s

inductive Rousing (woken : List Sleeper) (w : Service σ) : Op σ → Service σ → Prop
  | release (s : Service σ) (i : Nat) (handle : Handle) (hh : s.handles[i]? = some handle)
      (hr : handle.released = false) (hk : (s.pool.takeBack s.now handle.entry).1 = true)
      (hw : (s.takeBack i handle).takeFirst = (woken, w)) : Rousing woken w (.release i) s
  | close (s : Service σ) (i : Nat) (h : Rousing woken w (.release i) s) :
      Rousing woken w (.call i .close) s
  | advance (s : Service σ) (span : Nat) (x : Sleeper) (hx : [x] = woken)
      (h : Falls x w (s.now + span) s) : Rousing woken w (.advance span) s
  | cancel (s : Service σ) (token : Nat) (hx : s.waiting = woken)
      (hw : { s with tokens := s.tokens.set token true, waiting := [] } = w) :
      Rousing woken w (.cancel token) s

/-- In the course of the operation on `s` an acquisition goes on with its request from one service
to the other. -/
inductive Episode (op : Op σ) (s : Service σ) : Request → Service σ → Service σ → Prop
  | come (form : Form) (ho : op = .acquire form) (hl : s.isLive = true) :
      Episode op s (s.newcomer form) { s with callers := s.callers + 1 } (s.acquire form)
  | called (x : Sleeper) (v w : Service σ) (woken : List Sleeper) (hr : Rousing woken w op s)
      (hc : Calls x v woken w) : Episode op s x.request v (v.resume x).2

inductive Course (op : Op σ) (s : Service σ) (r : Request) : Service σ → Service σ → Prop
  | came (v : Service σ) (h : Begins r v op s) : Course op s r v (v.pursue r)
  | woke (x : Sleeper) (v : Service σ) (hr : x.request = r) (h : Begins r (v.awake x) op s) :
      Course op s r v ((v.awake x).pursue r)
  | gaveUp (x : Sleeper) (v : Service σ) (hr : x.request = r)
      (hc : v.isCancelled r.token = true) :
      Course op s r v ((v.awake x).takeFirst.2.settle r (.error .interrupted))

theorem rouses_of_calls (h : Calls x v woken w) (hc : v.isCancelled x.request.token = false) :
    Rouses x.request (v.awake x) woken w := by
  induction h with
  | here rest => exact .here v x rest rfl rfl hc
  | later s y rest h ih => exact .later s y rest ih

theorem elapses_of_falls {t : Service σ} {target : Nat} (h : Falls x w target s)
    (hr : Rouses r t [x] w) : Elapses r t target s := by
  induction h with
  | here s others he hd hw =>
    subst hw
    exact .here s x others he hd hr
  | later s y others he hd h ih => exact .later s y others he hd ih

theorem begins_of_rousing {t : Service σ} (h : Rousing woken w op s) (hr : Rouses r t woken w) :
    Begins r t op s := by
  induction h with
  | release s i handle hh hrel hk hw =>
    refine .release s i handle hh hrel hk ?_
    rw [hw]
    exact hr
  | close s i h ih => exact .close s i ih
  | advance s span x hx h =>
    subst hx
    exact .advance s span (elapses_of_falls h hr)
  | cancel s token hx hw =>
    subst hx hw
    exact .cancel s token hr

theorem Episode.course {u : Service σ} (h : Episode op s r v u) : Course op s r v u := by
  cases h with
  | come form ho hl =>
    subst ho
    exact .came _ (.come s form hl rfl rfl)
  | called x v w woken hr hc =>
    rw [resume_eq]
    split
    · rename_i hcancelled
      exact .gaveUp x v rfl hcancelled
    · rename_i hn
      have hn : v.isCancelled x.request.token = false := Bool.not_eq_true _ ▸ hn
      exact .woke x v rfl (begins_of_rousing hr (rouses_of_calls hc hn))

theorem Kept.calls {May : Request → Service σ → Prop} {Inv : List Request → Service σ → Prop}
    (k : Kept May Inv) {pending : List Request} (hm : ∀ r t, Rouses r t woken w → May r t)
    (hw : w.Steady) (h : Inv (woken.map Sleeper.request ++ pending) w) (hc : Calls x v woken w) :
    ∃ others, Inv (x.request :: others) v := by
  induction hc with
  | here rest => exact ⟨_, h⟩
  | later s y rest hc ih =>
    refine ih (fun r t ht => hm r t (.later s y rest ht)) (steady_moves (resume_moves s y) hw) ?_
    exact k.resumed (fun hn => hm _ _ (.here s y rest rfl rfl hn)) hw h

theorem Kept.falls {May : Request → Service σ → Prop} {Inv : List Request → Service σ → Prop}
    (k : Kept May Inv) {target : Nat} (hm : ∀ r t, Elapses r t target s → May r t)
    (hs : s.Steady) (h : Inv [] s) (hf : Falls x w target s) : w.Steady ∧ Inv [x.request] w := by
  induction hf with
  | here s others he hd hw => exact hw ▸ k.next he hs h
  | later s y others he hd hf ih =>
    obtain ⟨ho, hx⟩ := k.next he hs h
    refine ih (fun r t ht => hm r t (.later s y others he hd ht))
      (steady_moves (timeOut_moves s y others (Sleeper.earliest_sublist _ _ _ he)) hs) ?_
    rw [timeOut_eq]
    exact k.rouse (fun r t ht => hm r t (.here s y others he hd ht)) ho hx

theorem KeptThrough.rousing {Inv : List Request → Service σ → Prop} (k : KeptThrough op s Inv)
    (hs : s.Steady) (h : Rousing woken w op s) :
    w.Steady ∧ Inv (woken.map Sleeper.request ++ []) w := by
  have hrelease (i : Nat) (h : Rousing woken w (.release i) s) :
      w.Steady ∧ Inv (woken.map Sleeper.request ++ []) w := by
    cases h with
    | release _ _ handle hh hr hk hw =>
      have hi := k.returned hs hh hr
      rw [hw] at hi
      exact hi
  cases h with
  | release _ i handle hh hr hk hw => exact hrelease i (.release s i handle hh hr hk hw)
  | close _ i h => exact hrelease i h
  | advance _ span x hx h =>
    subst hx
    exact k.toKept.falls (fun r t h => .advance s span h) hs k.first h
  | cancel _ token hx hw =>
    subst hx hw
    exact k.cancelled hs token

theorem KeptThrough.episode {Inv : List Request → Service σ → Prop} {u : Service σ}
    (k : KeptThrough op s Inv) (hs : s.Steady) (h : Episode op s r v u) :
    ∃ others, Inv (r :: others) v := by
  cases h with
  | come form ho hl => exact ⟨[], k.come form ho hl⟩
  | called x _ w woken hr hc =>
    obtain ⟨hw, hi⟩ := k.rousing hs hr
    exact k.toKept.calls (fun r t ht => begins_of_rousing hr ht) hw hi hc

/-- The search of a stretch comes to a result, or it finds the pool at a standstill and the caller
blocks. -/
inductive Pursuit (r : Request) (s : Service σ) : Service σ → Prop
  | settled (looks : List Look) (outcome : Outcome) (result : Except PoolError Entry) (q : Pool σ)
      (hs : s.pool.seek s.now r = (outcome, q)) (h : s.pool.Loop s.now r looks outcome q)
      (hr : outcome.result? = some result) : Pursuit r s ({ s with pool := q }.settle r result)
  | blocked (h : s.pool.AtStandstill s.now) : Pursuit r s (s.block r)

theorem pursuit_pursue (r : Request) (f : s.pool.books.Fit none) : Pursuit r s (s.pursue r) := by
  obtain ⟨looks, h⟩ := Pool.seek_loop s.now r s.pool f
  unfold pursue
  generalize hs : s.pool.seek s.now r = found at h
  obtain ⟨outcome, q⟩ := found
  cases outcome with
  | granted e => exact .settled looks (.granted e) (.ok e) q hs h rfl
  | failed error => exact .settled looks (.failed error) (.error error) q hs h rfl
  | saturated r' =>
    -- the search has changed neither the pool nor the request
    obtain ⟨hstill, hq, rfl⟩ := h.atStandstill f rfl
    change q = s.pool at hq
    subst hq
    exact .blocked hstill

structure Settles (r : Request) (result : Except PoolError Entry) (v u : Service σ) : Prop where
  settlements : u.settlements = ⟨r.caller, v.now, result⟩ :: v.settlements
  waiting : u.waiting.Sublist v.waiting

structure FallsAsleep (r : Request) (v u : Service σ) : Prop where
  settlements : u.settlements = v.settlements
  waiting : ∃ y, u.waiting = v.waiting ++ [y] ∧ y.request = { r with hasWaited := true }

omit [Driver σ] in
theorem Settles.not_asleep {result : Except PoolError Entry} {u : Service σ}
    (h : Settles r result v u) (x : Sleeper) : u.waiting ≠ v.waiting ++ [x] := by
  intro hx
  have hl := h.waiting.length_le
  rw [hx, List.length_append, List.length_singleton] at hl
  exact Nat.not_succ_le_self _ hl

omit [Driver σ] in
theorem block_ends (r : Request) (s : Service σ) :
    Settles r (.error .interrupted) s (s.block r) ∨ FallsAsleep r s (s.block r) := by
  have hs := settlements_countWait r s
  have hw := waiting_countWait r s
  unfold block
  dsimp only
  split
  · left
    constructor
    · rw [settlements_settle, hs, now_countWait]
    · rw [waiting_settle, hw]
  · exact Or.inr ⟨hs, _, congrArg (· ++ _) hw, rfl⟩

theorem settles_seek {outcome : Outcome} {q : Pool σ} (r : Request)
    (result : Except PoolError Entry) (h : s.pool.seek s.now r = (outcome, q)) :
    Settles r result s ({ s with pool := q }.settle r result) where
  settlements := by
    have hq := Pool.settlements_seek s.now r s.pool
    rw [h] at hq
    rw [settlements_settle, settlements_books, settlements_books]
    exact congrArg _ hq
  waiting := by rw [waiting_settle]

theorem Pursuit.ends {u : Service σ} (h : Pursuit r s u) :
    (∃ result, Settles r result s u) ∨ FallsAsleep r s u := by
  cases h with
  | settled looks outcome result q hs h hr => exact Or.inl ⟨result, settles_seek r result hs⟩
  | blocked h => exact (block_ends r s).imp_left fun h => ⟨_, h⟩

omit [Driver σ] in
theorem gaveUp_ends (r : Request) (x : Sleeper) (v : Service σ) :
    Settles r (.error .interrupted) v
      ((v.awake x).takeFirst.2.settle r (.error .interrupted)) := by
  constructor
  · rw [settlements_settle, takeFirst_rest]
    rfl
  · rw [waiting_settle, takeFirst_rest]
    exact List.tail_sublist _

theorem Episode.ends {u : Service σ} (h : Episode op s r v u) (hv : v.Steady) :
    (∃ result, Settles r result v u) ∨ FallsAsleep r v u := by
  cases h.course with
  | came _ hb => exact (pursuit_pursue r hv.2).ends
  | woke x _ hr hb =>
    have ha := steady_moves (.single (.awake v x)) hv
    exact (pursuit_pursue r ha.2).ends.imp (fun ⟨result, h⟩ => ⟨result, h.settlements, h.waiting⟩)
      fun h => ⟨h.settlements, h.waiting⟩
  | gaveUp x _ hr hc => exact Or.inl ⟨.error .interrupted, gaveUp_ends r x v⟩

theorem calls_moves (h : Calls x v woken w) : Moves (none, w) (none, v) := by
  induction h with
  | here rest => exact .refl
  | later s y rest h ih => exact (resume_moves s y).trans ih

theorem falls_moves {target : Nat} (h : Falls x w target s) : Moves (none, s) (none, w) := by
  induction h with
  | here s others he hd hw =>
    have hp : Moves (none, s) (none, { s with now := max s.now x.deadline }) :=
      .single (.pass s _ (Nat.le_max_left _ _))
    exact hw ▸ hp.tail (.leave _ others (Sleeper.earliest_sublist _ _ _ he))
  | later s y others he hd h ih =>
    exact (timeOut_moves s y others (Sleeper.earliest_sublist _ _ _ he)).trans ih

theorem rousing_moves (h : Rousing woken w op s) : Moves (none, s) (none, w) := by
  induction h with
  | release s i handle hh hr hk hw =>
    have ht : Moves (none, s) (none, s.takeBack i handle) := .single (.takeBack s i handle hh hr)
    have hf := ht.trans (takeFirst_moves _)
    rw [hw] at hf
    exact hf
  | close s i h ih => exact ih
  | advance s span x hx h => exact falls_moves h
  | cancel s token hx hw =>
    have hl : Moves (none, s) (none, { s with waiting := [] }) :=
      .single (.leave s [] (List.nil_sublist _))
    exact hw ▸ hl.tail (.mark _ token rfl)

theorem Episode.moves {u : Service σ} (h : Episode op s r v u) :
    Moves (none, s) (none, v) ∧ Moves (none, v) (none, u) := by
  cases h with
  | come form ho hl => exact ⟨.single (.come s), pursue_moves _ _⟩
  | called x v w woken hr hc =>
    exact ⟨(rousing_moves hr).trans (calls_moves hc), resume_moves v x⟩

theorem Episode.steady {u : Service σ} (h : Episode op s r v u) (hs : s.Steady) : v.Steady :=
  steady_moves h.moves.1 hs

/-- The property holds before the operation, and every episode and whatever else the operation does
keep it. It does not look at the queue, at the clock or at the tokens. -/
structure KeptByEpisodes (op : Op σ) (s : Service σ) (P : Service σ → Prop) : Prop where
  first : P s
  frame : ∀ u u', u'.pool = u.pool → u'.handles = u.handles → P u → P u'
  episode : ∀ {r v u}, Episode op s r v u → P v → P u
  takeBack : ∀ {i handle}, s.handles[i]? = some handle → handle.released = false →
    P (s.takeBack i handle)
  forward : ∀ i c, c ≠ .close → P (s.forward i c).2
  command : ∀ s', Command op s s' → P s'

namespace KeptByEpisodes

variable {P : Service σ → Prop}

theorem takeFirst (k : KeptByEpisodes op s P) (h : P v) : P v.takeFirst.2 := by
  rw [takeFirst_rest]
  exact k.frame v _ rfl rfl h

theorem rouse (k : KeptByEpisodes op s P)
    (he : ∀ x v, Calls x v woken w → Episode op s x.request v (v.resume x).2) (h : P w) :
    P (w.rouse woken) := by
  fun_induction Service.rouse woken w with
  | case1 w => exact h
  | case2 w x rest ih =>
    refine ih (fun y v hc => he y v (.later w x rest hc)) ?_
    exact k.episode (he x w (.here rest)) h

theorem roused (k : KeptByEpisodes op s P) (hr : Rousing woken w op s) (h : P w) :
    P (w.rouse woken) :=
  k.rouse (fun x v hc => .called x v w woken hr hc) h

theorem elapse (k : KeptByEpisodes op s P) (target : Nat)
    (he : ∀ x w, Falls x w target v → Rousing [x] w op s) (h : P v) : P (v.elapse target) := by
  fun_induction Service.elapse target v with
  | case1 v hn => exact k.frame v _ rfl rfl h
  | case2 v x others hx hd ih =>
    refine ih (fun y w hf => he y w (.later v x others hx hd hf)) ?_
    rw [timeOut_eq]
    exact k.roused (he x _ (.here v others hx hd rfl)) (k.frame v _ rfl rfl h)
  | case3 v x others hx hd => exact k.frame v _ rfl rfl h

theorem release (k : KeptByEpisodes op s P) (i : Nat)
    (he : ∀ woken w, Rousing woken w (.release i) s → Rousing woken w op s) :
    P (s.release i) := by
  rcases release_cases s i with h | ⟨handle, hh, hr, h⟩
  · rw [h]
    exact k.first
  · rw [h]
    split
    · rename_i hk
      exact k.roused (he _ _ (.release s i handle hh hr hk rfl)) (k.takeFirst (k.takeBack hh hr))
    · exact k.takeBack hh hr

theorem step (k : KeptByEpisodes op s P) : P (step op s) := by
  by_cases ho : op.isCommand = true
  · rcases step_command s op ho with h | h
    · rw [h]
      exact k.first
    · exact k.command _ h
  · cases op with
    | acquire form =>
      simp only [Service.step]
      split
      · rename_i hl
        exact k.episode (.come form rfl hl) (k.frame s _ rfl rfl k.first)
      · exact k.first
    | call i c =>
      by_cases hc : c = .close
      · subst hc
        exact k.release i fun woken w h => .close s i h
      · show P (s.call i c).2
        rw [call_eq_forward s i c hc]
        exact k.forward i c hc
    | release i => exact k.release i fun woken w h => h
    | advance span =>
      exact k.elapse _ (fun x w h => .advance s span x rfl h) k.first
    | cancel token =>
      exact k.roused (.cancel s token rfl rfl) (k.frame s _ rfl rfl k.first)
    | issueToken | reset | reconfigure update | shutDown | meddle f => exact absurd rfl ho

end KeptByEpisodes

/-- In the operation an episode settles this. -/
def SettledIn (op : Op σ) (s : Service σ) (x : Settlement) : Prop :=
  ∃ r v u, Episode op s r v u ∧ r.caller = x.caller ∧ v.now = x.instant ∧
    u.settlements = x :: v.settlements

theorem settledIn_step (op : Op σ) (hs : s.Steady) :
    ∃ newer, (step op s).settlements = newer ++ s.settlements ∧ ∀ x ∈ newer, SettledIn op s x := by
  have hkept : KeptByEpisodes op s fun u =>
      ∃ newer, u.settlements = newer ++ s.settlements ∧ ∀ x ∈ newer, SettledIn op s x := by
    have hnone {u : Service σ} (hu : u.settlements = s.settlements) :
        ∃ newer, u.settlements = newer ++ s.settlements ∧ ∀ x ∈ newer, SettledIn op s x :=
      ⟨[], hu, fun _ hx => absurd hx List.not_mem_nil⟩
    refine ⟨hnone rfl, fun u u' hp _ hu => ?_, fun {r v u} he hv => ?_, fun _ _ => hnone ?_,
      fun i c _ => hnone (settlements_forward s i c),
      fun s' h => hnone (settlements_command op s s' h)⟩
    · rw [settlements_books, hp, ← settlements_books]
      exact hu
    · obtain ⟨newer, hn, hx⟩ := hv
      rcases he.ends (he.steady hs) with ⟨result, h⟩ | h
      · refine ⟨_ :: newer, by rw [h.settlements, hn]; rfl, fun x hm => ?_⟩
        rcases List.mem_cons.mp hm with rfl | hm
        · exact ⟨r, v, u, he, rfl, rfl, h.settlements⟩
        · exact hx x hm
      · exact ⟨newer, h.settlements.trans hn, hx⟩
    · rw [settlements_books, settlements_books]
      exact Pool.settlements_takeBack s.now _ s.pool
  exact hkept.step

theorem settledIn_run (ops : List (Op σ)) (hs : s.Steady) {x : Settlement}
    (hx : x ∈ (run ops s).settlements) :
    x ∈ s.settlements ∨ ∃ before op after, ops = before ++ op :: after ∧
      SettledIn op (run before s) x := by
  induction ops generalizing s with
  | nil => exact Or.inl hx
  | cons op rest ih =>
    rcases ih (steady_step op hs) hx with hx | ⟨before, op', after, rfl, hr⟩
    · obtain ⟨newer, hn, hnew⟩ := settledIn_step op hs
      rw [hn] at hx
      rcases List.mem_append.mp hx with hx | hx
      · exact Or.inr ⟨[], op, rest, rfl, hnew x hx⟩
      · exact Or.inl hx
    · exact Or.inr ⟨op :: before, op', after, rfl, hr⟩

end Service

end ConnectionPool
