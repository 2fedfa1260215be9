import ConnectionPool.Proofs.Brevity

/-!
# Exhaustion

An acquisition that gives up because of bad connections has met exactly one more than it had to
bear. It has met them all in its last stretch, as it has met none before a sleep; so the limit that
counts is the one in force when it gives up. Those that were idle are no more than may be idle. If
none was idle, one may have been taken from an overdue lease; all others the driver has opened in
the course of that stretch.
-/

set_option autoImplicit false

namespace ConnectionPool

deriving instance DecidableEq for Settlement

namespace Look

theorem sound_of_isGood {looks : List Look} (h : looks.countP isGood = 0) {x : Examination}
    (hx : x ∈ looks.filterMap examination?) : x.sound = false := by
  obtain ⟨look, hm, he⟩ := List.mem_filterMap.mp hx
  have hn := List.countP_eq_zero.mp h look hm
  cases look with
  | tried source y =>
    obtain rfl := Option.some.inj he
    simpa [isGood] using hn
  | dropped oldest | refused error | standstill => exact absurd he (by simp [examination?])

end Look

namespace Pool

variable {σ : Type} [Driver σ] {now : Nat} {r : Request} {p q : Pool σ} {looks : List Look}
  {outcome : Outcome}

theorem Loop.examiner (h : Loop now r p looks outcome q) {x : Examination}
    (hx : x ∈ looks.filterMap Look.examination?) : x.caller = r.caller := by
  induction h with
  | granted r p p₁ p₂ source e ht hs | exhausted r p p₁ p₂ source e ht hs hl =>
    rw [List.mem_singleton.mp hx]
    rfl
  | again r p p₁ p₂ q source e looks outcome ht hs hl h ih =>
    rcases List.mem_cons.mp hx with rfl | hx
    · rfl
    · exact ih hx
  | dropped r p p' q oldest looks outcome hd hr h ih => exact ih hx
  | refused r p q error hi hr h | standstill r p hi hr ho => exact absurd hx List.not_mem_nil

/-- Whoever gives up has counted as many bad connections as the limit, and met one more. -/
theorem Loop.gives_up {error : PoolError} (h : Loop now r p looks outcome q)
    (ho : outcome = .failed error) (he : (∃ n, error = .exhausted n) ∨ error = .overflow)
    (hs : r.strikes.toNat ≤ p.config.badLimit.toNat) :
    error = Request.exhaustion { r with strikes := p.config.badLimit } ∧
      r.strikes.toNat + looks.countP Look.isBad = p.config.badLimit.toNat + 1 ∧
      looks.countP Look.isGood = 0 := by
  induction h with
  | granted r p p₁ p₂ source e ht hx => exact Outcome.noConfusion ho
  | exhausted r p p₁ p₂ source e ht hx hl =>
    have hn : r.strikes = p.config.badLimit := UInt64.toNat_inj.mp (by omega)
    exact ⟨hn ▸ (Outcome.failed.inj ho).symm, hn ▸ rfl, rfl⟩
  | again r p p₁ p₂ q source e looks outcome ht hx hl h ih =>
    rw [config_rejected ht hx] at ih
    dsimp only at ih
    rw [toNat_strike hl] at ih
    obtain ⟨hn, hb, hg⟩ := ih ho hl
    refine ⟨hn, ?_, hg⟩
    rw [List.countP_cons]
    exact (Nat.add_right_comm r.strikes.toNat _ 1).trans hb
  | dropped r p p' q oldest looks outcome hd hr h ih =>
    have hc : p'.config = p.config := (turn_books hd.turn).config.1
    rw [hc] at ih
    exact ih ho hs
  | refused r p q error' hi hr h =>
    obtain rfl := Outcome.failed.inj ho
    exact absurd he (by simp)
  | standstill r p hi hr hn =>
    split at ho
    · obtain rfl := Outcome.failed.inj ho
      exact absurd he (by simp)
    · exact Outcome.noConfusion ho

/-- In one search the caller has met `n` bad connections, as many as make it give up. -/
structure Exhausted (r : Request) (n : Nat) (looks : List Look) (p q : Pool σ) : Prop where
  config : q.config = p.config
  limit : n = q.config.maxIdle.toNat + q.config.tolerance.toNat + 1
  bad : q.tally.bad = p.tally.bad + n
  requests : q.tally.requests = p.tally.requests
  examined : q.examinations = (looks.filterMap Look.examination?).reverse ++ p.examinations
  length : (looks.filterMap Look.examination?).length = n
  met : ∀ x ∈ looks.filterMap Look.examination?, x.caller = r.caller ∧ x.sound = false
  idle : p.idle = looks.filterMap Look.idle? ++ q.idle
  fromIdle : (looks.filterMap Look.idle?).length ≤ q.config.maxIdle.toNat
  opened : q.backend.opened = p.backend.opened + looks.countP (Look.isFrom .opened)
  fromDriver : q.config.tolerance.toNat ≤ looks.countP (Look.isFrom .opened)
  /-- There is no other source but the oldest lease. -/
  sources : n = (looks.filterMap Look.idle?).length + looks.countP (Look.isFrom .opened) +
    looks.countP (Look.isFrom .claimed)

theorem exhausted_of_loop {n : UInt64} (h : Loop now r p looks (.failed (.exhausted n)) q)
    (f : p.books.Fit none) (hs : r.strikes = 0) : Exhausted r n.toNat looks p q := by
  have k := h.sums
  obtain ⟨he, hb, hg⟩ := h.gives_up rfl (Or.inl ⟨n, rfl⟩) (by rw [hs]; exact Nat.zero_le _)
  have hn : n.toNat = p.config.badLimit.toNat + 1 := Request.exhaustion_eq_exhausted.mp he.symm
  rw [hs, UInt64.toNat_zero, Nat.zero_add, ← hn] at hb
  have hc : q.config = p.config := k.config
  have hl := p.config.toNat_badLimit
  have hword := n.toNat_lt_size
  have ht : looks.countP Look.isTrial = n.toNat := by
    rw [Look.trials_eq, hb, hg, Nat.add_zero]
  have hsources := Look.trials_eq_sources looks
  have hleases := Look.endsLease_eq looks
  have hidle : (looks.filterMap Look.idle?).length ≤ p.idle.length := by
    have hi : p.idle = looks.filterMap Look.idle? ++ q.idle := k.idle
    rw [hi, List.length_append]
    exact Nat.le_add_right _ _
  have hmax : p.idle.length ≤ p.config.maxIdle.toNat := f.idle_le
  rw [← Look.length_idle looks, ht] at hsources
  have hopened : p.config.tolerance.toNat ≤ looks.countP (Look.isFrom .opened) := by
    obtain ⟨hone, hnone, -⟩ := h.within f
    -- either no lease was taken, or none was idle and one lease was taken at most
    rcases hnone with hz | hz
    · omega
    · have hzero : p.idle.length = 0 := congrArg List.length hz
      omega
  have hbad := k.bad
  rw [hb] at hbad
  have hrequests := k.requests
  rw [hg] at hrequests
  refine ⟨hc, by rw [hc]; omega, hbad, hrequests, ?_, ?_, ?_, k.idle, by rw [hc]; omega, k.opened,
    by rw [hc]; exact hopened, hsources⟩
  · rw [examinations_books, examinations_books]
    exact k.examinations
  · rw [Look.length_examinations, ht]
  · exact fun x hx => ⟨h.examiner hx, Look.sound_of_isGood hg hx⟩

end Pool

namespace Service

variable {σ : Type} [Driver σ]

/-- A stretch of the operation comes to nothing but bad connections, `n` of them. Its caller has
done nothing else before. -/
def Exhausts (op : Op σ) (s : Service σ) (caller instant : Nat) (n : UInt64) : Prop :=
  ∃ r t looks q, Begins r t op s ∧ r.caller = caller ∧ t.now = instant ∧
    t.pool.seek t.now r = (.failed (.exhausted n), q) ∧ caller ∉ t.seen Event.busy? ∧
    t.pool.Loop t.now r looks (.failed (.exhausted n)) q ∧
    Pool.Exhausted r n.toNat looks t.pool q

theorem failed_of_result {outcome : Outcome} {error : PoolError}
    (h : outcome.result? = some (.error error)) : outcome = .failed error := by
  cases outcome with
  | granted entry => exact absurd (Option.some.inj h) (by simp)
  | failed error' => exact congrArg _ (Except.error.inj (Option.some.inj h))
  | saturated r' => exact absurd h (by simp [Outcome.result?])

theorem exhausts_of_results {op : Op σ} {s : Service σ} {caller instant : Nat} {n : UInt64}
    (ho : s.Steady) (k : Rested [] s)
    (h : Results op s ⟨caller, instant, .error (.exhausted n)⟩) :
    Exhausts op s caller instant n := by
  obtain ⟨r, t, hb, rfl, rfl, hr⟩ := h
  obtain ⟨hot, hs, hrested⟩ := rested_begins ho k hb
  obtain ⟨looks, hloop⟩ := Pool.seek_loop t.now r t.pool hot.2
  generalize hq : t.pool.seek t.now r = found at hr hloop
  obtain ⟨outcome, q⟩ := found
  obtain rfl := failed_of_result hr
  refine ⟨r, t, looks, q, hb, rfl, rfl, hq, ?_, hloop, Pool.exhausted_of_loop hloop hot.2 hs⟩
  rw [seen_books Event.busy_of_traffic]
  exact hrested

/-- In every run of every pool, an acquisition that returned that it is exhausted met as many bad
connections as it says, one more than the limit in force, all of them in its last stretch. Its other
stretches left the pool as it was. -/
theorem exhaustion_run (driver : σ) (config : Config) (pool : Pool σ)
    (h : Pool.create driver config = .ok pool) (ops : List (Op σ)) :
    (∀ caller instant n,
      ⟨caller, instant, .error (.exhausted n)⟩ ∈ (run ops (start pool)).settlements →
        ∃ before op after, ops = before ++ op :: after ∧
          Exhausts op (run before (start pool)) caller instant n) ∧
      ∀ op r t r', Begins r t op (run ops (start pool)) →
        (t.pool.seek t.now r).1 = .saturated r' → (t.pool.seek t.now r).2 = t.pool := by
  have ho := steady_start driver config pool h
  have k := rested_start driver config pool h
  constructor
  · intro caller instant n hx
    rcases settled_run ops ho hx (by simp) with hx | ⟨before, op, after, rfl, hr⟩
    · rw [Pool.of_create driver config pool h] at hx
      exact absurd hx List.not_mem_nil
    · refine ⟨before, op, after, rfl, exhausts_of_results ?_ (rested_run before ho k) hr⟩
      exact fit_run driver config pool h before
  · intro op r t r' hb hsat
    obtain ⟨hot, -, -⟩ := rested_begins (fit_run driver config pool h ops) (rested_run ops ho k) hb
    obtain ⟨looks, hloop⟩ := Pool.seek_loop t.now r t.pool hot.2
    exact (hloop.saturated hot.2 hsat).2.1

/-- In every run of every pool, the count of an acquisition overflows only if the limit in force is
the greatest word. -/
theorem overflow_run (driver : σ) (config : Config) (pool : Pool σ)
    (h : Pool.create driver config = .ok pool) (ops : List (Op σ)) (caller instant : Nat)
    (hx : ⟨caller, instant, .error .overflow⟩ ∈ (run ops (start pool)).settlements) :
    ∃ before op after r t, ops = before ++ op :: after ∧ Begins r t op (run before (start pool)) ∧
      r.caller = caller ∧ t.now = instant ∧
      t.pool.config.badLimit.toNat + 1 = UInt64.size := by
  have ho := steady_start driver config pool h
  rcases settled_run ops ho hx (by simp) with hx | ⟨before, op, after, rfl, hr⟩
  · rw [Pool.of_create driver config pool h] at hx
    exact absurd hx List.not_mem_nil
  obtain ⟨r, t, hb, hcaller, hnow, hr⟩ := hr
  obtain ⟨hot, hs, -⟩ := rested_begins (fit_run driver config pool h before)
    (rested_run before ho (rested_start driver config pool h)) hb
  obtain ⟨looks, hloop⟩ := Pool.seek_loop t.now r t.pool hot.2
  obtain ⟨he, -, -⟩ := hloop.gives_up (failed_of_result hr) (Or.inr rfl)
    (by rw [hs]; exact Nat.zero_le _)
  have hlimit := Request.exhaustion_eq_overflow.mp he.symm
  exact ⟨before, op, after, r, t, rfl, hb, hcaller, hnow,
    Nat.le_antisymm t.pool.config.badLimit.toNat_lt_size hlimit⟩

def onlyBrokenOpenings : List (Op Scripted) :=
  [.meddle fun s => { s with openingBroken := true }, .acquire .plain]

theorem exhaustion_onlyBrokenOpenings :
    Pool.create ({} : Scripted) Config.trial = .ok (Pool.unused {} Config.trial) ∧
      ⟨0, 0, .error (.exhausted 9)⟩ ∈
        (run onlyBrokenOpenings (start (Pool.unused ({} : Scripted) Config.trial))).settlements ∧
      ∃ before op after, onlyBrokenOpenings = before ++ op :: after ∧
        Exhausts op (run before (start (Pool.unused ({} : Scripted) Config.trial))) 0 0 9 := by
  have hx : ⟨0, 0, .error (.exhausted 9)⟩ ∈
      (run onlyBrokenOpenings (start (Pool.unused ({} : Scripted) Config.trial))).settlements := by
    decide +kernel
  have h := exhaustion_run ({} : Scripted) Config.trial (Pool.unused {} Config.trial) rfl
    onlyBrokenOpenings
  exact ⟨rfl, hx, h.1 0 0 9 hx⟩

end Service

end ConnectionPool
