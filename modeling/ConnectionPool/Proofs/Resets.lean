import ConnectionPool.Driver.Scripted
import ConnectionPool.Proofs.Upkeep

/-!
# Configurations in force

Whatever a caller proposes, the configuration in force is usable: a pool starts with a usable one,
and a new one takes effect as a whole and with a reset, or it is refused and the service stays
exactly as it was. It is the resulting configuration that is judged, so it does not matter whether
the changes are usable one at a time. A reset leaves no connection, invalidates every lease, counts
nothing and wakes nobody.
-/

set_option autoImplicit false

namespace ConnectionPool

namespace Config

/-- One connection may be active, the limit of bad connections is a word, and there is something to
ping with. -/
structure Usable (c : Config) : Prop where
  active_pos : 1 ≤ c.maxActive.toNat
  limit_lt : c.maxIdle.toNat + c.tolerance.toNat < UInt64.size
  query : c.pingEnabled = true → Text.allBlank c.pingQuery.toList = false

theorem active_pos_iff (c : Config) : 1 ≤ c.maxActive.toNat ↔ c.maxActive ≠ 0 := by
  rw [Nat.one_le_iff_ne_zero]
  exact not_congr (UInt64.toNat_inj (b := 0))

theorem validate_iff (c : Config) : c.validate = .ok () ↔ c.Usable := by
  unfold validate
  constructor
  · intro h
    split at h
    · exact absurd h (by simp)
    · rename_i ha
      split at h
      · exact absurd h (by simp)
      · rename_i hl
        split at h
        · exact absurd h (by simp)
        · rename_i hq
          refine ⟨(active_pos_iff c).mpr ha, Nat.lt_of_not_le hl, fun hp => ?_⟩
          simpa [hp] using hq
  · intro u
    have ha := (active_pos_iff c).mp u.active_pos
    have hl : ¬ UInt64.size ≤ c.maxIdle.toNat + c.tolerance.toNat := Nat.not_le.mpr u.limit_lt
    rw [if_neg ha, if_neg hl, if_neg]
    intro hq
    obtain ⟨hp, hb⟩ := Bool.and_eq_true_iff.mp hq
    rw [u.query hp] at hb
    exact Bool.noConfusion hb

end Config

namespace Service

variable {σ : Type} {s t : Service σ}

/-- Nothing is held and no handle is valid any more, nothing was counted and nobody was woken. -/
structure Cleared (s t : Service σ) : Prop where
  idle : t.pool.idle = []
  active : t.pool.active = []
  handles : t.handles = s.handles
  invalidated : ∀ handle ∈ s.handles, s.isValid handle = true →
    t.pool.status handle.entry.id = .invalidated
  stale : ∀ handle ∈ t.handles, t.isValid handle = false
  tally : t.pool.tally = s.pool.tally
  waiting : t.waiting = s.waiting

variable [Driver σ]

theorem cleared_of_reset (config : Config) (l : s.HasLedger none)
    (hp : t.pool = { s.pool with config }.reset) (hh : t.handles = s.handles)
    (hw : t.waiting = s.waiting) : Cleared s t := by
  obtain ⟨-, hi, ha, -, -⟩ := Pool.reset_frame { s.pool with config }
  have hs := Pool.status_reset { s.pool with config }
  rw [← hp] at hi ha hs
  have hlost : ∀ handle ∈ s.handles, s.pool.status handle.entry.id = .valid →
      t.pool.status handle.entry.id = .invalidated := by
    intro handle hm hv
    have he : handle.entry ∈ s.pool.idle ++ s.pool.active :=
      List.mem_append_right s.pool.idle (l.running handle hm hv)
    rw [hs]
    exact if_pos ⟨List.mem_map_of_mem he, hv⟩
  refine ⟨hi, ha, hh, fun handle hm hv => hlost handle hm (status_of_isValid handle s hv), ?_, ?_,
    hw⟩
  · intro handle hm
    rw [hh] at hm
    -- a valid entry of a handle would have been valid before, and a lease
    refine Bool.eq_false_iff.mpr fun hv => ?_
    have hv := status_of_isValid handle t hv
    by_cases hb : s.pool.status handle.entry.id = .valid
    · exact absurd ((hlost handle hm hb).symm.trans hv) (by decide)
    · rw [hs, if_neg fun h => hb h.2] at hv
      exact hb hv
  · rw [hp]
    exact (Pool.reset_rest { s.pool with config }).2.2

theorem config_move (m m' : Option Entry × Service σ) (h : Move m m') :
    m'.2.pool.config = m.2.pool.config ∧
      m'.2.pool.expectedTypeCode = m.2.pool.expectedTypeCode := by
  cases h with
  | mark s | come s | pass s | leave s | awake s x | sleep s r hs hc | fail s r error =>
    exact ⟨rfl, rfl⟩
  | countWait s r =>
    unfold countWait
    split <;> exact ⟨rfl, rfl⟩
  | turn s caller hand hand' q h => exact (Pool.turn_books h).config
  | grant s r e q h =>
    obtain ⟨hc, hx, -, -⟩ := Pool.grant_frame h
    exact ⟨hc, hx⟩
  | takeBack s i handle hh hr =>
    exact s.pool.takeBack_cases s.now handle.entry (motive := fun _ b =>
        b.config = s.pool.config ∧ b.expectedTypeCode = s.pool.expectedTypeCode)
      (fun _ => ⟨rfl, rfl⟩) (fun _ _ => ⟨rfl, rfl⟩) (fun _ _ => ⟨rfl, rfl⟩)

theorem config_moves {hand hand' : Option Entry} (h : Moves (hand, s) (hand', t)) :
    t.pool.config = s.pool.config ∧ t.pool.expectedTypeCode = s.pool.expectedTypeCode := by
  refine moves_keep (fun _ u => u.pool.config = s.pool.config ∧
    u.pool.expectedTypeCode = s.pool.expectedTypeCode) ?_ _ _ h ⟨rfl, rfl⟩
  intro m m' hm hu
  obtain ⟨hc, hx⟩ := config_move m m' hm
  exact ⟨hc.trans hu.1, hx.trans hu.2⟩

theorem config_forward (s : Service σ) (i : Nat) (c : Call) :
    (s.forward i c).2.pool.config = s.pool.config ∧
      (s.forward i c).2.pool.expectedTypeCode = s.pool.expectedTypeCode := by
  rcases (forward_cases s i c).2 with hb | ⟨handle, error, -, -, -, -, hb⟩ <;>
    exact ⟨congrArg Books.config hb, congrArg Books.expectedTypeCode hb⟩

theorem command_cases (op : Op σ) (s s' : Service σ) (h : Command op s s') :
    s'.waiting = s.waiting ∧ s'.handles = s.handles ∧
      (s'.pool.books = s.pool.books ∨
        ∃ config, (config = s.pool.config ∨ config.Usable) ∧
          s'.pool = { s.pool with config }.reset) := by
  cases h with
  | meddle s f | issueToken s hl => exact ⟨rfl, rfl, Or.inl rfl⟩
  | reset s hl | shutDown s hl hw =>
    exact ⟨rfl, rfl, Or.inr ⟨s.pool.config, Or.inl rfl, rfl⟩⟩
  | reconfigure s update hl =>
    refine ⟨rfl, rfl, ?_⟩
    unfold reconfigure
    cases hv : (update s.pool.config).validate with
    | error error =>
      rw [Pool.reconfigure_of_error update s.pool error hv]
      exact Or.inl rfl
    | ok _ =>
      rw [Pool.reconfigure_of_ok update s.pool hv]
      exact Or.inr ⟨update s.pool.config, Or.inr ((Config.validate_iff _).mp hv), rfl⟩

theorem usable_command (op : Op σ) (s s' : Service σ) (h : Command op s s')
    (hu : s.pool.config.Usable) : s'.pool.config.Usable := by
  obtain ⟨-, -, hb | ⟨config, hc, hp⟩⟩ := command_cases op s s' h
  · have hconfig : s'.pool.config = s.pool.config := congrArg Books.config hb
    exact hconfig ▸ hu
  · rw [hp, (Pool.reset_frame { s.pool with config }).1]
    exact hc.elim (fun he => he ▸ hu) id

theorem usable_run (ops : List (Op σ)) (s : Service σ) (hu : s.pool.config.Usable) :
    (run ops s).pool.config.Usable := by
  refine run_keeps (fun _ s => s.pool.config.Usable) ?_ ?_ ops
    (fun op _ => usable_command op) s hu
  · intro m m' h hu
    rw [(config_move m m' h).1]
    exact hu
  · intro s i c _ hu
    rw [(forward_frame s i c).2.2.2]
    exact hu

omit [Driver σ] in
theorem usable_start (driver : σ) (config : Config) (pool : Pool σ)
    (h : Pool.create driver config = .ok pool) : (start pool).pool.config.Usable := by
  rw [Pool.of_create driver config pool h]
  unfold Pool.create at h
  cases hv : config.validate with
  | error error =>
    rw [hv] at h
    exact absurd h (by simp [Except.map])
  | ok u => exact (Config.validate_iff config).mp hv

/-- An update is refused and changes nothing, or it is taken over as a whole. -/
structure Decided (update : Config → Config) (s : Service σ) : Prop where
  refused : ∀ error, (update s.pool.config).validate = .error error →
    s.reconfigure update = (.error error, s)
  applied : (update s.pool.config).validate = .ok () →
    s.reconfigure update =
      (.ok (), { s with pool := { s.pool with config := update s.pool.config } }.reset)
  config : (update s.pool.config).validate = .ok () →
    (s.reconfigure update).2.pool.config = update s.pool.config ∧
      (s.reconfigure update).2.pool.expectedTypeCode =
        (update s.pool.config).expectedTypeCode
  cleared : (update s.pool.config).validate = .ok () → Cleared s (s.reconfigure update).2

theorem decided_of_ledger (update : Config → Config) (l : s.HasLedger none) :
    s.Decided update := by
  have happly (hv : (update s.pool.config).validate = .ok ()) :
      s.reconfigure update =
        (.ok (), { s with pool := { s.pool with config := update s.pool.config } }.reset) := by
    rw [reconfigure, Pool.reconfigure_of_ok update s.pool hv]
    rfl
  refine ⟨?_, happly, ?_, ?_⟩
  · intro error hv
    rw [reconfigure, Pool.reconfigure_of_error update s.pool error hv]
  · intro hv
    rw [happly hv]
    exact ⟨(Pool.reset_frame { s.pool with config := update s.pool.config }).1,
      (Pool.reset_rest { s.pool with config := update s.pool.config }).1⟩
  · intro hv
    rw [happly hv]
    exact cleared_of_reset (update s.pool.config) l rfl rfl rfl

/-- After every run of every pool the configuration in force is usable, and whatever update is
proposed is taken over as a whole or refused. -/
theorem reconfiguration_run (driver : σ) (config : Config) (pool : Pool σ)
    (h : Pool.create driver config = .ok pool) (ops : List (Op σ)) :
    (run ops (start pool)).pool.config.validate = .ok () ∧
      (run ops (start pool)).pool.config.Usable ∧
      ∀ update : Config → Config, (run ops (start pool)).Decided update := by
  have hu := usable_run ops (start pool) (usable_start driver config pool h)
  have l := ledger_run ops _ (ledger_start driver config pool h)
  exact ⟨(Config.validate_iff _).mpr hu, hu, fun update => decided_of_ledger update l⟩

def changedLimits : List (Op Scripted) :=
  [.acquire .plain, .reconfigure fun c => c.changeAll [.maxActive 0, .maxIdle 0, .maxActive 1],
    .acquire .plain, .acquire .plain]

theorem reconfiguration_changedLimits :
    (run changedLimits (start (Pool.unused ({} : Scripted) Config.trial))).pool.config.validate =
        .ok () ∧
      (run changedLimits (start (Pool.unused ({} : Scripted) Config.trial))).waiting.length = 1 ∧
      (run changedLimits (start (Pool.unused ({} : Scripted) Config.trial))).reconfigure
          (fun c => { c with maxIdle := 1, tolerance := 0xFFFFFFFFFFFFFFFF }) =
        (.error .limitOverflow,
          run changedLimits (start (Pool.unused ({} : Scripted) Config.trial))) ∧
      Cleared (run changedLimits (start (Pool.unused ({} : Scripted) Config.trial)))
        ((run changedLimits (start (Pool.unused ({} : Scripted) Config.trial))).reconfigure
          fun c => { c with tolerance := 0xFFFFFFFFFFFFFFFF }).2 := by
  obtain ⟨hv, -, hd⟩ := reconfiguration_run ({} : Scripted) Config.trial
    (Pool.unused {} Config.trial) rfl changedLimits
  refine ⟨hv, by decide +kernel, (hd _).refused .limitOverflow (by decide +kernel), ?_⟩
  exact (hd _).cleared (by decide +kernel)

end Service

end ConnectionPool
