import ConnectionPool.Proofs.Capacity
import ConnectionPool.Proofs.Deadlines
import ConnectionPool.Proofs.Relay
import Mathlib.Data.List.Induction

/-!
# Starvation

A caller starves if it sleeps while there is room for another connection. Only a connection that
goes to the idle set wakes a caller. Room that comes about in another way, by a reset, by a return
that ends in a close or by an acquisition that fails, is noticed by those who sleep when their
waiting time is over. So a pool comes to starve its callers in these ways and in no other, and no
caller oversleeps.
-/

set_option autoImplicit false

namespace ConnectionPool

namespace Books

def fill (b : Books) : Nat := min (b.active.length + 1) b.config.maxActive.toNat

theorem fill_tail {b : Books} {oldest : Entry} {rest : List Entry}
    (ha : b.active = oldest :: rest) (hf : b.config.maxActive.toNat ≤ b.active.length) :
    { b with active := rest }.fill = b.fill := by
  have hl : b.active.length = rest.length + 1 := by rw [ha]; rfl
  show min (rest.length + 1) b.config.maxActive.toNat = min (b.active.length + 1) _
  omega

theorem Turn.fill {now caller : Nat} {m m' : Option Entry × Books} (h : Turn now caller m m') :
    m'.2.config = m.2.config ∧ m'.2.fill = m.2.fill := by
  cases h with
  | pick b e rest hi | connect b hi hr | refuse b | reject b e => exact ⟨rfl, rfl⟩
  | claim b oldest rest hi hf ha hv => exact ⟨rfl, fill_tail ha hf⟩
  | drop b oldest rest hi hf ha hv => exact ⟨rfl, fill_tail ha hf⟩

end Books

namespace Pool

variable {σ : Type} [Driver σ]

theorem fill_turns {now caller : Nat} {m m' : Option Entry × Pool σ} (h : Turns now caller m m') :
    m'.2.books.config = m.2.books.config ∧ m'.2.books.fill = m.2.books.fill := by
  induction h with
  | refl => exact ⟨rfl, rfl⟩
  | tail _ ht ih =>
    obtain ⟨hc, hf⟩ := (turn_books ht).fill
    exact ⟨hc.trans ih.1, hf.trans ih.2⟩

theorem fill_le_of_granted {now : Nat} {r : Request} {p q : Pool σ} {lent : Entry}
    (h : p.seek now r = (.granted lent, q)) :
    q.config = p.config ∧ p.books.fill ≤ q.active.length := by
  have he := seek_ends now r p
  rw [h] at he
  obtain ⟨e, p₁, p₂, ht, hx, hg⟩ := he
  obtain ⟨-, rfl⟩ := Prod.mk.inj hg
  obtain ⟨hc, hf⟩ := fill_turns ht
  have hb := examine_books now r.caller e true p₁ p₂ hx
  have hc₂ : p₂.config = p₁.config := congrArg Books.config hb
  have ha₂ : p₂.active = p₁.active := congrArg Books.active hb
  have hl : (p₂.active ++ [(p₂.grant now r e).1]).length = p₁.active.length + 1 := by
    rw [ha₂]
    exact List.length_append
  constructor
  · exact hc₂.trans hc
  · rw [← hf]
    exact hl ▸ Nat.min_le_left _ _

end Pool

namespace Service

variable {σ : Type} {past : List Settlement} {s s' : Service σ}

/-- A caller sleeps though another connection may be active. -/
def Starved (s : Service σ) : Prop :=
  s.waiting ≠ [] ∧ s.pool.active.length < s.pool.config.maxActive.toNat

instance (s : Service σ) : Decidable s.Starved :=
  inferInstanceAs (Decidable (_ ∧ _))

/-- An acquisition failed after those of the past were settled. -/
def FailedSince (past : List Settlement) (s : Service σ) : Prop :=
  ∃ added, s.settlements = added ++ past ∧ ∃ x ∈ added, x.Failed

theorem FailedSince.mono (h : FailedSince past s) (hs : s.settlements <:+ s'.settlements) :
    FailedSince past s' := by
  obtain ⟨added, ha, x, hx, hf⟩ := h
  obtain ⟨more, hm⟩ := hs
  refine ⟨more ++ added, ?_, x, List.mem_append_right _ hx, hf⟩
  rw [← hm, ha, List.append_assoc]

def Calm (past : List Settlement) (s : Service σ) : Prop :=
  past <:+ s.settlements ∧ (¬ s.Starved ∨ FailedSince past s)

def Due (past : List Settlement) (s : Service σ) : Prop :=
  past <:+ s.settlements ∧
    (s.waiting = [] ∨ s.pool.config.maxActive.toNat ≤ s.pool.active.length + 1 ∨
      FailedSince past s)

theorem not_starved_of_waiting (h : s.waiting = []) : ¬ s.Starved := fun hs => hs.1 h

theorem not_starved_of_full (h : s.pool.config.maxActive.toNat ≤ s.pool.active.length) :
    ¬ s.Starved := fun hs => absurd hs.2 (Nat.not_lt.mpr h)

theorem full_of_not_starved (h : ¬ s.Starved) (hw : s.waiting ≠ []) :
    s.pool.config.maxActive.toNat ≤ s.pool.active.length :=
  Nat.le_of_not_lt fun hl => h ⟨hw, hl⟩

theorem calm_start (h : ¬ s.Starved) : Calm s.settlements s := ⟨List.suffix_rfl, Or.inl h⟩

theorem Calm.due (h : Calm past s) : Due past s := by
  obtain ⟨hp, h | h⟩ := h
  · by_cases hw : s.waiting = []
    · exact ⟨hp, Or.inl hw⟩
    · exact ⟨hp, Or.inr (Or.inl (Nat.le_succ_of_le (full_of_not_starved h hw)))⟩
  · exact ⟨hp, Or.inr (Or.inr h)⟩

variable [Driver σ]

theorem calm_pursue (r : Request) (h : Due past s) : Calm past (s.pursue r) := by
  have hend := Pool.seek_ends s.now r s.pool
  have hset := Pool.settlements_seek s.now r s.pool
  have hm := settlements_moves (pursue_moves s r)
  obtain ⟨hp, h⟩ := h
  constructor
  · exact hp.trans hm
  · unfold pursue at hm ⊢
    cases hseek : s.pool.seek s.now r with
    | mk outcome q =>
      rw [hseek] at hend hset hm
      cases outcome with
      | granted lent =>
        obtain ⟨hc, hf⟩ := Pool.fill_le_of_granted hseek
        rcases h with h | h | h
        · exact Or.inl (not_starved_of_waiting h)
        · refine Or.inl (not_starved_of_full ?_)
          show q.config.maxActive.toNat ≤ q.active.length
          rw [hc]
          exact Nat.le_trans (Nat.le_min.mpr ⟨h, Nat.le_refl _⟩) hf
        · exact Or.inr (h.mono hm)
      | failed error =>
        obtain ⟨added, ha⟩ := hp
        refine Or.inr ⟨⟨r.caller, s.now, .error error⟩ :: added, ?_, _, List.mem_cons_self, error,
          rfl, hend.2⟩
        rw [settlements_settle, List.cons_append, ha, settlements_books, settlements_books]
        exact congrArg _ hset
      | saturated r' =>
        obtain ⟨-, ⟨-, hr⟩, -, -⟩ := hend
        obtain ⟨ha, hc⟩ := limits_block r' { s with pool := q }
        refine Or.inl (not_starved_of_full ?_)
        rw [ha, hc]
        exact Pool.full_of_not_hasRoom q hr

theorem calm_relay (past : List Settlement) :
    Relay (σ := σ) (Calm past) (Due past) where
  due _ := Calm.due
  alone _ hw h := ⟨h.1, Or.inl (not_starved_of_waiting hw)⟩
  pursue _ r := calm_pursue r
  pass _ _ h := h
  frame s s' _ ha hc hs hw h := by
    constructor
    · exact h.1.trans hs
    · rw [ha, hc]
      exact h.2.imp hw (Or.imp_right fun hf => hf.mono hs)

/-- The operation makes room and wakes nobody: it gives all connections up, or it returns a lease
whose connection is of no further use or has no place in the idle set. -/
def FreesQuietly (op : Op σ) (s : Service σ) : Prop :=
  match op with
  | .reset => s.isLive = true
  | .reconfigure update => s.isLive = true ∧ (update s.pool.config).validate = .ok ()
  | .release i | .call i .close => ∃ handle, s.handles[i]? = some handle ∧
      handle.released = false ∧ handle.entry ∈ s.pool.active ∧
        (s.pool.status handle.entry.id = .invalidated ∨ ¬ s.pool.keeps handle.entry)
  | _ => False

theorem due_of_takeBack (i : Nat) (handle : Handle) (h : ¬ s.Starved) :
    Due s.settlements (s.takeBack i handle) := by
  obtain ⟨hc, ha⟩ := Pool.takeBack_frame s.now handle.entry s.pool
  constructor
  · rw [settlements_books, settlements_books]
    exact Pool.settlements_takeBack s.now handle.entry s.pool ▸ List.suffix_rfl
  by_cases hw : s.waiting = []
  · exact Or.inl hw
  · have hf := full_of_not_starved h hw
    have hl : s.pool.active.length ≤
        (s.pool.active.eraseP fun a => a.id == handle.entry.id).length + 1 := by
      rw [List.length_eraseP]
      split <;> omega
    refine Or.inr (Or.inl ?_)
    rw [takeBack, hc, ha]
    exact Nat.le_trans hf hl

theorem active_takeBack (l : HasLedger none s) (handle : Handle) (hm : handle ∈ s.handles)
    (hx : handle.entry ∉ s.pool.active) :
    (s.pool.takeBack s.now handle.entry).1 = false ∧
      (s.pool.takeBack s.now handle.entry).2.active = s.pool.active := by
  have hv : s.pool.status handle.entry.id ≠ .valid := fun hv => hx (l.running handle hm hv)
  constructor
  · exact (Pool.takeBack_retired s.now handle.entry s.pool hv).1
  · rw [(Pool.takeBack_frame s.now handle.entry s.pool).2]
    exact List.eraseP_of_forall_not fun a ha hi =>
      hx (l.mem_active_of_id ha hm (by simpa using hi))

theorem calm_release (i : Nat) (l : HasLedger none s) (h : ¬ s.Starved) :
    FreesQuietly (.release i) s ∨ Calm s.settlements (s.release i) := by
  rcases release_cases s i with hs | ⟨handle, hh, hr, hs⟩
  · rw [hs]
    exact Or.inr (calm_start h)
  · have hd := due_of_takeBack i handle h
    rw [hs]
    by_cases hx : handle.entry ∈ s.pool.active
    · by_cases hv : s.pool.status handle.entry.id = .valid ∧ s.pool.keeps handle.entry
      · rw [if_pos (Pool.takeBack_kept s.now handle.entry s.pool hv.1 hv.2).1]
        exact Or.inr ((calm_relay s.settlements).wakeFirst _ hd)
      · refine Or.inl ⟨handle, hh, hr, hx, ?_⟩
        cases hst : s.pool.status handle.entry.id with
        | valid => exact Or.inr fun hk => hv ⟨hst, hk⟩
        | superseded => exact absurd hst (l.lent _ hx)
        | invalidated => exact Or.inl rfl
    · obtain ⟨hb, ha⟩ := active_takeBack l handle (List.mem_of_getElem? hh) hx
      have hc := (Pool.takeBack_frame s.now handle.entry s.pool).1
      rw [if_neg (by rw [hb]; decide)]
      refine Or.inr ⟨hd.1, Or.inl fun hs => h ⟨hs.1, ?_⟩⟩
      have hl := hs.2
      rw [takeBack, hc, ha] at hl
      exact hl

theorem calm_forward (i : Nat) (c : Call) (h : ¬ s.Starved) :
    Calm s.settlements (s.forward i c).2 := by
  obtain ⟨hw, -, ha, hc⟩ := forward_frame s i c
  refine ⟨(settlements_forward s i c).symm ▸ List.suffix_rfl, Or.inl ?_⟩
  unfold Starved
  rw [hw, ha, hc]
  exact h

theorem calm_step (op : Op σ) (l : HasLedger none s) (h : ¬ s.Starved) :
    FreesQuietly op s ∨ Calm s.settlements (step op s) := by
  have hs := calm_start h
  cases op with
  | acquire form =>
    simp only [step]
    split
    · exact Or.inr (calm_pursue _ hs.due)
    · exact Or.inr hs
  | call i c =>
    cases c with
    | close => exact calm_release i l h
    | isClosed | autoCommit | setAutoCommit enabled | commit | rollback | execute sql =>
      exact Or.inr (calm_forward i _ h)
  | release i => exact calm_release i l h
  | advance span => exact Or.inr ((calm_relay s.settlements).elapse _ s hs)
  | issueToken =>
    simp only [step]
    split <;> exact Or.inr hs
  | cancel token =>
    have hn : Calm s.settlements { s with tokens := s.tokens.set token true, waiting := [] } :=
      ⟨List.suffix_rfl, Or.inl (not_starved_of_waiting rfl)⟩
    exact Or.inr ((calm_relay s.settlements).rouse _ _ (Or.inl hn))
  | reset =>
    simp only [step]
    split
    · exact Or.inl (by assumption)
    · exact Or.inr hs
  | reconfigure update =>
    simp only [step]
    split
    · rename_i hl
      cases hv : (update s.pool.config).validate with
      | error e =>
        simp only [reconfigure, Pool.reconfigure, hv]
        exact Or.inr hs
      | ok u => exact Or.inl ⟨hl, hv⟩
    · exact Or.inr hs
  | shutDown =>
    simp only [step]
    split
    · rename_i h
      obtain ⟨hl, hw⟩ := Bool.and_eq_true_iff.mp h
      have hw := List.isEmpty_iff.mp hw
      have hm := settlements_command .shutDown s _ (.shutDown s hl hw)
      exact Or.inr ⟨hm ▸ List.suffix_rfl, Or.inl (not_starved_of_waiting hw)⟩
    · exact Or.inr hs
  | meddle f => exact Or.inr hs

/-- Callers have starved since some operation: it made room quietly, or an acquisition failed. -/
theorem starved_since (ops : List (Op σ)) (l : HasLedger none s) (h : ¬ s.Starved)
    (hs : (run ops s).Starved) :
    ∃ before op after, ops = before ++ op :: after ∧ ¬ (run before s).Starved ∧
      (FreesQuietly op (run before s) ∨
        FailedSince (run before s).settlements (step op (run before s))) ∧
      ∀ rest, rest <+: after → (run (before ++ op :: rest) s).Starved := by
  induction ops using List.reverseRecOn with
  | nil => exact absurd hs h
  | append_singleton ops op ih =>
    by_cases hb : (run ops s).Starved
    · obtain ⟨before, op', after, rfl, hn, hf, hr⟩ := ih hb
      refine ⟨before, op', after ++ [op], by simp, hn, hf, ?_⟩
      intro rest hp
      rcases List.prefix_concat_iff.mp hp with rfl | hp
      · simpa using hs
      · exact hr rest hp
    · refine ⟨ops, op, [], rfl, hb, ?_, ?_⟩
      · rw [run_append] at hs
        exact (calm_step op (ledger_run ops s l) hb).imp_right fun hc => hc.2.resolve_left (· hs)
      · intro rest hp
        rw [List.prefix_nil.mp hp]
        exact hs

def resetWithSleeper : List (Op Scripted) := [.acquire .plain, .acquire .plain, .reset]

/-- Not every event that makes room wakes a caller. -/
theorem starved_by_reset :
    let s := run resetWithSleeper (start (Pool.unused {} Config.single))
    Pool.create ({} : Scripted) Config.single = .ok (Pool.unused {} Config.single) ∧
      0 < Config.single.timeToWait ∧ s.waiting ≠ [] ∧
      s.pool.active.length ≠ s.pool.config.maxActive.toNat := by
  refine ⟨rfl, ?_, ?_, ?_⟩ <;> decide +kernel

/-- While a caller sleeps the pool is full, unless room was made quietly or by a failure and has
been there ever since; and no caller sleeps past its deadline. -/
theorem starvation_run (driver : σ) (config : Config) (pool : Pool σ)
    (h : Pool.create driver config = .ok pool) (ops : List (Op σ)) :
    (∀ x ∈ (run ops (start pool)).waiting, (run ops (start pool)).now < x.deadline) ∧
      ((run ops (start pool)).waiting ≠ [] →
        (run ops (start pool)).pool.active.length =
            (run ops (start pool)).pool.config.maxActive.toNat ∨
          ∃ before op after, ops = before ++ op :: after ∧ ¬ (run before (start pool)).Starved ∧
            (FreesQuietly op (run before (start pool)) ∨
              FailedSince (run before (start pool)).settlements
                (step op (run before (start pool)))) ∧
            ∀ rest, rest <+: after → (run (before ++ op :: rest) (start pool)).Starved) := by
  have hw : (start pool).waiting = [] := rfl
  have hn : ¬ (start pool).Starved := fun hs => hs.1 hw
  obtain ⟨l, f⟩ := fit_run driver config pool h ops
  refine ⟨onTime_run ops (fun x hx => absurd hx List.not_mem_nil), fun hs => ?_⟩
  have hle := (Pool.withinLimits_of_fit _ f).active_le
  rcases Nat.lt_or_eq_of_le hle with hlt | heq
  · exact Or.inr (starved_since ops (ledger_start driver config pool h) hn ⟨hs, hlt⟩)
  · exact Or.inl heq

theorem starvation_resetWithSleeper :
    Pool.create ({} : Scripted) Config.single = .ok (Pool.unused {} Config.single) ∧
      ∃ before op after, resetWithSleeper = before ++ op :: after ∧
        (FreesQuietly op (run before (start (Pool.unused {} Config.single))) ∨
          FailedSince (run before (start (Pool.unused {} Config.single))).settlements
            (step op (run before (start (Pool.unused {} Config.single))))) := by
  obtain ⟨-, hs⟩ :=
    starvation_run ({} : Scripted) Config.single (Pool.unused {} Config.single) rfl resetWithSleeper
  constructor
  · rfl
  · rcases hs (by decide +kernel) with hf | ⟨before, op, after, ho, -, hq, -⟩
    · exact absurd hf (by decide +kernel)
    · exact ⟨before, op, after, ho, hq⟩

end Service

end ConnectionPool
