import ConnectionPool.Driver.Scripted
import ConnectionPool.Proofs.Upkeep

/-!
# Ownership

A physical connection is known by its channel. After every run, at most one valid entry wraps it,
whether that entry is idle, lent, or merely behind a handle given out long ago, and every valid
entry has exactly one place in the pool. A lease that is active though no longer valid was spoiled
by a fatal error that its own handle met.
-/

set_option autoImplicit false

namespace ConnectionPool

def Books.SpoiledIn (known : Entry → Prop) (b : Books) : Prop :=
  ∀ e ∈ b.active, b.status e.id = .invalidated → known e

namespace Books.SpoiledIn

variable {known : Entry → Prop} {b : Books}

theorem congr {b' : Books} (h : b.SpoiledIn known) (ha : b'.active.Sublist b.active)
    (hr : b'.retired = b.retired) : b'.SpoiledIn known := by
  intro e he hs
  apply h e (ha.subset he)
  rw [← hs]
  simp [Books.status, hr]

theorem retire {id : Nat} {how : Status} (h : b.SpoiledIn known)
    (hn : how = .invalidated → ∀ a ∈ b.active, a.id ≠ id) : (b.retire id how).SpoiledIn known := by
  intro e he hs
  rw [Books.status_retire] at hs
  split at hs
  · rename_i hc
    exact absurd hc.1 (hn hs e he)
  · exact h e he hs

theorem takeOut (e : Entry) (h : b.SpoiledIn known) : (b.takeOut e).SpoiledIn known :=
  h.congr List.eraseP_sublist rfl

end Books.SpoiledIn

theorem Books.Turn.spoiled {known : Entry → Prop} {now caller : Nat}
    {m m' : Option Entry × Books} {handles : List Handle} (h : Turn now caller m m')
    (l : Ledger m.1 m.2 handles) (hk : m.2.SpoiledIn known) : m'.2.SpoiledIn known := by
  cases h with
  | pick b e rest hi | connect b hi hr | refuse b => exact hk
  | claim b oldest rest hi hf ha hv =>
    have hr : (b.retire oldest.id .superseded).SpoiledIn known := hk.retire (by simp)
    have hs : rest.Sublist b.active := by
      rw [ha]
      exact List.sublist_cons_self _ _
    exact hr.congr hs rfl
  | drop b oldest rest hi hf ha hv =>
    have hs : rest.Sublist b.active := by
      rw [ha]
      exact List.sublist_cons_self _ _
    exact hk.congr hs rfl
  | reject b e =>
    have hr : (b.retire e.id .invalidated).SpoiledIn known :=
      hk.retire (fun _ a ha => l.hand_id_ne (List.mem_append_right _ ha))
    exact hr

namespace Pool

variable {σ : Type} [Driver σ] {known : Entry → Prop} {p : Pool σ} {handles : List Handle}

theorem spoiled_grant {now : Nat} {r : Request} {e : Entry} {sound : Bool} {q : Pool σ}
    (h : p.examine now r.caller e = (sound, q)) (l : Ledger (some e) p.books handles)
    (hk : p.books.SpoiledIn known) : (q.grant now r e).2.books.SpoiledIn known := by
  have hb := examine_books now r.caller e sound p q h
  have ha : q.active = p.active := congrArg Books.active hb
  have hs (id : Nat) : q.books.status id = p.books.status id := by
    rw [hb]
    rfl
  rw [books_grant]
  intro a hm hi
  change q.books.status a.id = .invalidated at hi
  rw [hs] at hi
  rcases List.mem_append.mp hm with hm | hm
  · rw [ha] at hm
    exact hk a hm hi
  · rw [List.mem_singleton.mp hm] at hi
    have hv := l.ready e List.mem_cons_self
    exact absurd (hv.symm.trans hi) (by decide)

theorem spoiled_takeBack {now : Nat} {e : Entry} (hn : (p.active.map Entry.id).Nodup)
    (hk : p.books.SpoiledIn known) : (p.takeBack now e).2.books.SpoiledIn known := by
  have ht := hk.takeOut e
  refine p.takeBack_cases now e (motive := fun _ b => b.SpoiledIn known) ?retired ?kept ?closed
  case retired => exact fun _ => ht
  case kept =>
    intro hv hp
    have hr : ((p.books.takeOut e).retire e.id .superseded).SpoiledIn known :=
      ht.retire (by simp)
    exact hr
  case closed =>
    intro hv hp
    have hr : ((p.books.takeOut e).retire e.id .invalidated).SpoiledIn known :=
      ht.retire (fun _ => id_ne_of_mem_erase p.active hn e.id)
    exact hr

theorem spoiled_reset (p : Pool σ) : p.reset.books.SpoiledIn known := by
  intro e he
  change e ∈ p.reset.active at he
  rw [(reset_frame p).2.2.1] at he
  exact absurd he List.not_mem_nil

end Pool

namespace Service

variable {σ : Type}

/-- Every entry that the pool holds or that stands behind a handle, stale or not. -/
def entries (s : Service σ) : List Entry :=
  s.pool.idle ++ s.pool.active ++ s.handles.map Handle.entry

structure Exclusive (s : Service σ) : Prop where
  one_valid : ∀ a ∈ s.entries, ∀ b ∈ s.entries, s.pool.status a.id = .valid →
    s.pool.status b.id = .valid → a.channel = b.channel → a = b
  one_place : ∀ e ∈ s.entries, s.pool.status e.id = .valid →
    s.pool.idle.count e + s.pool.active.count e = 1
  idle_valid : ∀ e ∈ s.pool.idle, s.pool.status e.id = .valid
  active_not_superseded : ∀ e ∈ s.pool.active, s.pool.status e.id ≠ .superseded

theorem held_of_valid (s : Service σ) (l : HasLedger none s) (e : Entry) (he : e ∈ s.entries)
    (hv : s.pool.status e.id = .valid) : e ∈ s.pool.books.held none := by
  rcases List.mem_append.mp he with he | he
  · exact he
  · obtain ⟨h, hm, rfl⟩ := List.mem_map.mp he
    exact List.mem_append_right s.pool.idle (l.running h hm hv)

theorem exclusive_of_ledger (s : Service σ) (l : HasLedger none s) : s.Exclusive where
  one_valid a ha b hb hva hvb hc :=
    l.distinct.channel_inj (held_of_valid s l a ha hva) (held_of_valid s l b hb hvb) hc
  one_place e he hv := by
    have hn : (s.pool.idle ++ s.pool.active).Nodup := l.distinct.ids_nodup.of_map
    rw [← List.count_append]
    exact List.count_eq_one_of_mem hn (held_of_valid s l e he hv)
  idle_valid e he := l.ready e he
  active_not_superseded := l.lent

variable [Driver σ]

/-- The operation is a call on the handle of this entry, and the call meets a fatal error. -/
def Spoils (op : Op σ) (e : Entry) (s : Service σ) : Prop :=
  ∃ i c handle error, op = .call i c ∧ s.handles[i]? = some handle ∧ handle.entry = e ∧
    s.isValid handle = true ∧ (s.call i c).1 = .error error ∧ error.isFatal = true

theorem spoiled_move (known : Entry → Prop) (m m' : Option Entry × Service σ) (h : Move m m')
    (hi : HasLedger m.1 m.2 ∧ m.2.pool.books.SpoiledIn known) :
    HasLedger m'.1 m'.2 ∧ m'.2.pool.books.SpoiledIn known := by
  obtain ⟨l, hk⟩ := hi
  constructor
  · exact ledger_move m m' h l
  · cases h with
    | mark s | come s | pass s | leave s => exact hk
    | awake s x | sleep s r hs hc | fail s r error => exact hk
    | countWait s r =>
      unfold countWait
      split <;> exact hk
    | turn s caller hand hand' q h => exact (Pool.turn_books h).spoiled l hk
    | grant s r e q h => exact Pool.spoiled_grant h l hk
    | takeBack s i handle hh hr => exact Pool.spoiled_takeBack l.active_ids_nodup hk

theorem spoiled_command (known : Entry → Prop) (op : Op σ) (s s' : Service σ)
    (h : Command op s s') (hk : s.pool.books.SpoiledIn known) :
    s'.pool.books.SpoiledIn known := by
  cases h with
  | meddle s f | issueToken s hl => exact hk
  | reset s hl | shutDown s hl hw => exact Pool.spoiled_reset s.pool
  | reconfigure s update hl =>
    exact s.pool.reconfigure_cases update (motive := fun q => q.books.SpoiledIn known) hk
      (Pool.spoiled_reset _)

theorem spoiled_step (s : Service σ) (op : Op σ) (l : HasLedger none s) (e : Entry)
    (he : e ∈ (step op s).pool.active) (hi : (step op s).pool.status e.id = .invalidated) :
    (e ∈ s.pool.active ∧ s.pool.status e.id = .invalidated) ∨ Spoils op e s := by
  rcases step_moves s op with h | h | ⟨i, c, rfl, -, h⟩
  · left
    have hk := moves_keep (fun hand t => HasLedger hand t ∧ t.pool.books.SpoiledIn fun e =>
      e ∈ s.pool.active ∧ s.pool.status e.id = .invalidated) (spoiled_move _) _ _ h
      ⟨l, fun e he hi => ⟨he, hi⟩⟩
    exact hk.2 e he hi
  · left
    exact spoiled_command (fun e => e ∈ s.pool.active ∧ s.pool.status e.id = .invalidated) op s _ h
      (fun e he hi => ⟨he, hi⟩) e he hi
  · change e ∈ (s.call i c).2.pool.books.active at he
    change (s.call i c).2.pool.books.status e.id = .invalidated at hi
    rw [h] at he hi
    rcases (forward_cases s i c).2 with hb | ⟨handle, error, hh, hv, hr, hf, hb⟩
    · rw [hb] at he hi
      exact Or.inl ⟨he, hi⟩
    · rw [hb] at he hi
      rw [Books.status_retire] at hi
      split at hi
      · rename_i hc
        right
        have ha := l.running handle (List.mem_of_getElem? hh) (hc.1 ▸ hc.2)
        have hx : handle.entry = e := l.distinct.id_inj (List.mem_append_right s.pool.idle ha)
          (List.mem_append_right s.pool.idle he) hc.1.symm
        exact ⟨i, c, handle, error, rfl, hh, hx, hv, h ▸ hr, hf⟩
      · exact Or.inl ⟨he, hi⟩

/-- A spoiled lease was spoiled before the run or at some operation of it. -/
theorem spoiled_run (ops : List (Op σ)) (s : Service σ) (l : HasLedger none s) (e : Entry)
    (he : e ∈ (run ops s).pool.active) (hi : (run ops s).pool.status e.id = .invalidated) :
    (e ∈ s.pool.active ∧ s.pool.status e.id = .invalidated) ∨
      ∃ before op after, ops = before ++ op :: after ∧ Spoils op e (run before s) := by
  induction ops generalizing s with
  | nil => exact Or.inl ⟨he, hi⟩
  | cons op rest ih =>
    have hl : HasLedger none (step op s) := ledger_run [op] s l
    rcases ih (step op s) hl he hi with ⟨ha, hs⟩ | ⟨before, op', after, rfl, h⟩
    · rcases spoiled_step s op l e ha hs with h | h
      · exact Or.inl h
      · exact Or.inr ⟨[], op, rest, rfl, h⟩
    · exact Or.inr ⟨op :: before, op', after, rfl, h⟩

/-- Exclusive ownership, after every run of every pool under every driver. -/
theorem ownership_run (driver : σ) (config : Config) (pool : Pool σ)
    (h : Pool.create driver config = .ok pool) (ops : List (Op σ)) :
    (run ops (start pool)).Exclusive ∧
      ∀ e ∈ (run ops (start pool)).pool.active,
        (run ops (start pool)).pool.status e.id = .invalidated →
          ∃ before op after, ops = before ++ op :: after ∧
            Spoils op e (run before (start pool)) := by
  have l := ledger_start driver config pool h
  constructor
  · exact exclusive_of_ledger _ (ledger_run ops _ l)
  · intro e he hi
    rcases spoiled_run ops _ l e he hi with ⟨ha, -⟩ | hs
    · have hp : (start pool).pool.active = [] := by
        rw [Pool.of_create driver config pool h]
        rfl
      rw [hp] at ha
      exact absurd ha List.not_mem_nil
    · exact hs

def statementOnSevered : List (Op Scripted) :=
  [.acquire .plain, .meddle (Scripted.act (.sever 0)), .call 0 (.execute "SELECT 1")]

theorem ownership_statementOnSevered :
    let s := run statementOnSevered (start (Pool.unused {} Config.trial))
    Pool.create ({} : Scripted) Config.trial = .ok (Pool.unused {} Config.trial) ∧
      s.Exclusive ∧ ∃ e ∈ s.pool.active, ∃ before op after,
        statementOnSevered = before ++ op :: after ∧
          Spoils op e (run before (start (Pool.unused {} Config.trial))) := by
  intro s
  obtain ⟨hx, hs⟩ :=
    ownership_run {} Config.trial (Pool.unused {} Config.trial) rfl statementOnSevered
  refine ⟨rfl, hx, ?_⟩
  have ha : (s.pool.active.any fun e => s.pool.status e.id == .invalidated) = true := by
    decide +kernel
  obtain ⟨e, he, hi⟩ := List.any_eq_true.mp ha
  exact ⟨e, he, hs e he (by simpa using hi)⟩

end Service

end ConnectionPool
