import ConnectionPool.Proofs.Attribution
import ConnectionPool.Proofs.Capacity
import ConnectionPool.Proofs.Openings

/-!
# Conformity

What a pool holds conforms to the configuration in force. Every connection was opened under its
login, and every idle entry has its type code, because a configuration changes only in a reset. The
type code of a lease is made of the configured address and of the credentials that its acquisition
came with, whatever the configuration has become since.
-/

set_option autoImplicit false

namespace ConnectionPool

namespace Service

variable {σ : Type} {s s' : Service σ}

structure Current (hand : Option Entry) (s : Service σ) : Prop where
  expected : s.pool.expectedTypeCode = s.pool.config.expectedTypeCode
  opened : ∀ e ∈ s.pool.books.held hand,
    .connect s.pool.config.login (.ok e.channel) ∈ s.pool.backend.journal
  idle : ∀ e ∈ s.pool.idle, e.typeCode = s.pool.expectedTypeCode

theorem current_start (driver : σ) (config : Config) (pool : Pool σ)
    (h : Pool.create driver config = .ok pool) : Current none (start pool) := by
  rw [Pool.of_create driver config pool h]
  exact ⟨rfl, fun _ he => absurd he List.not_mem_nil, fun _ he => absurd he List.not_mem_nil⟩

theorem Current.congr {hand : Option Entry} (k : Current hand s)
    (hb : s'.pool.books.config = s.pool.books.config ∧
      s'.pool.books.expectedTypeCode = s.pool.books.expectedTypeCode)
    (hi : s'.pool.idle = s.pool.idle) (ha : s'.pool.active = s.pool.active)
    (hj : s.pool.backend.journal <:+ s'.pool.backend.journal) : Current hand s' := by
  obtain ⟨hc, hx⟩ := hb
  change s'.pool.config = s.pool.config at hc
  change s'.pool.expectedTypeCode = s.pool.expectedTypeCode at hx
  refine ⟨?_, fun e he => ?_, fun e he => ?_⟩
  · rw [hc, hx, k.expected]
  · have hh : s'.pool.books.held hand = s.pool.books.held hand := by
      show hand.toList ++ (s'.pool.idle ++ s'.pool.active) = _
      rw [hi, ha]
      rfl
    rw [hc]
    exact hj.subset (k.opened e (hh ▸ he))
  · rw [hx]
    exact k.idle e (hi ▸ he)

variable [Driver σ]

theorem current_move (m m' : Option Entry × Service σ) (h : Move m m')
    (v : HasProvenance m.1 m.2) (k : Current m.1 m.2) : Current m'.1 m'.2 := by
  obtain ⟨hc, hx⟩ := config_move m m' h
  have hj := journal_move m m' h v
  refine ⟨?_, fun e he => ?_, fun e he => ?_⟩
  · rw [hc, hx, k.expected]
  · rw [hc]
    rcases origin_move m m' h v.ledger e he with hold | ⟨-, hnew⟩
    · obtain ⟨a, ha, hac⟩ := List.mem_map.mp hold
      exact hj.subset (hac ▸ k.opened a ha)
    · exact hnew
  · rw [hx]
    exact (idle_move m m' h e he).elim (k.idle e) And.left

theorem current_forward (i : Nat) (c : Call) (hc : c ≠ .close) (v : s.HasProvenance none)
    (k : Current none s) : Current none (s.forward i c).2 := by
  obtain ⟨-, hi, ha, -⟩ := forward_frame s i c
  exact k.congr (config_forward s i c) hi ha (journal_forward s i c hc v)

theorem current_command (op : Op σ) (s s' : Service σ) (h : Command op s s')
    (v : s.HasProvenance none) (k : Current none s) : Current none s' := by
  obtain ⟨-, -, hb | ⟨config, -, hp⟩⟩ := command_cases op s s' h
  · exact k.congr ⟨congrArg Books.config hb, congrArg Books.expectedTypeCode hb⟩
      (congrArg Books.idle hb) (congrArg Books.active hb) (journal_command op s s' h v)
  · obtain ⟨hc, hi, ha, -, -⟩ := Pool.reset_frame { s.pool with config }
    have hx := (Pool.reset_rest { s.pool with config }).1
    rw [← hp] at hc hi ha hx
    refine ⟨?_, fun e he => ?_, fun e he => ?_⟩
    · rw [hc, hx]
    · change e ∈ s'.pool.idle ++ s'.pool.active at he
      rw [hi, ha] at he
      exact absurd he List.not_mem_nil
    · rw [hi] at he
      exact absurd he List.not_mem_nil

theorem current_run (ops : List (Op σ)) (s : Service σ) (v : s.HasProvenance none)
    (k : Current none s) : Current none (run ops s) := by
  refine (run_keeps (fun hand s => s.HasProvenance hand ∧ Current hand s) ?_ ?_ ops ?_ s
    ⟨v, k⟩).2
  · exact fun m m' h hi => ⟨provenance_move m m' h hi.1, current_move m m' h hi.1 hi.2⟩
  · exact fun s i c hc hi => ⟨provenance_forward s i c hi.1, current_forward i c hc hi.1 hi.2⟩
  · exact fun op _ s s' h hi =>
      ⟨provenance_command op s s' h hi.1, current_command op s s' h hi.1 hi.2⟩

end Service

end ConnectionPool
