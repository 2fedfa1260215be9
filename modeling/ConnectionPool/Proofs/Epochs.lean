import ConnectionPool.Proofs.Arrivals
import ConnectionPool.Proofs.Finality
import ConnectionPool.Proofs.Leases
import ConnectionPool.Proofs.Openings
import ConnectionPool.Proofs.Resets

/-!
# Epochs

A reset begins a new epoch. Since it leaves no connection, and since a pool comes to hold only what
it opens from then on, no connection of an earlier epoch is lent or put into the idle set again,
whoever returns an old handle or was waiting when the reset came. Connections are numbered in the
order in which they were opened, so those of the new epoch have the greater numbers.
-/

set_option autoImplicit false

namespace ConnectionPool

theorem eachArrival_of_suffix (P : Nat → Prop) (base : List Event) {journal : List Event}
    (h : journal <:+ base) :
    EachArrival (fun channel older => base <:+ older → P channel) journal := by
  induction journal with
  | nil => trivial
  | cons event older ih =>
    refine ⟨fun channel _ hb => ?_, ih ((List.suffix_cons event older).trans h)⟩
    have hl := Nat.le_trans h.length_le hb.length_le
    exact absurd hl (Nat.not_succ_le_self older.length)

namespace Service

variable {σ : Type} {s u : Service σ}

structure Epoch (s : Service σ) (hand : Option Entry) (u : Service σ) : Prop where
  provenance : u.HasProvenance hand
  opened_le : s.pool.backend.opened ≤ u.pool.backend.opened
  held : ∀ e ∈ u.pool.books.held hand, s.pool.backend.opened ≤ e.channel
  arrivals : EachArrival
    (fun channel older => s.pool.backend.journal <:+ older → s.pool.backend.opened ≤ channel)
    u.pool.backend.journal

/-- What was opened before the moment `s` is not lent or put into the idle set from then on until
the moment `u`. -/
structure Isolated (s u : Service σ) : Prop where
  numbered : ∀ e ∈ s.entries ++ u.entries, e.link.number = e.channel + 1
  opened : ∀ channel, channel ∈ openings s.pool.backend.journal ↔ channel + 1 < s.pool.nextLink
  arrived : ∃ newer, u.pool.backend.journal = newer ++ s.pool.backend.journal ∧
    ∀ event ∈ newer, ∀ channel, event.arrival? = some channel →
      channel ∉ openings s.pool.backend.journal
  held : ∀ e ∈ u.pool.idle ++ u.pool.active, s.pool.nextLink ≤ e.link.number
  lent : ∀ (i : Nat) (handle : Handle), s.handles.length ≤ i → u.handles[i]? = some handle →
    s.pool.nextLink ≤ handle.entry.link.number

theorem isolated_of_epoch (v : s.HasProvenance none) (hq : s.pool.backend.InSequence)
    (his : s.Issued) (hiu : u.Issued) (hj : s.pool.backend.journal <:+ u.pool.backend.journal)
    (he : Epoch s none u) : Isolated s u := by
  have hnext : s.pool.nextLink = s.pool.backend.opened + 1 := v.next_link
  obtain ⟨newer, hnewer⟩ := hj
  have harrived : ∀ event ∈ newer, ∀ channel, event.arrival? = some channel →
      s.pool.backend.opened ≤ channel := by
    intro event hm channel hc
    obtain ⟨later, earlier, rfl⟩ := List.append_of_mem hm
    have ha := he.arrivals
    rw [← hnewer, List.append_assoc, List.cons_append] at ha
    exact ha.split hc (List.suffix_append earlier _)
  refine ⟨?_, ?_, ⟨newer, hnewer.symm, ?_⟩, ?_, ?_⟩
  · intro e hm
    rcases List.mem_append.mp hm with hm | hm
    · exact number_of_entry v e hm
    · exact number_of_entry he.provenance e hm
  · intro channel
    rw [hq.mem_iff, hnext, Nat.add_lt_add_iff_right]
  · intro event hm channel hc ho
    rw [hq.mem_iff] at ho
    exact absurd (harrived event hm channel hc) (Nat.not_le.mpr ho)
  · intro e hm
    rw [hnext, he.provenance.held_number e hm]
    exact Nat.succ_le_succ (he.held e hm)
  · intro i handle hl hh
    have hg : (grants s.pool.backend.journal).length ≤ i := by
      have hlen := congrArg List.length his
      rw [List.length_map, List.length_reverse] at hlen
      exact hlen ▸ hl
    obtain ⟨event, hm, hgrant⟩ := hiu.later hnewer.symm hg hh
    rw [hnext, he.provenance.handle_number handle (List.mem_of_getElem? hh)]
    exact Nat.succ_le_succ (harrived event hm _ (Event.arrival_of_grant event _ hgrant))

variable [Driver σ]

theorem epoch_move (m m' : Option Entry × Service σ) (h : Move m m') (he : Epoch s m.1 m.2) :
    Epoch s m'.1 m'.2 where
  provenance := provenance_move m m' h he.provenance
  opened_le := backend_move _ (Backend.opened_grows s.pool.backend.opened) m m' h he.provenance
    he.opened_le
  held e hm := by
    rcases origin_move m m' h he.provenance.ledger e hm with hc | ⟨hc, -⟩
    · obtain ⟨a, ha, hac⟩ := List.mem_map.mp hc
      exact hac ▸ he.held a ha
    · exact hc ▸ he.opened_le
  arrivals := eachArrival_move m m' h he.provenance (fun e hm _ _ => he.held e hm) he.arrivals

theorem epoch_forward (i : Nat) (c : Call) (hc : c ≠ .close) (he : Epoch s none u) :
    Epoch s none (u.forward i c).2 where
  provenance := provenance_forward u i c he.provenance
  opened_le := backend_forwarded _ (Backend.opened_grows s.pool.backend.opened) u i c hc
    he.provenance he.opened_le
  held e hm := by
    obtain ⟨-, hi, ha, -⟩ := forward_frame u i c
    change e ∈ (u.forward i c).2.pool.idle ++ (u.forward i c).2.pool.active at hm
    rw [hi, ha] at hm
    exact he.held e hm
  arrivals := eachArrival_forward u i c hc he.provenance he.arrivals

theorem held_command (op : Op σ) (u u' : Service σ) (h : Command op u u') :
    ∀ e ∈ u'.pool.idle ++ u'.pool.active, e ∈ u.pool.idle ++ u.pool.active := by
  intro e hm
  obtain ⟨-, -, hb | ⟨config, -, hp⟩⟩ := command_cases op u u' h
  · have hi : u'.pool.idle = u.pool.idle := congrArg Books.idle hb
    have ha : u'.pool.active = u.pool.active := congrArg Books.active hb
    rwa [hi, ha] at hm
  · obtain ⟨-, hi, ha, -, -⟩ := Pool.reset_frame { u.pool with config }
    rw [hp, hi, ha] at hm
    exact absurd hm List.not_mem_nil

theorem epoch_command (op : Op σ) (u u' : Service σ) (h : Command op u u')
    (he : Epoch s none u) : Epoch s none u' where
  provenance := provenance_command op u u' h he.provenance
  opened_le := backend_command _ (Backend.opened_grows s.pool.backend.opened) op
    (fun _ _ _ hb => hb) u u' h he.provenance he.opened_le
  held e hm := he.held e (held_command op u u' h e hm)
  arrivals := eachArrival_command op u u' h he.provenance he.arrivals

theorem epoch_run (ops : List (Op σ)) (he : Epoch s none u) : Epoch s none (run ops u) :=
  run_keeps (Epoch s) epoch_move (fun _ i c hc he => epoch_forward i c hc he) ops
    (fun op _ u u' h he => epoch_command op u u' h he) u he

theorem cleared_of_resets (op : Op σ) (l : s.HasLedger none) (hr : Resets op s) :
    Command op s (step op s) ∧ Cleared s (step op s) := by
  cases op with
  | reset =>
    simp only [step, if_pos (show s.isLive = true from hr)]
    exact ⟨.reset s hr, cleared_of_reset s.pool.config l rfl rfl rfl⟩
  | reconfigure update =>
    obtain ⟨hl, hv⟩ := hr
    simp only [step, if_pos hl]
    exact ⟨.reconfigure s update hl, (decided_of_ledger update l).cleared hv⟩
  | shutDown =>
    obtain ⟨hl, hw⟩ := hr
    simp only [step, hl, hw, List.isEmpty_nil, Bool.and_self, if_true]
    exact ⟨.shutDown s hl hw, cleared_of_reset s.pool.config l rfl rfl rfl⟩
  | _ => exact hr.elim

theorem epoch_of_resets (op : Op σ) (v : s.HasProvenance none) (hr : Resets op s) :
    Epoch s none (step op s) := by
  obtain ⟨hc, hs⟩ := cleared_of_resets op v.ledger hr
  refine ⟨provenance_command op s _ hc v, ?_, ?_, ?_⟩
  · exact backend_command _ (Backend.opened_grows s.pool.backend.opened) op (fun _ _ _ hb => hb)
      s _ hc v (Nat.le_refl _)
  · intro e hm
    change e ∈ (step op s).pool.idle ++ (step op s).pool.active at hm
    rw [hs.idle, hs.active] at hm
    exact absurd hm List.not_mem_nil
  · exact eachArrival_command op s _ hc v (eachArrival_of_suffix _ _ List.suffix_rfl)

/-- A reset at any time clears the pool, and in every continuation keeps all that was opened before
it from being lent or put into the idle set again. -/
theorem isolation_run (driver : σ) (config : Config) (pool : Pool σ)
    (h : Pool.create driver config = .ok pool) (before : List (Op σ)) (op : Op σ)
    (hr : Resets op (run before (start pool))) (after : List (Op σ)) :
    Cleared (run before (start pool)) (run (before ++ [op]) (start pool)) ∧
      Isolated (run before (start pool)) (run (before ++ op :: after) (start pool)) := by
  have vs := provenance_start driver config pool h
  have hstart : (start pool).Issued := by
    rw [Pool.of_create driver config pool h]
    rfl
  have v := provenance_run before _ vs
  have hq := inSequence_run before _ vs (inSequence_start driver config pool h)
  have hj := journal_run (op :: after) _ v
  have he := epoch_run after (epoch_of_resets op v hr)
  constructor
  · rw [run_append]
    exact (cleared_of_resets op v.ledger hr).2
  · have hu := issued_run (before ++ op :: after) _ hstart
    rw [run_append] at hu ⊢
    exact isolated_of_epoch v hq (issued_run before _ hstart) hu hj he

def holderAndSleeper : List (Op Scripted) := [.acquire .plain, .acquire .plain, .issueToken]

/-- The caller goes on after the reset, and is lent another connection than the holder returns. -/
theorem isolation_holderAndSleeper :
    (run holderAndSleeper (start (Pool.unused ({} : Scripted) Config.single))).waiting.length = 1 ∧
      Cleared (run holderAndSleeper (start (Pool.unused ({} : Scripted) Config.single)))
        (run (holderAndSleeper ++ [.reset]) (start (Pool.unused ({} : Scripted) Config.single))) ∧
      Isolated (run holderAndSleeper (start (Pool.unused ({} : Scripted) Config.single)))
        (run (holderAndSleeper ++ .reset :: [.cancel 0, .release 0, .release 1])
          (start (Pool.unused ({} : Scripted) Config.single))) ∧
      (run (holderAndSleeper ++ .reset :: [.cancel 0, .release 0, .release 1])
        (start (Pool.unused ({} : Scripted) Config.single))).handles.map
          (fun h => h.entry.link.number) = [1, 2] ∧
      (run (holderAndSleeper ++ .reset :: [.cancel 0, .release 0, .release 1])
        (start (Pool.unused ({} : Scripted) Config.single))).pool.idle.map
          (fun e => e.link.number) = [2] := by
  have hlive : (run holderAndSleeper
      (start (Pool.unused ({} : Scripted) Config.single))).isLive = true := by decide +kernel
  obtain ⟨hc, hi⟩ := isolation_run ({} : Scripted) Config.single (Pool.unused {} Config.single) rfl
    holderAndSleeper .reset hlive [.cancel 0, .release 0, .release 1]
  exact ⟨by decide +kernel, hc, hi, by decide +kernel, by decide +kernel⟩

end Service

end ConnectionPool
