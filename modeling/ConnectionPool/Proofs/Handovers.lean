import ConnectionPool.Proofs.Arrivals
import ConnectionPool.Proofs.Finality
import ConnectionPool.Proofs.Openings
import ConnectionPool.Proofs.Resets

/-!
# Transactions at a handover

Before a connection is lent or put into the idle set, the last thing that it is asked is whether it
commits by itself, and if it answers that it does not, it is rolled back. Nothing that an earlier
holder did, and no ping, comes in between, whatever the driver answers; an error on the way changes
nothing in what is asked. So where the two calls do not fail, nobody is lent the transaction of
somebody else.
-/

set_option autoImplicit false

namespace ConnectionPool

namespace Event

/-- The connection could not say whether it commits by itself, or could not roll back. -/
def balking? : Event → Option Nat
  | call channel .autoCommit (.error _) => some channel
  | call channel .rollback (.error _) => some channel
  | _ => none

def mode? (channel : Nat) : Event → Option Bool
  | call i .autoCommit (.ok mode) => if i = channel then some mode else none
  | _ => none

theorem mode_of_not_called (event : Event) (channel : Nat) (h : event.called? ≠ some channel) :
    event.mode? channel = none := by
  unfold mode?
  split
  · rename_i i mode
    exact if_neg fun hi => h (congrArg some hi)
  · rfl

end Event

def callsTo (channel : Nat) (journal : List Event) : List Event :=
  journal.filter fun event => event.called? == some channel

def modes (channel : Nat) (journal : List Event) : List Bool :=
  journal.filterMap (Event.mode? channel)

/-- The last calls are the question whether the connection commits by itself and, exactly if it
answered that it does not, a rollback. -/
inductive Attended (channel : Nat) : List Event → Prop
  | asked (reply : Reply .autoCommit) (earlier : List Event) (h : reply ≠ .ok false) :
      Attended channel (.call channel .autoCommit reply :: earlier)
  | undone (reply : Reply .rollback) (earlier : List Event) :
      Attended channel
        (.call channel .rollback reply :: .call channel .autoCommit (.ok false) :: earlier)

def RolledBack (channel : Nat) (journal : List Event) : Prop :=
  ∃ since before, journal = since ++ .call channel .rollback (.ok ()) :: before ∧
    ∀ event ∈ since, event.called? ≠ some channel

theorem callsTo_cons (channel : Nat) (c : Call) (reply : Reply c) (journal : List Event) :
    callsTo channel (.call channel c reply :: journal) =
      .call channel c reply :: callsTo channel journal := by
  simp [callsTo, Event.called?]

theorem split_of_callsTo {channel : Nat} {journal earlier : List Event} {event : Event}
    (h : callsTo channel journal = event :: earlier) :
    ∃ since before, journal = since ++ event :: before ∧
      (∀ x ∈ since, x.called? ≠ some channel) := by
  obtain ⟨since, before, hj, hn, -, -⟩ := List.filter_eq_cons_iff.mp h
  exact ⟨since, before, hj, fun x hx => by simpa using hn x hx⟩

theorem modes_append {channel : Nat} {since : List Event} (before : List Event)
    (hn : ∀ x ∈ since, x.called? ≠ some channel) :
    modes channel (since ++ before) = modes channel before := by
  have hs : since.filterMap (Event.mode? channel) = [] :=
    List.filterMap_eq_nil_iff.mpr fun x hx => x.mode_of_not_called channel (hn x hx)
  unfold modes
  rw [List.filterMap_append, hs, List.nil_append]

theorem rolledBack_of_attended {channel : Nat} {journal : List Event}
    (h : Attended channel (callsTo channel journal))
    (hb : ∀ event ∈ journal, event.balking? ≠ some channel)
    (hm : (modes channel journal).head? = some false) : RolledBack channel journal := by
  generalize hc : callsTo channel journal = calls at h
  cases h with
  | asked reply earlier hr =>
    obtain ⟨since, before, rfl, hn⟩ := split_of_callsTo hc
    cases reply with
    | error e => exact absurd rfl (hb _ (List.mem_append_right since List.mem_cons_self))
    | ok mode =>
      rw [modes_append _ hn] at hm
      have hmode : mode = false := by simpa [modes, Event.mode?] using hm
      exact absurd (congrArg Except.ok hmode) hr
  | undone reply earlier =>
    obtain ⟨since, before, rfl, hn⟩ := split_of_callsTo hc
    cases reply with
    | error e => exact absurd rfl (hb _ (List.mem_append_right since List.mem_cons_self))
    | ok value => exact ⟨since, before, rfl, hn⟩

namespace Backend

variable {σ : Type} [Driver σ]

theorem attended_undo (channel : Nat) (b : Backend σ) :
    Attended channel (callsTo channel (b.undo channel).journal) := by
  unfold undo
  split
  · rename_i b₁ h
    have t₁ := talk_of_call channel .autoCommit _ b b₁ h
    have t₂ := talk_call channel .rollback b₁
    rw [t₂.journal, t₁.journal, List.singleton_append, List.singleton_append, callsTo_cons,
      callsTo_cons]
    exact .undone _ _
  · rename_i reply b₁ hn h
    have t₁ := talk_of_call channel .autoCommit reply b b₁ h
    rw [t₁.journal, List.singleton_append, callsTo_cons]
    exact .asked reply _ hn

end Backend

namespace Service

variable {σ : Type}

/-- Whenever a connection was lent or put into the idle set, its transaction had been seen to. -/
structure Handed (s : Service σ) : Prop where
  issued : s.handles.map Handle.entry = (grants s.pool.backend.journal).reverse
  shelved : ∀ e ∈ s.pool.idle, .shelved e ∈ s.pool.backend.journal
  attended : ∀ newer event older channel,
    s.pool.backend.journal = newer ++ event :: older → event.arrival? = some channel →
      Attended channel (callsTo channel older)
  rolledBack : ∀ newer event older channel,
    s.pool.backend.journal = newer ++ event :: older → event.arrival? = some channel →
      (∀ x ∈ older, x.balking? ≠ some channel) → (modes channel older).head? = some false →
        RolledBack channel older

structure Attentive (hand : Option Entry) (s : Service σ) : Prop where
  provenance : s.HasProvenance hand
  shelved : ∀ e ∈ s.pool.idle, .shelved e ∈ s.pool.backend.journal
  arrivals : EachArrival (fun channel older => Attended channel (callsTo channel older))
    s.pool.backend.journal

theorem handed_of_attentive {s : Service σ} (hi : s.Issued) (a : Attentive none s) : s.Handed where
  issued := hi
  shelved := a.shelved
  attended newer event older channel hj he := by
    have ha := a.arrivals
    rw [hj] at ha
    exact ha.split he
  rolledBack newer event older channel hj he hb hm := by
    have ha := a.arrivals
    rw [hj] at ha
    exact rolledBack_of_attended (ha.split he) hb hm

variable [Driver σ]

theorem attentive_move (m m' : Option Entry × Service σ) (h : Move m m')
    (a : Attentive m.1 m.2) : Attentive m'.1 m'.2 where
  provenance := provenance_move m m' h a.provenance
  shelved e he := by
    have hj := journal_move m m' h a.provenance
    exact (idle_move m m' h e he).elim (fun hold => hj.subset (a.shelved e hold)) And.right
  arrivals := eachArrival_move m m' h a.provenance
    (fun e _ b => Backend.attended_undo e.channel b) a.arrivals

theorem attentive_forward (s : Service σ) (i : Nat) (c : Call) (hc : c ≠ .close)
    (a : Attentive none s) : Attentive none (s.forward i c).2 where
  provenance := provenance_forward s i c a.provenance
  shelved e he := by
    have hj := journal_forward s i c hc a.provenance
    rw [(forward_frame s i c).2.1] at he
    exact hj.subset (a.shelved e he)
  arrivals := eachArrival_forward s i c hc a.provenance a.arrivals

theorem attentive_command (op : Op σ) (s s' : Service σ) (h : Command op s s')
    (a : Attentive none s) : Attentive none s' where
  provenance := provenance_command op s s' h a.provenance
  shelved e he := by
    have hj := journal_command op s s' h a.provenance
    obtain ⟨-, -, hb | ⟨config, -, hp⟩⟩ := command_cases op s s' h
    · have hi : s'.pool.idle = s.pool.idle := congrArg Books.idle hb
      exact hj.subset (a.shelved e (hi ▸ he))
    · rw [hp, (Pool.reset_frame { s.pool with config }).2.1] at he
      exact absurd he List.not_mem_nil
  arrivals := eachArrival_command op s s' h a.provenance a.arrivals

/-- After every run of every pool, each connection was attended to whenever it was lent or put into
the idle set; and if it was lent in manual-commit mode, and neither of the two calls had failed, its
last call rolled it back. -/
theorem handovers_run (driver : σ) (config : Config) (pool : Pool σ)
    (h : Pool.create driver config = .ok pool) (ops : List (Op σ)) :
    (run ops (start pool)).Handed := by
  have v := provenance_start driver config pool h
  have hstart : (start pool).Issued ∧ Attentive none (start pool) := by
    rw [Pool.of_create driver config pool h] at v ⊢
    exact ⟨rfl, v, fun _ he => absurd he List.not_mem_nil, trivial⟩
  have a : Attentive none (run ops (start pool)) :=
    run_keeps Attentive attentive_move attentive_forward ops
      (fun op _ => attentive_command op) _ hstart.2
  exact handed_of_attentive (issued_run ops _ hstart.1) a

def uncommittedReturn : List (Op Scripted) :=
  [.acquire .plain, .call 0 (.execute "DELETE FROM t"), .release 0, .acquire .plain]

theorem handovers_uncommittedReturn :
    (run uncommittedReturn (start (Pool.unused ({ manualCommit := true } : Scripted)
        Config.pinging))).Handed ∧
      ((callsTo 0 (run uncommittedReturn (start (Pool.unused ({ manualCommit := true } : Scripted)
        Config.pinging))).pool.backend.journal).take 3).filterMap Event.driverLine? =
          ["0 rollback", "0 auto_commit", "0 rollback"] ∧
      ∃ newer granted older, (run uncommittedReturn (start (Pool.unused
          ({ manualCommit := true } : Scripted) Config.pinging))).pool.backend.journal =
            newer ++ granted :: older ∧
        granted.arrival? = some 0 ∧ (modes 0 older).head? = some false ∧ RolledBack 0 older := by
  have hrun := handovers_run ({ manualCommit := true } : Scripted) Config.pinging
    (Pool.unused { manualCommit := true } Config.pinging) rfl uncommittedReturn
  refine ⟨hrun, by decide +kernel, ?_⟩
  obtain ⟨journal, hjournal⟩ : ∃ journal, journal = (run uncommittedReturn (start (Pool.unused
    ({ manualCommit := true } : Scripted) Config.pinging))).pool.backend.journal := ⟨_, rfl⟩
  -- the latest event settles the acquisition, and the one before it lends the connection
  have hgranted : (journal[1]?.any fun event => event.arrival? == some 0) = true := by
    rw [hjournal]
    decide +kernel
  have hmode : (modes 0 (journal.drop 2)).head? = some false := by
    rw [hjournal]
    decide +kernel
  have hbalking : ((journal.drop 2).all fun x => x.balking? != some 0) = true := by
    rw [hjournal]
    decide +kernel
  obtain ⟨granted, hget, ha⟩ := (Option.any_eq_true _ _).mp hgranted
  have ha : granted.arrival? = some 0 := by simpa using ha
  have hj : journal = journal.take 1 ++ granted :: journal.drop 2 := by
    obtain ⟨hl, rfl⟩ := List.getElem?_eq_some_iff.mp hget
    rw [List.getElem_cons_drop, List.take_append_drop]
  have hroll := hrun.rolledBack _ granted (journal.drop 2) 0 (hjournal.symm.trans hj) ha
    (by simpa using hbalking) hmode
  exact ⟨_, granted, journal.drop 2, hjournal.symm.trans hj, ha, hmode, hroll⟩

end Service

end ConnectionPool
