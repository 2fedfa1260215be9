import ConnectionPool.Proofs.Ownership
import ConnectionPool.Proofs.Safekeeping
import ConnectionPool.Proofs.Tracking
import ConnectionPool.Proofs.Views

/-!
# Closing is final

Handles are given out in the order of the grants in the journal. What is granted after a connection
was told to close is another connection, the pool does not hold the closed one, and as calls are
only passed on from valid handles, whose entries are leases, none reaches it any more. Where the
driver answers truthfully, no connection is told twice.
-/

set_option autoImplicit false

namespace ConnectionPool

def Config.pinging : Config :=
  { Config.trial with pingQuery := "SELECT 1", pingEnabled := true }

def Event.grant? : Event → Option Entry
  | granted _ e => some e
  | _ => none

theorem Event.grant_of_booking (event : Event) (h : event.isBooking = true) :
    event.grant? = none := by
  cases event <;> simp_all [isBooking, grant?]

theorem Event.grant_of_traffic (event : Event) (h : event.isTraffic = true) :
    event.grant? = none := by
  cases event <;> simp_all [isTraffic, grant?]

theorem Event.arrival_of_grant (event : Event) (e : Entry) (h : event.grant? = some e) :
    event.arrival? = some e.channel := by
  cases event <;> simp_all [grant?, arrival?]

def grants (journal : List Event) : List Entry := journal.filterMap Event.grant?

theorem closings_split (journal : List Event) (channel : Nat) (h : channel ∈ closings journal) :
    ∃ newer reply older, journal = newer ++ .call channel .close reply :: older := by
  obtain ⟨event, he, hc⟩ := (mem_closings journal channel).mp h
  obtain ⟨newer, older, rfl⟩ := List.append_of_mem he
  cases event with
  | call i c reply =>
    cases c with
    | close =>
      obtain rfl := Option.some.inj hc
      exact ⟨newer, reply, older, rfl⟩
    | _ => exact absurd hc (by simp [Event.closing?])
  | _ => exact absurd hc (by simp [Event.closing?])

namespace Service

variable {σ : Type}

/-- Handles are given out in the order of the grants. -/
def Issued (s : Service σ) : Prop :=
  s.handles.map Handle.entry = (grants s.pool.backend.journal).reverse

theorem issued_books (s : Service σ) :
    s.Issued ↔ s.handles.map Handle.entry = (s.pool.books.view Event.grant?).reverse := by
  unfold Issued grants
  rw [Backend.filterMap_journal Event.grant? Event.grant_of_traffic]
  rfl

theorem Issued.congr {s s' : Service σ} (hi : s.Issued)
    (hh : s'.handles.map Handle.entry = s.handles.map Handle.entry)
    (hv : s'.pool.books.view Event.grant? = s.pool.books.view Event.grant?) : s'.Issued := by
  rw [issued_books] at hi ⊢
  rw [hh, hv, hi]

variable {s : Service σ} {channel : Nat} {newer older : List Event} {reply : Reply .close}

theorem channel_ne_of_held (o : s.InOrder none) (hc : channel ∈ closings s.pool.backend.journal)
    {e : Entry} (he : e ∈ s.pool.idle ++ s.pool.active) : e.channel ≠ channel := by
  rintro rfl
  exact o.2.unclosed e.channel (List.mem_map_of_mem he) hc

theorem Issued.later (hi : s.Issued) (hj : s.pool.backend.journal = newer ++ older) {i : Nat}
    {handle : Handle} (hl : (grants older).length ≤ i) (hh : s.handles[i]? = some handle) :
    ∃ event ∈ newer, event.grant? = some handle.entry := by
  have hg : grants s.pool.backend.journal = grants newer ++ grants older := by
    rw [hj]
    exact List.filterMap_append
  have he : (s.handles.map Handle.entry)[i]? = some handle.entry := by
    rw [List.getElem?_map, hh]
    rfl
  rw [hi, hg, List.reverse_append, List.getElem?_append_right (by simpa using hl)] at he
  exact List.mem_filterMap.mp (List.mem_reverse.mp (List.mem_of_getElem? he))

theorem channel_ne_of_later (o : s.InOrder none) (hi : s.Issued)
    (hj : s.pool.backend.journal = newer ++ .call channel .close reply :: older) {i : Nat}
    {handle : Handle} (hl : (grants older).length ≤ i) (hh : s.handles[i]? = some handle) :
    handle.entry.channel ≠ channel := by
  obtain ⟨event, hm, hgrant⟩ := hi.later hj hl hh
  have hf := o.2.final
  rw [hj, List.pairwise_append] at hf
  have hne := hf.2.2 event hm _ List.mem_cons_self handle.entry.channel
    (Event.arrival_of_grant event handle.entry hgrant)
  rintro rfl
  exact hne rfl

theorem number_of_entry (v : s.HasProvenance none) :
    ∀ e ∈ s.entries, e.link.number = e.channel + 1 := by
  intro e he
  rcases List.mem_append.mp he with he | he
  · exact v.held_number e he
  · obtain ⟨handle, hm, rfl⟩ := List.mem_map.mp he
    exact v.handle_number handle hm

variable [Driver σ]

theorem issued_move (m m' : Option Entry × Service σ) (h : Move m m') (hi : m.2.Issued) :
    m'.2.Issued := by
  cases h with
  | mark s | come s | pass s | leave s => exact hi
  | awake s x | sleep s r hs hc | fail s r error => exact hi
  | countWait s r =>
    unfold countWait
    split <;> exact hi
  | turn s caller hand hand' q h =>
    exact hi.congr rfl ((Pool.turn_books h).view Event.grant_of_booking)
  | grant s r e q h =>
    have hq := Pool.view_examine Event.grant_of_booking s.now r.caller e true s.pool q h
    have hv : (q.grant s.now r e).2.books.view Event.grant? =
        (q.grant s.now r e).1 :: q.books.view Event.grant? := by
      rw [Pool.books_grant]
      rfl
    rw [issued_books] at hi ⊢
    show (s.handles ++ [_]).map Handle.entry =
      ((q.grant s.now r e).2.books.view Event.grant?).reverse
    rw [hv, hq, List.reverse_cons, ← hi, List.map_append]
    rfl
  | takeBack s i handle hh hr =>
    exact hi.congr (map_released Handle.entry hh rfl)
      (Pool.view_takeBack Event.grant_of_booking s.now handle.entry s.pool)

theorem issued_command (op : Op σ) (s s' : Service σ) (h : Command op s s') (hi : s.Issued) :
    s'.Issued := by
  have hv := view_command (fun e lent => Event.grant_of_booking (.drained e lent) rfl) op s s' h
  cases h with
  | meddle s f | issueToken s hl | reset s hl | reconfigure s update hl | shutDown s hl hw =>
    exact hi.congr rfl hv

theorem issued_run (ops : List (Op σ)) (s : Service σ) (hi : s.Issued) : (run ops s).Issued := by
  refine run_keeps (fun _ s => s.Issued) issued_move ?_ ops (fun op _ => issued_command op) s hi
  intro s i c _ hi
  have hh : (s.forward i c).2.handles = s.handles := by rw [(forward_cases s i c).1]
  exact hi.congr (congrArg (List.map Handle.entry) hh) (view_forward s i c)

/-- The connection was told to close when the journal was `older`, and has been out of use since. -/
structure OutOfUse (channel : Nat) (older : List Event) (s : Service σ) : Prop where
  numbered : ∀ e ∈ s.entries, e.link.number = e.channel + 1
  not_held : ∀ e ∈ s.pool.idle ++ s.pool.active, e.channel ≠ channel
  issued : s.handles.map Handle.entry = (grants s.pool.backend.journal).reverse
  not_lent : ∀ i handle, (grants older).length ≤ i → s.handles[i]? = some handle →
    handle.entry.link.number ≠ channel + 1
  not_called : ∀ i c, c ≠ .close → ∃ added,
    (s.call i c).2.pool.backend.journal = added ++ s.pool.backend.journal ∧
      ∀ event ∈ added, event.called? ≠ some channel

theorem called_of_call (o : s.InOrder none) (hc : channel ∈ closings s.pool.backend.journal)
    (i : Nat) (c : Call) (hn : c ≠ .close) :
    ∃ added, (s.call i c).2.pool.backend.journal = added ++ s.pool.backend.journal ∧
      ∀ event ∈ added, event.called? ≠ some channel := by
  rw [call_eq_forward s i c hn]
  rcases backend_forward s i c with hb | ⟨handle, hh, hv, hb⟩
  · exact ⟨[], by rw [hb]; rfl, by simp⟩
  · refine ⟨[.call handle.entry.channel c _], by rw [hb]; rfl, ?_⟩
    have hm : handle.entry ∈ s.pool.active :=
      o.1.running handle (List.mem_of_getElem? hh) (status_of_isValid handle s hv)
    have hne := channel_ne_of_held o hc (List.mem_append_right s.pool.idle hm)
    intro event he
    rw [List.mem_singleton.mp he]
    exact fun h => hne (Option.some.inj h)

theorem outOfUse_of_closing (o : s.InOrder none) (hi : s.Issued)
    (hj : s.pool.backend.journal = newer ++ .call channel .close reply :: older) :
    s.OutOfUse channel older := by
  have hc : channel ∈ closings s.pool.backend.journal :=
    (mem_closings _ _).mpr ⟨_, hj ▸ List.mem_append_right newer List.mem_cons_self, rfl⟩
  refine ⟨number_of_entry o.1, fun e he => channel_ne_of_held o hc he, hi, ?_, called_of_call o hc⟩
  intro i handle hl hh he
  have hm : handle.entry ∈ s.entries :=
    List.mem_append_right _ (List.mem_map_of_mem (List.mem_of_getElem? hh))
  rw [number_of_entry o.1 handle.entry hm] at he
  exact channel_ne_of_later o hi hj hl hh (Nat.succ.inj he)

/-- What any pool has closed stays out of use, whatever the driver answers; and what a truthful
driver opened is closed once. -/
theorem finality_run :
    (∀ (σ : Type) [Driver σ] (driver : σ) (config : Config) (pool : Pool σ),
      Pool.create driver config = .ok pool →
        ∀ (before after : List (Op σ)) (newer older : List Event) (channel : Nat)
          (reply : Reply .close),
          (run before (start pool)).pool.backend.journal =
            newer ++ .call channel .close reply :: older →
          (run (before ++ after) (start pool)).OutOfUse channel older) ∧
      ∀ (driver : Scripted) (config : Config) (pool : Pool Scripted),
        driver.connections = [] → Pool.create driver config = .ok pool →
          ∀ ops : List (Op Scripted), Op.MeddlesBy Scripted.Act.fromOutside ops →
            (closings (run ops (start pool)).pool.backend.journal).Nodup := by
  constructor
  · intro σ _ driver config pool h before after newer older channel reply hj
    have o := inOrder_start driver config pool h
    have hi : (start pool).Issued := by
      rw [Pool.of_create driver config pool h]
      rfl
    obtain ⟨later, hl⟩ := journal_run after _ (inOrder_run before _ o).1
    rw [← run_append, hj, ← List.append_assoc] at hl
    exact outOfUse_of_closing (inOrder_run (before ++ after) _ o)
      (issued_run (before ++ after) _ hi) hl.symm
  · intro driver config pool hd h ops hm
    have v := provenance_start driver config pool h
    exact (tracked_run ops hm _ v (tracked_start driver hd config pool h)).once

def failedPing : List (Op Scripted) :=
  [.acquire .plain, .release 0, .meddle (Scripted.act (.failStatements 0 true)), .acquire .plain]

theorem finality_failedPing :
    (∃ newer reply older, (run failedPing
        (start (Pool.unused ({} : Scripted) Config.pinging))).pool.backend.journal =
          newer ++ .call 0 .close reply :: older ∧
        (run (failedPing ++ [.call 1 .commit])
          (start (Pool.unused ({} : Scripted) Config.pinging))).OutOfUse 0 older) ∧
      (closings (run failedPing
        (start (Pool.unused ({} : Scripted) Config.pinging))).pool.backend.journal).Nodup ∧
      (run failedPing (start (Pool.unused ({} : Scripted) Config.pinging))).handles.map
        (fun h => h.entry.link.number) = [1, 2] := by
  obtain ⟨hany, hscripted⟩ := finality_run
  have hm : Op.MeddlesBy Scripted.Act.fromOutside failedPing := by
    intro f hf
    simp only [failedPing, List.mem_cons, Op.meddle.injEq, reduceCtorEq, false_or, or_false,
      List.not_mem_nil] at hf
    exact ⟨.failStatements 0 true, rfl, hf⟩
  have hc : 0 ∈ closings (run failedPing
      (start (Pool.unused ({} : Scripted) Config.pinging))).pool.backend.journal := by
    decide +kernel
  obtain ⟨newer, reply, older, hj⟩ := closings_split _ 0 hc
  have hout := hany Scripted {} Config.pinging (Pool.unused {} Config.pinging) rfl failedPing
    [.call 1 .commit] newer older 0 reply hj
  have honce := hscripted {} Config.pinging (Pool.unused {} Config.pinging) rfl rfl failedPing hm
  refine ⟨⟨newer, reply, older, hj, hout⟩, honce, ?_⟩
  decide +kernel

end Service

end ConnectionPool
