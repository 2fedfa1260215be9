import ConnectionPool.Proofs.Dealings
import ConnectionPool.Proofs.Leases
import ConnectionPool.Proofs.Ownership

/-!
# Stale handles

A handle is stale once it was returned or its entry was retired, be it by a claim, by a reset or by
a fatal error. It stays stale: handles are only added and marked as returned, and an entry that was
retired keeps its status. A stale handle cannot reach its connection. What is left is its return,
which counts as a bad connection and takes off no lease but its own. If the entry was invalidated
the connection is closed then, and nobody else has it.
-/

set_option autoImplicit false

namespace ConnectionPool

namespace Books

def Lasting (b b' : Books) : Prop :=
  ∀ id, b.status id ≠ .valid → b'.status id = b.status id

theorem lasting_retire (id : Nat) (how : Status) (b : Books) : b.Lasting (b.retire id how) := by
  intro j hj
  rw [status_retire, if_neg]
  rintro ⟨rfl, hv⟩
  exact hj hv

theorem Turn.lasting {now caller : Nat} {m m' : Option Entry × Books}
    (h : Turn now caller m m') : m.2.Lasting m'.2 := by
  cases h with
  | pick b e rest hi | connect b hi hr | refuse b | drop b oldest rest hi hf ha hv =>
    exact fun _ _ => rfl
  | claim b oldest rest hi hf ha hv =>
    exact lasting_retire oldest.id .superseded (b.note (.claimed caller oldest _))
  | reject b e => exact lasting_retire e.id .invalidated (b.note (.examined caller e false _ _))

end Books

namespace Pool

variable {σ : Type} [Driver σ]

theorem lasting_grant (now : Nat) (r : Request) (e : Entry) (p q : Pool σ)
    (h : p.examine now r.caller e = (true, q)) :
    p.books.Lasting (q.grant now r e).2.books := by
  rw [books_grant, examine_books now r.caller e true p q h]
  exact fun _ _ => rfl

theorem lasting_takeBack (now : Nat) (e : Entry) (p : Pool σ) :
    p.books.Lasting (p.takeBack now e).2.books := by
  refine p.takeBack_cases now e (motive := fun _ b => p.books.Lasting b) ?retired ?kept ?closed
  case retired => exact fun _ _ _ => rfl
  case kept => exact fun _ _ => Books.lasting_retire e.id .superseded (p.books.takeOut e)
  case closed => exact fun _ _ => Books.lasting_retire e.id .invalidated (p.books.takeOut e)

theorem lasting_reset (p : Pool σ) : p.books.Lasting p.reset.books := by
  intro id hid
  rw [status_books, status_reset, if_neg]
  · rfl
  · exact fun h => hid h.2

theorem lasting_reconfigure (update : Config → Config) (p : Pool σ) :
    p.books.Lasting (p.reconfigure update).2.books :=
  p.reconfigure_cases update (motive := fun q => p.books.Lasting q.books) (fun _ _ => rfl)
    (lasting_reset { p with config := update p.config })

end Pool

/-- The handle that the operation returns, by dropping it or by closing it. -/
def Op.returned? {σ : Type} : Op σ → Option Nat
  | .release i | .call i .close => some i
  | _ => none

namespace Service

variable {σ : Type}

/-- Handles stay with their entries, a stale one stays stale, and a retired entry keeps its
status. -/
structure Lasts (s t : Service σ) : Prop where
  handle : ∀ (i : Nat) (handle : Handle), s.handles[i]? = some handle →
    ∃ later, t.handles[i]? = some later ∧ later.entry = handle.entry ∧
      (s.isValid handle = false → t.isValid later = false)
  status : ∀ id, s.pool.status id ≠ .valid → t.pool.status id = s.pool.status id

variable {s t u : Service σ}

theorem Lasts.trans (h : s.Lasts t) (h' : t.Lasts u) : s.Lasts u where
  handle i handle hh := by
    obtain ⟨later, hl, he, hv⟩ := h.handle i handle hh
    obtain ⟨last, hl', he', hv'⟩ := h'.handle i later hl
    exact ⟨last, hl', he'.trans he, fun hs => hv' (hv hs)⟩
  status id hid := by
    have hs := h.status id hid
    rw [← hs] at hid ⊢
    exact h'.status id hid

theorem isValid_eq_false (handle : Handle) (s : Service σ) :
    s.isValid handle = false ↔
      handle.released = true ∨ s.pool.status handle.entry.id ≠ .valid := by
  cases hr : handle.released <;> simp [isValid, hr]

theorem lasts_of_handles (hs : s.pool.books.Lasting t.pool.books)
    (hh : ∀ (i : Nat) (handle : Handle), s.handles[i]? = some handle →
      ∃ later, t.handles[i]? = some later ∧ later.entry = handle.entry ∧
        (handle.released = true → later.released = true)) :
    s.Lasts t where
  handle i handle hi := by
    obtain ⟨later, hl, he, hr⟩ := hh i handle hi
    refine ⟨later, hl, he, fun hv => ?_⟩
    rw [isValid_eq_false] at hv ⊢
    rw [he]
    refine hv.imp hr fun hn => ?_
    have hst := hs handle.entry.id hn
    exact fun h => hn (hst.symm.trans h)
  status := hs

theorem lasts_of_books (hs : s.pool.books.Lasting t.pool.books) (hh : t.handles = s.handles) :
    s.Lasts t :=
  lasts_of_handles hs fun _ handle hi => ⟨handle, hh ▸ hi, rfl, id⟩

theorem Lasts.refl (s : Service σ) : s.Lasts s := lasts_of_books (fun _ _ => rfl) rfl

theorem channel_ne_of_valid (v : s.HasProvenance none) {handle : Handle}
    (hm : handle ∈ s.handles) (hi : s.pool.status handle.entry.id = .invalidated) {e : Entry}
    (he : e ∈ s.entries) (hv : s.pool.status e.id = .valid) : e.channel ≠ handle.entry.channel := by
  intro hc
  have hh := v.spent handle hm hi e (held_of_valid s v.ledger e he hv) hc
  subst hh
  exact absurd (hv.symm.trans hi) (by decide)

variable [Driver σ]

theorem lasts_move (m m' : Option Entry × Service σ) (h : Move m m') : m.2.Lasts m'.2 := by
  cases h with
  | mark s | come s | pass s | leave s | awake s x | sleep s r hs hc | fail s r error =>
    exact lasts_of_books (fun _ _ => rfl) rfl
  | countWait s r =>
    unfold countWait
    split <;> exact lasts_of_books (fun _ _ => rfl) rfl
  | turn s caller hand hand' q h => exact lasts_of_books (Pool.turn_books h).lasting rfl
  | grant s r e q h =>
    refine lasts_of_handles (Pool.lasting_grant s.now r e s.pool q h) ?_
    intro i handle hi
    refine ⟨handle, ?_, rfl, id⟩
    exact (List.getElem?_append_left (List.getElem?_eq_some_iff.mp hi).1).trans hi
  | takeBack s i handle hh hr =>
    refine lasts_of_handles (Pool.lasting_takeBack s.now handle.entry s.pool) ?_
    intro j other hj
    by_cases hij : i = j
    · subst hij
      obtain rfl : handle = other := Option.some.inj (hh.symm.trans hj)
      exact ⟨{ handle with released := true },
        List.getElem?_set_self (List.getElem?_eq_some_iff.mp hh).1, rfl, fun _ => rfl⟩
    · exact ⟨other, (List.getElem?_set_ne hij).trans hj, rfl, id⟩

theorem lasts_command (op : Op σ) (s s' : Service σ) (h : Command op s s') : s.Lasts s' := by
  cases h with
  | meddle s f | issueToken s hl => exact lasts_of_books (fun _ _ => rfl) rfl
  | reset s hl | shutDown s hl hw => exact lasts_of_books (Pool.lasting_reset s.pool) rfl
  | reconfigure s update hl => exact lasts_of_books (Pool.lasting_reconfigure update s.pool) rfl

theorem lasts_forward (s : Service σ) (i : Nat) (c : Call) : s.Lasts (s.forward i c).2 := by
  obtain ⟨hs, hb⟩ := forward_cases s i c
  refine lasts_of_books ?_ (by rw [hs])
  rcases hb with hb | ⟨handle, error, -, -, -, -, hb⟩
  · rw [hb]
    exact fun _ _ => rfl
  · rw [hb]
    exact Books.lasting_retire handle.entry.id .invalidated s.pool.books

theorem lasts_run (ops : List (Op σ)) (s : Service σ) : s.Lasts (run ops s) :=
  run_keeps (fun _ t => s.Lasts t) (fun m m' h hl => hl.trans (lasts_move m m' h))
    (fun t i c _ hl => hl.trans (lasts_forward t i c)) ops
    (fun op _ t t' h hl => hl.trans (lasts_command op t t' h)) s (Lasts.refl s)

/-- How a handle is returned for the first time whose entry is no longer valid. -/
structure LateReturn (i : Nat) (handle : Handle) (s t : Service σ) : Prop where
  counted : t.pool.tally = { s.pool.tally with bad := s.pool.tally.bad + 1 }
  idle : t.pool.idle = s.pool.idle
  active : t.pool.active = s.pool.active.erase handle.entry
  retired : t.pool.retired = s.pool.retired
  handles : t.handles = s.handles.set i { handle with released := true }
  waiting : t.waiting = s.waiting
  superseded : s.pool.status handle.entry.id = .superseded → ∃ added,
    t.pool.backend.journal = added ++ s.pool.backend.journal ∧
      ∀ event ∈ added, event.isTraffic = false
  invalidated : s.pool.status handle.entry.id = .invalidated → (∃ added,
    t.pool.backend.journal = added ++ s.pool.backend.journal ∧
      ∀ event ∈ added, event.isTraffic = true → event.called? = some handle.entry.channel) ∧
    ∀ e ∈ s.entries, s.pool.status e.id = .valid → e.channel ≠ handle.entry.channel

/-- A stale handle gets no call through; its first return is late, and any other does nothing. -/
structure Inert (s : Service σ) : Prop where
  call : ∀ (i : Nat) (handle : Handle) (c : Call), s.handles[i]? = some handle →
    s.isValid handle = false → c ≠ .close → s.call i c = (.error .invalidated, s)
  late : ∀ (op : Op σ) (i : Nat) (handle : Handle), op.returned? = some i →
    s.handles[i]? = some handle → handle.released = false →
    s.pool.status handle.entry.id ≠ .valid → LateReturn i handle s (step op s)
  again : ∀ (op : Op σ) (i : Nat) (handle : Handle), op.returned? = some i →
    s.handles[i]? = some handle → handle.released = true → step op s = s

theorem step_of_returned (op : Op σ) (i : Nat) (s : Service σ) (h : op.returned? = some i) :
    step op s = s.release i := by
  cases op with
  | release j =>
    obtain rfl := Option.some.inj h
    rfl
  | call j c =>
    cases c with
    | close =>
      obtain rfl := Option.some.inj h
      rfl
    | _ => exact absurd h (by simp [Op.returned?])
  | _ => exact absurd h (by simp [Op.returned?])

theorem forward_of_stale (s : Service σ) (i : Nat) (handle : Handle) (c : Call)
    (hh : s.handles[i]? = some handle) (hv : s.isValid handle = false) :
    s.forward i c = (.error .invalidated, s) := by
  unfold forward
  rw [hh]
  exact if_neg (by simp [hv])

theorem release_of_released (s : Service σ) (i : Nat) (handle : Handle)
    (hh : s.handles[i]? = some handle) (hr : handle.released = true) : s.release i = s := by
  unfold release
  rw [hh]
  exact if_pos hr

theorem late_release (v : s.HasProvenance none) (i : Nat) (handle : Handle)
    (hh : s.handles[i]? = some handle) (hr : handle.released = false)
    (hn : s.pool.status handle.entry.id ≠ .valid) : LateReturn i handle s (s.release i) := by
  have hm : handle ∈ s.handles := List.mem_of_getElem? hh
  obtain ⟨hk, hb⟩ := Pool.takeBack_retired s.now handle.entry s.pool hn
  have hback := Pool.backend_takeBack s.now handle.entry s.pool
  have hs : s.release i = s.takeBack i handle := by
    rw [release_eq s i handle hh hr, hk]
    rfl
  rw [hs]
  refine ⟨congrArg Books.tally hb, congrArg Books.idle hb, ?_, congrArg Books.retired hb, rfl, rfl,
    ?_, ?_⟩
  · exact (congrArg Books.active hb).trans (v.ledger.erase_lease hm)
  · intro hsup
    rw [hsup] at hback
    exact ⟨[s.pool.returnEvent handle.entry], congrArg Backend.journal hback, by
      simp [Pool.returnEvent, Event.isTraffic]⟩
  · intro hinv
    rw [hinv] at hback
    refine ⟨?_, fun e he hv => channel_ne_of_valid v hm hinv he hv⟩
    obtain ⟨talk, t, -⟩ := Backend.talk_close handle.entry.channel
      (s.pool.backend.note (s.pool.returnEvent handle.entry))
    refine ⟨talk ++ [s.pool.returnEvent handle.entry], ?_, ?_⟩
    · rw [List.append_assoc]
      exact (congrArg Backend.journal hback).trans t.journal
    · intro event he ht
      rcases List.mem_append.mp he with he | he
      · exact t.called event he
      · rw [List.mem_singleton.mp he] at ht
        exact absurd ht (by simp [Pool.returnEvent, Event.isTraffic])

theorem inert_of_provenance (s : Service σ) (v : s.HasProvenance none) : s.Inert where
  call i handle c hh hv hc := by
    rw [call_eq_forward s i c hc]
    exact forward_of_stale s i handle c hh hv
  late op i handle ho hh hr hn := by
    rw [step_of_returned op i s ho]
    exact late_release v i handle hh hr hn
  again op i handle ho hh hr := by
    rw [step_of_returned op i s ho]
    exact release_of_released s i handle hh hr

/-- After every run of every pool a stale handle is inert, and it stays stale for the rest of the
run, whatever the driver answers. -/
theorem staleness_run (driver : σ) (config : Config) (pool : Pool σ)
    (h : Pool.create driver config = .ok pool) (before after : List (Op σ)) :
    (run before (start pool)).Inert ∧
      (run before (start pool)).Lasts (run (before ++ after) (start pool)) := by
  constructor
  · exact inert_of_provenance _ (provenance_run before _ (provenance_start driver config pool h))
  · rw [run_append]
    exact lasts_run after _

theorem staleness_overdueTakeover :
    let s := run overdueTakeover (start (Pool.unused ({} : Scripted) Config.single))
    ∃ handle, s.handles[0]? = some handle ∧ s.isValid handle = false ∧
      LateReturn 0 handle s (step (.release 0) s) ∧
      s.Lasts (run (overdueTakeover ++ [.release 1, .release 0])
        (start (Pool.unused ({} : Scripted) Config.single))) := by
  intro s
  obtain ⟨hi, hl⟩ := staleness_run ({} : Scripted) Config.single (Pool.unused {} Config.single) rfl
    overdueTakeover [.release 1, .release 0]
  have hfirst : (s.handles[0]?.any fun handle =>
      !handle.released && s.pool.status handle.entry.id == .superseded) = true := by
    unfold s
    rw [run_overdueTakeover]
    decide +kernel
  obtain ⟨handle, hh, hs⟩ := (Option.any_eq_true _ _).mp hfirst
  simp only [Bool.and_eq_true, Bool.not_eq_true', beq_iff_eq] at hs
  have hn : s.pool.status handle.entry.id ≠ .valid := by
    rw [hs.2]
    decide
  exact ⟨handle, hh, (isValid_eq_false handle _).mpr (Or.inr hn),
    hi.late (.release 0) 0 handle rfl hh hs.1 hn, hl⟩

end Service

end ConnectionPool
