import ConnectionPool.Proofs.Capacity
import ConnectionPool.Proofs.Views

/-!
# Leases and their handles

The active entries are the outstanding leases: each has one handle, which is still out, and a handle
that is still out and valid has its lease. A handle can lose its lease before it comes back in two
ways only: a caller claims the lease because it is overdue, or the pool gives up all that it holds.
Between the moves of a step the first is followed through the claims in the journal.
-/

set_option autoImplicit false

namespace ConnectionPool

structure Claim where
  entry : Entry
  held : Nat

def Event.claim? : Event → Option Claim
  | claimed _ entry held => some ⟨entry, held⟩
  | _ => none

theorem Event.claim_of_traffic (event : Event) (h : event.isTraffic = true) :
    event.claim? = none := by
  cases event <;> simp_all [isTraffic, claim?]

namespace Pool

variable {σ : Type} [Driver σ]

theorem Turn.claims {now caller : Nat} {m m' : Option Entry × Pool σ}
    (h : Turn now caller m m') :
    m'.2.config = m.2.config ∧
      (m'.2.active = m.2.active ∧
          m'.2.books.view Event.claim? = m.2.books.view Event.claim? ∨
        ∃ oldest, m.2.active = oldest :: m'.2.active ∧
          m.2.config.maxCheckout < oldest.heldFor now ∧
          m'.2.books.view Event.claim? =
            ⟨oldest, oldest.heldFor now⟩ :: m.2.books.view Event.claim?) := by
  cases h with
  | pick p e rest hi => exact ⟨rfl, Or.inl ⟨rfl, rfl⟩⟩
  | connect p q e hi hr h =>
    obtain ⟨-, hq⟩ := openLink_found now p q e h
    have hv : q.books.view Event.claim? = p.books.view Event.claim? := by
      rw [hq]
      rfl
    exact ⟨congrArg Books.config hq, Or.inl ⟨congrArg Books.active hq, hv⟩⟩
  | refuse p q error hi hr h =>
    have hq := openLink_refused now p q error h
    exact ⟨congrArg Books.config hq, Or.inl ⟨congrArg Books.active hq, by rw [hq]⟩⟩
  | claim p oldest rest hi hr ha ho hv =>
    have hq := books_takeOver now caller oldest rest p
    refine ⟨congrArg Books.config hq, Or.inr ⟨oldest, ?_, ho, ?_⟩⟩
    · rw [ha]
      exact congrArg (oldest :: ·) (congrArg Books.active hq).symm
    · rw [hq]
      rfl
  | drop p oldest rest hi hr ha ho hv =>
    have hq : ((p.unlend now caller oldest rest).close oldest).books = _ :=
      (books_close oldest _).trans (books_unlend now caller oldest rest p)
    refine ⟨congrArg Books.config hq, Or.inr ⟨oldest, ha, ho, ?_⟩⟩
    rw [hq]
    rfl
  | reject p q e h =>
    have hq : (q.reject e).books = _ := books_reject e q
    rw [examine_books now caller e false p q h] at hq
    refine ⟨congrArg Books.config hq, Or.inl ⟨congrArg Books.active hq, ?_⟩⟩
    rw [hq]
    rfl

end Pool

namespace Service

variable {σ : Type}

def claims (s : Service σ) : List Claim := s.pool.backend.journal.filterMap Event.claim?

theorem claims_books (s : Service σ) : s.claims = s.pool.books.view Event.claim? :=
  Backend.filterMap_journal Event.claim? Event.claim_of_traffic s.pool.backend

def Evicted (e : Entry) (s : Service σ) : Prop :=
  e ∉ s.pool.active ∧ ∃ handle ∈ s.handles, handle.entry = e ∧ handle.released = false

/-- The claim was made between the two moments, and the lease was overdue then. -/
def Overdue (s t : Service σ) (x : Claim) : Prop :=
  s.pool.config.maxCheckout < x.held ∧
    ∃ now, s.now ≤ now ∧ now ≤ t.now ∧ x.held = x.entry.heldFor now

structure Tracing (s t : Service σ) : Prop where
  config : t.pool.config = s.pool.config
  now_le : s.now ≤ t.now
  claims : ∃ added, t.claims = added ++ s.claims ∧ (∀ x ∈ added, Overdue s t x) ∧
    ∀ e, Evicted e t → Evicted e s ∨ ∃ x ∈ added, x.entry = e

variable {s t t' : Service σ}

theorem Overdue.mono {x : Claim} (h : Overdue s t x) (hn : t.now ≤ t'.now) : Overdue s t' x := by
  obtain ⟨ho, now, hs, ht, hx⟩ := h
  exact ⟨ho, now, hs, Nat.le_trans ht hn, hx⟩

theorem Tracing.refl (s : Service σ) : s.Tracing s where
  config := rfl
  now_le := Nat.le_refl _
  claims := ⟨[], rfl, by simp, fun _ => Or.inl⟩

theorem Tracing.congr (r : s.Tracing t) (hc : t'.pool.config = t.pool.config)
    (hn : t.now ≤ t'.now)
    (hv : t'.pool.books.view Event.claim? = t.pool.books.view Event.claim?)
    (hb : ∀ e, Evicted e t' → Evicted e t) : s.Tracing t' where
  config := hc.trans r.config
  now_le := Nat.le_trans r.now_le hn
  claims := by
    obtain ⟨added, hadded, ho, he⟩ := r.claims
    refine ⟨added, ?_, fun x hx => (ho x hx).mono hn, fun e h => he e (hb e h)⟩
    rw [claims_books, hv, ← claims_books, hadded]

theorem Tracing.claim (r : s.Tracing t) {q : Pool σ} {oldest : Entry}
    (hc : q.config = t.pool.config) (ha : t.pool.active = oldest :: q.active)
    (ho : t.pool.config.maxCheckout < oldest.heldFor t.now)
    (hv : q.books.view Event.claim? =
      ⟨oldest, oldest.heldFor t.now⟩ :: t.pool.books.view Event.claim?) :
    s.Tracing { t with pool := q } where
  config := hc.trans r.config
  now_le := r.now_le
  claims := by
    obtain ⟨added, hadded, hover, he⟩ := r.claims
    refine ⟨⟨oldest, oldest.heldFor t.now⟩ :: added, ?_, ?_, ?_⟩
    · rw [claims_books, List.cons_append, ← hadded, claims_books]
      exact hv
    · intro x hx
      rcases List.mem_cons.mp hx with rfl | hx
      · exact ⟨r.config ▸ ho, t.now, r.now_le, Nat.le_refl _, rfl⟩
      · exact hover x hx
    · rintro e ⟨hn, hout⟩
      by_cases hold : e = oldest
      · exact Or.inr ⟨_, List.mem_cons_self, hold.symm⟩
      · have hb : Evicted e t := by
          refine ⟨fun hm => ?_, hout⟩
          rw [ha] at hm
          exact hn ((List.mem_cons.mp hm).resolve_left hold)
        refine (he e hb).imp_right ?_
        rintro ⟨x, hx, hxe⟩
        exact ⟨x, List.mem_cons_of_mem _ hx, hxe⟩

theorem index_unique (l : s.HasLedger none) {i j : Nat} {a b : Handle}
    (hi : s.handles[i]? = some a) (hj : s.handles[j]? = some b) (he : a.entry.id = b.entry.id) :
    i = j := by
  have hl : i < (s.handles.map fun h => h.entry.id).length := by
    rw [List.length_map]
    exact (List.getElem?_eq_some_iff.mp hi).1
  apply (List.getElem?_inj hl l.handle_ids_nodup).mp
  rw [List.getElem?_map, List.getElem?_map, hi, hj]
  exact congrArg some he

/-- The active entries are those of the handles that are out and have not lost their lease. -/
structure Outstanding (s : Service σ) : Prop where
  held : ∀ e ∈ s.pool.active, ∃ i handle, s.handles[i]? = some handle ∧ handle.entry = e ∧
    handle.released = false ∧
    ∀ (j : Nat) (other : Handle), s.handles[j]? = some other → other.entry = e → j = i
  nodup : s.pool.active.Nodup
  leased : ∀ handle ∈ s.handles, s.isValid handle = true → handle.entry ∈ s.pool.active

theorem outstanding_of_ledger (s : Service σ) (l : s.HasLedger none) : s.Outstanding where
  held e he := by
    obtain ⟨handle, hm, hentry, hr⟩ := l.leased e he
    obtain ⟨i, hi⟩ := List.getElem?_of_mem hm
    refine ⟨i, handle, hi, hentry, hr, fun j other hj ho => ?_⟩
    exact index_unique l hj hi (congrArg Entry.id (ho.trans hentry.symm))
  nodup := l.active_ids_nodup.of_map
  leased handle hm hv := l.running handle hm (status_of_isValid handle s hv)

variable [Driver σ]

theorem evicted_takeBack (l : t.HasLedger none) {i : Nat} {handle : Handle}
    (hh : t.handles[i]? = some handle) {e : Entry} (hb : Evicted e (t.takeBack i handle)) :
    Evicted e t := by
  obtain ⟨hn, other, hm, he, hr⟩ := hb
  obtain ⟨j, hj⟩ := List.getElem?_of_mem hm
  have hij : i ≠ j := by
    rintro rfl
    rw [show (t.takeBack i handle).handles = t.handles.set i _ from rfl,
      List.getElem?_set_self (List.getElem?_eq_some_iff.mp hh).1] at hj
    rw [← Option.some.inj hj] at hr
    exact Bool.noConfusion hr
  have hj : t.handles[j]? = some other := (List.getElem?_set_ne hij).symm.trans hj
  -- the other handle has another place, hence another entry, which the return leaves alone
  refine ⟨fun ha => hn ?_, other, List.mem_of_getElem? hj, he, hr⟩
  have hne : e ≠ handle.entry := by
    rintro rfl
    exact hij (index_unique l hh hj (congrArg Entry.id he.symm))
  have hactive : (t.takeBack i handle).pool.active = t.pool.active.erase handle.entry :=
    (Pool.takeBack_frame t.now handle.entry t.pool).2.trans
      (l.erase_lease (List.mem_of_getElem? hh))
  rw [hactive]
  exact (List.mem_erase_of_ne hne).mpr ha

theorem tracing_move (m m' : Option Entry × Service σ) (h : Move m m') (l : HasLedger m.1 m.2)
    (r : s.Tracing m.2) : s.Tracing m'.2 := by
  cases h with
  | mark t | come t | leave t | awake t x | sleep t req | fail t req error =>
    exact r.congr rfl (Nat.le_refl _) rfl fun _ => id
  | pass t now hn => exact r.congr rfl hn rfl fun _ => id
  | countWait t req =>
    unfold countWait
    split
    · exact r
    · exact r.congr rfl (Nat.le_refl _) rfl fun _ => id
  | turn t caller hand hand' q h =>
    obtain ⟨hc, ⟨ha, hv⟩ | ⟨oldest, ha, ho, hv⟩⟩ := h.claims
    · exact r.congr hc (Nat.le_refl _) hv fun e hb => ⟨ha ▸ hb.1, hb.2⟩
    · exact r.claim hc ha ho hv
  | grant t req e q h =>
    have hq := Pool.examine_books t.now req.caller e true t.pool q h
    have hg := Pool.books_grant t.now req e q
    rw [hq] at hg
    refine r.congr (congrArg Books.config hg) (Nat.le_refl _) ?_ ?_
    · show (q.grant t.now req e).2.books.view Event.claim? = _
      rw [hg]
      rfl
    · rintro a ⟨hn, handle, hm, he, hr⟩
      obtain ⟨-, -, -, hactive⟩ := Pool.grant_frame h
      change a ∉ (q.grant t.now req e).2.active at hn
      rw [hactive, List.mem_append, not_or] at hn
      refine ⟨hn.1, handle, ?_, he, hr⟩
      rcases List.mem_append.mp hm with hm | hm
      · exact hm
      · rw [List.mem_singleton.mp hm] at he
        exact absurd (List.mem_singleton.mpr he.symm) hn.2
  | takeBack t i handle hh hr =>
    refine r.congr (Pool.takeBack_frame t.now handle.entry t.pool).1 (Nat.le_refl _) ?_
      fun e hb => evicted_takeBack l hh hb
    exact t.pool.takeBack_cases t.now handle.entry
      (motive := fun _ b => b.view Event.claim? = t.pool.books.view Event.claim?)
      (fun _ => rfl) (fun _ _ => rfl) (fun _ _ => rfl)

/-- The operation gives up all that the pool holds. -/
def Resets (op : Op σ) (s : Service σ) : Prop :=
  match op with
  | .reset => s.isLive = true
  | .reconfigure update => s.isLive = true ∧ (update s.pool.config).validate = .ok ()
  | .shutDown => s.isLive = true ∧ s.waiting = []
  | _ => False

/-- In this step the lease was claimed as overdue, or it was active and given up by a reset. -/
def Evicts (op : Op σ) (e : Entry) (s : Service σ) : Prop :=
  (∃ added x, (step op s).claims = added ++ s.claims ∧ x ∈ added ∧ x.entry = e ∧
      Overdue s (step op s) x) ∨
    Resets op s ∧ e ∈ s.pool.active

theorem evicted_command (op : Op σ) (s s' : Service σ) (h : Command op s s') {e : Entry}
    (hb : Evicted e s') : Evicted e s ∨ Resets op s ∧ e ∈ s.pool.active := by
  obtain ⟨hn, hout⟩ := hb
  by_cases ha : e ∈ s.pool.active
  · right
    refine ⟨?_, ha⟩
    cases h with
    | meddle s f | issueToken s hl => exact absurd ha hn
    | reset s hl => exact hl
    | reconfigure s update hl =>
      refine ⟨hl, ?_⟩
      cases hv : (update s.pool.config).validate with
      | ok u => rfl
      | error error =>
        rw [reconfigure, Pool.reconfigure_of_error update s.pool error hv] at hn
        exact absurd ha hn
    | shutDown s hl hw => exact ⟨hl, hw⟩
  · left
    refine ⟨ha, ?_⟩
    cases h with
    | meddle s f | issueToken s hl | reset s hl | reconfigure s update hl | shutDown s hl hw =>
      exact hout

theorem evicted_step (op : Op σ) (s : Service σ) (l : s.HasLedger none) {e : Entry}
    (hb : Evicted e (step op s)) : Evicted e s ∨ Evicts op e s := by
  rcases step_moves s op with h | h | ⟨i, c, rfl, -, h⟩
  · have r := (moves_keep (fun hand t => HasLedger hand t ∧ s.Tracing t)
      (fun m m' h i => ⟨ledger_move m m' h i.1, tracing_move m m' h i.1 i.2⟩) _ _ h
      ⟨l, Tracing.refl s⟩).2
    obtain ⟨added, hadded, ho, he⟩ := r.claims
    refine (he e hb).imp_right ?_
    rintro ⟨x, hx, hxe⟩
    exact Or.inl ⟨added, x, hadded, hx, hxe, ho x hx⟩
  · exact (evicted_command op s _ h hb).imp_right Or.inr
  · left
    change Evicted e (s.call i c).2 at hb
    rw [h] at hb
    have hs : (s.forward i c).2.handles = s.handles := by rw [(forward_cases s i c).1]
    have ha := (forward_frame s i c).2.2.1
    exact ⟨ha ▸ hb.1, hs ▸ hb.2⟩

/-- What is evicted was so before the run, or was evicted at some operation of it. -/
theorem evicted_run (ops : List (Op σ)) (s : Service σ) (l : s.HasLedger none) {e : Entry}
    (hb : Evicted e (run ops s)) :
    Evicted e s ∨ ∃ before op after, ops = before ++ op :: after ∧
      Evicts op e (run before s) := by
  induction ops generalizing s with
  | nil => exact Or.inl hb
  | cons op rest ih =>
    rcases ih (step op s) (ledger_run [op] s l) hb with h | ⟨before, op', after, rfl, h⟩
    · refine (evicted_step op s l h).imp_right fun h => ?_
      exact ⟨[], op, rest, rfl, h⟩
    · exact Or.inr ⟨op :: before, op', after, rfl, h⟩

/-- After every run the leases are those of the handles that are out; and a handle that is out
without a lease lost it to a caller or to a reset. -/
theorem leases_run (driver : σ) (config : Config) (pool : Pool σ)
    (h : Pool.create driver config = .ok pool) (ops : List (Op σ)) :
    (run ops (start pool)).Outstanding ∧
      ∀ handle ∈ (run ops (start pool)).handles, handle.released = false →
        handle.entry ∉ (run ops (start pool)).pool.active →
          ∃ before op after, ops = before ++ op :: after ∧
            Evicts op handle.entry (run before (start pool)) := by
  have l := ledger_start driver config pool h
  refine ⟨outstanding_of_ledger _ (ledger_run ops _ l), fun handle hm hr hn => ?_⟩
  refine (evicted_run ops _ l ⟨hn, handle, hm, rfl, hr⟩).resolve_left ?_
  rintro ⟨-, other, ho, -⟩
  exact absurd ho List.not_mem_nil

def overdueTakeover : List (Op Scripted) :=
  [.acquire .plain, .advance (Nanos.ofSeconds 21), .acquire .plain]

theorem run_overdueTakeover :
    run overdueTakeover (start (Pool.unused ({} : Scripted) Config.single)) =
      step (.acquire .plain)
        { run [.acquire .plain] (start (Pool.unused ({} : Scripted) Config.single)) with
          now := Nanos.ofSeconds 21 } :=
  run_advance_undue [.acquire .plain] [.acquire .plain] _ (Nanos.ofSeconds 21)
    (Nanos.ofSeconds 21) (by decide +kernel) (by decide +kernel)

theorem leases_overdueTakeover :
    let s := run overdueTakeover (start (Pool.unused ({} : Scripted) Config.single))
    s.Outstanding ∧ s.pool.active.length = 1 ∧
      ∃ handle before op after, s.handles[0]? = some handle ∧ handle.released = false ∧
        overdueTakeover = before ++ op :: after ∧
        Evicts op handle.entry (run before
          (start (Pool.unused ({} : Scripted) Config.single))) := by
  intro s
  obtain ⟨ho, hb⟩ :=
    leases_run ({} : Scripted) Config.single (Pool.unused {} Config.single) rfl overdueTakeover
  have hfirst : (s.handles[0]?.any fun handle =>
      !handle.released && !s.pool.active.elem handle.entry) = true := by
    unfold s
    rw [run_overdueTakeover]
    decide +kernel
  obtain ⟨handle, hh, hs⟩ := (Option.any_eq_true _ _).mp hfirst
  simp only [Bool.and_eq_true, Bool.not_eq_true', List.elem_eq_mem, decide_eq_false_iff_not] at hs
  obtain ⟨before, op, after, hsplit, hx⟩ :=
    hb handle (List.mem_of_getElem? hh) hs.1 hs.2
  refine ⟨ho, ?_, handle, before, op, after, hh, hs.1, hsplit, hx⟩
  unfold s
  rw [run_overdueTakeover]
  decide +kernel

end Service

end ConnectionPool
