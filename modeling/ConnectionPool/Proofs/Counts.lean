import ConnectionPool.Proofs.Leases
import ConnectionPool.Proofs.Settlements

/-!
# Exact counts

Every lease begins with an acquisition that returned a handle, and it ends once: by a claim, by its
return, or by a reset. So the leases that have begun are those that run and those that have ended,
and as the tally counts beginnings, claims and bad connections when they happen, its counts can be
read off the journal. A return of a handle whose lease has ended before ends nothing a second time;
it only counts as bad. No count ever goes down.
-/

set_option autoImplicit false

namespace ConnectionPool

namespace Event

def ended? : Event → Option Entry
  | claimed _ e _ | returned e true _ | drained e true => some e
  | _ => none

def failed? : Event → Option Entry
  | examined _ e false _ _ => some e
  | _ => none

def returned? : Event → Option Entry
  | returned e _ _ => some e
  | _ => none

def late? : Event → Option Entry
  | returned e _ .superseded | returned e _ .invalidated => some e
  | _ => none

def givenBack? : Event → Option Entry
  | returned e true _ => some e
  | _ => none

def swept? : Event → Option Entry
  | drained e true => some e
  | _ => none

theorem ended_of_traffic (event : Event) (h : event.isTraffic = true) : event.ended? = none := by
  cases event <;> simp_all [isTraffic, ended?]

theorem failed_of_traffic (event : Event) (h : event.isTraffic = true) : event.failed? = none := by
  cases event <;> simp_all [isTraffic, failed?]

theorem returned_of_traffic (event : Event) (h : event.isTraffic = true) :
    event.returned? = none := by
  cases event <;> simp_all [isTraffic, returned?]

theorem late_of_traffic (event : Event) (h : event.isTraffic = true) : event.late? = none := by
  cases event <;> simp_all [isTraffic, late?]

end Event

theorem length_ended (journal : List Event) :
    (journal.filterMap Event.ended?).length =
      (journal.filterMap Event.claim?).length + (journal.filterMap Event.givenBack?).length +
        (journal.filterMap Event.swept?).length := by
  induction journal with
  | nil => rfl
  | cons event rest ih =>
    cases event with
    | claimed caller e held =>
      simp only [List.filterMap_cons, Event.ended?, Event.claim?, Event.givenBack?, Event.swept?,
        List.length_cons]
      omega
    | returned e lent status =>
      cases lent <;> simp only [List.filterMap_cons, Event.ended?, Event.claim?,
        Event.givenBack?, Event.swept?, List.length_cons] <;> omega
    | drained e lent =>
      cases lent <;> simp only [List.filterMap_cons, Event.ended?, Event.claim?,
        Event.givenBack?, Event.swept?, List.length_cons] <;> omega
    | _ => exact ih

/-- No count and no length of time of the first tally is greater than in the second. -/
structure Tally.Grown (t t' : Tally) : Prop where
  requests : t.requests ≤ t'.requests
  requestTime : t.requestTime ≤ t'.requestTime
  checkoutTime : t.checkoutTime ≤ t'.checkoutTime
  claimed : t.claimed ≤ t'.claimed
  claimedTime : t.claimedTime ≤ t'.claimedTime
  waits : t.waits ≤ t'.waits
  waitTime : t.waitTime ≤ t'.waitTime
  bad : t.bad ≤ t'.bad

namespace Tally.Grown

variable {t t' t'' : Tally}

theorem refl (t : Tally) : t.Grown t := by constructor <;> exact Nat.le_refl _

theorem trans (h : t.Grown t') (h' : t'.Grown t'') : t.Grown t'' where
  requests := Nat.le_trans h.requests h'.requests
  requestTime := Nat.le_trans h.requestTime h'.requestTime
  checkoutTime := Nat.le_trans h.checkoutTime h'.checkoutTime
  claimed := Nat.le_trans h.claimed h'.claimed
  claimedTime := Nat.le_trans h.claimedTime h'.claimedTime
  waits := Nat.le_trans h.waits h'.waits
  waitTime := Nat.le_trans h.waitTime h'.waitTime
  bad := Nat.le_trans h.bad h'.bad

theorem addRequest (time : Nat) (t : Tally) : t.Grown (t.addRequest time) := by
  constructor <;> simp [Tally.addRequest]

theorem addClaim (held : Nat) (t : Tally) : t.Grown (t.addClaim held) := by
  constructor <;> simp [Tally.addClaim]

theorem addCheckout (held : Nat) (t : Tally) : t.Grown (t.addCheckout held) := by
  constructor <;> simp [Tally.addCheckout]

theorem addWait (t : Tally) : t.Grown t.addWait := by
  constructor <;> simp [Tally.addWait]

theorem addWaitTime (time : Nat) (t : Tally) : t.Grown (t.addWaitTime time) := by
  constructor <;> simp [Tally.addWaitTime]

theorem addBad (t : Tally) : t.Grown t.addBad := by
  constructor <;> simp [Tally.addBad]

end Tally.Grown

structure Books.Counted (b : Books) (handles : List Handle) : Prop where
  requests : b.tally.requests = handles.length
  claimed : b.tally.claimed = (b.view Event.claim?).length
  bad : b.tally.bad = (b.view Event.failed?).length + (b.view Event.late?).length
  returned : (b.view Event.returned?).Perm ((handles.filter Handle.released).map Handle.entry)
  ended : (handles.map Handle.entry).Perm (b.active ++ b.view Event.ended?)

theorem Books.Turn.counted {now caller : Nat} {m m' : Option Entry × Books}
    {handles : List Handle} (h : Turn now caller m m') (k : m.2.Counted handles) :
    m'.2.Counted handles := by
  cases h with
  | pick b e rest hi | connect b hi hr | refuse b =>
    exact ⟨k.requests, k.claimed, k.bad, k.returned, k.ended⟩
  | claim b oldest rest hi hf ha hv | drop b oldest rest hi hf ha hv =>
    refine ⟨k.requests, congrArg (· + 1) k.claimed, k.bad, k.returned, ?_⟩
    have hp := k.ended
    rw [ha] at hp
    exact hp.trans List.perm_middle.symm
  | reject b e =>
    refine ⟨k.requests, k.claimed, ?_, k.returned, k.ended⟩
    have hk : b.tally.bad = (b.view Event.failed?).length + (b.view Event.late?).length := k.bad
    show b.tally.bad + 1 = (b.view Event.failed?).length + 1 + (b.view Event.late?).length
    omega

theorem Books.ended_drainAll (lent : Bool) (entries : List Entry) (b : Books) :
    (entries.foldr (drain lent) b).view Event.ended? =
      (if lent then entries else []) ++ b.view Event.ended? := by
  induction entries with
  | nil => cases lent <;> rfl
  | cons e rest ih =>
    cases lent with
    | true => exact congrArg (e :: ·) ih
    | false => exact ih

theorem filter_released_set {handles : List Handle} {i : Nat} {handle : Handle}
    (hh : handles[i]? = some handle) (hr : handle.released = false) :
    ((handles.set i { handle with released := true }).filter Handle.released).Perm
      ({ handle with released := true } :: handles.filter Handle.released) := by
  obtain ⟨hi, hget⟩ := List.getElem?_eq_some_iff.mp hh
  obtain ⟨front, back, hf, -, hset⟩ :=
    @List.exists_of_set _ i { handle with released := true } handles hi
  rw [hget] at hf
  have hfilter : handles.filter Handle.released =
      front.filter Handle.released ++ back.filter Handle.released := by
    rw [hf, List.filter_append, List.filter_cons_of_neg (by simp [hr])]
  rw [hset, hfilter, List.filter_append, List.filter_cons_of_pos rfl]
  exact List.perm_middle

namespace Pool

variable {σ : Type} {p : Pool σ} {handles : List Handle}

theorem late_takeOut (e : Entry) (p : Pool σ) :
    (p.books.takeOut e).view Event.late? =
      (if p.status e.id = .valid then [] else [e]) ++ p.books.view Event.late? := by
  show (p.books.note (.returned e (p.active.any fun a => a.id == e.id)
    (p.status e.id))).view Event.late? = _
  cases p.status e.id <;> rfl

theorem ended_takeOut {handle : Handle} (l : Ledger none p.books handles)
    (hm : handle ∈ handles) :
    (p.active ++ p.books.view Event.ended?).Perm
      ((p.books.takeOut handle.entry).active ++
        (p.books.takeOut handle.entry).view Event.ended?) := by
  show List.Perm _ ((p.active.eraseP fun a => a.id == handle.entry.id) ++
    (p.books.note (.returned handle.entry (p.active.any fun a => a.id == handle.entry.id)
      (p.status handle.entry.id))).view Event.ended?)
  cases hl : p.active.any fun a => a.id == handle.entry.id with
  | true =>
    obtain ⟨a, ha, hi⟩ := List.any_eq_true.mp hl
    have he : handle.entry ∈ p.active := l.mem_active_of_id ha hm (by simpa using hi)
    have herase : (p.active.eraseP fun a => a.id == handle.entry.id) =
        p.active.erase handle.entry := l.erase_lease hm
    rw [herase]
    exact ((List.perm_cons_erase he).append_right _).trans List.perm_middle.symm
  | false =>
    rw [List.eraseP_of_forall_not (List.any_eq_false.mp hl)]
    exact List.Perm.refl _

variable [Driver σ]

theorem counted_grant {now : Nat} {r : Request} {e : Entry} {q : Pool σ}
    (h : p.examine now r.caller e = (true, q)) (k : p.books.Counted handles) :
    (q.grant now r e).2.books.Counted
      (handles ++ [{ caller := r.caller, entry := (q.grant now r e).1 }]) := by
  have hx := examine_books now r.caller e true p q h
  have ht : q.tally = p.tally := congrArg Books.tally hx
  have ha : q.active = p.active := congrArg Books.active hx
  rw [books_grant, hx, ht, ha]
  refine ⟨?_, k.claimed, k.bad, ?_, ?_⟩
  · rw [List.length_append]
    exact congrArg (· + 1) k.requests
  · rw [List.filter_append, List.map_append]
    exact (List.append_nil _).symm ▸ k.returned
  · rw [List.map_append]
    show ((handles.map Handle.entry) ++ [(q.grant now r e).1]).Perm
      (p.active ++ [(q.grant now r e).1] ++ p.books.view Event.ended?)
    rw [List.append_assoc]
    refine (k.ended.append_right _).trans ?_
    rw [List.append_assoc]
    exact List.perm_append_comm.append_left p.active

theorem counted_takeBack {now i : Nat} {handle : Handle} (hh : handles[i]? = some handle)
    (hr : handle.released = false) (l : Ledger none p.books handles)
    (k : p.books.Counted handles) :
    (p.takeBack now handle.entry).2.books.Counted
      (handles.set i { handle with released := true }) := by
  have hlength : (handles.set i { handle with released := true }).length = handles.length :=
    List.length_set
  have hentries := map_released Handle.entry hh rfl
  have hreturned : ((p.books.takeOut handle.entry).view Event.returned?).Perm
      (((handles.set i { handle with released := true }).filter Handle.released).map
        Handle.entry) :=
    (k.returned.cons handle.entry).trans ((filter_released_set hh hr).map Handle.entry).symm
  have hended := k.ended.trans (ended_takeOut l (List.mem_of_getElem? hh))
  rw [← map_released Handle.entry hh rfl] at hended
  have hbad : p.tally.bad + (if p.status handle.entry.id = .valid then 0 else 1) =
      (p.books.view Event.failed?).length +
        ((p.books.takeOut handle.entry).view Event.late?).length := by
    have hk : p.tally.bad = _ := k.bad
    rw [late_takeOut, List.length_append, hk]
    split
    · rw [List.length_nil]
      omega
    · rw [List.length_singleton]
      omega
  refine p.takeBack_cases now handle.entry (motive := fun _ b =>
    b.Counted (handles.set i { handle with released := true })) ?retired ?kept ?closed
  case retired =>
    intro hv
    rw [if_neg hv] at hbad
    exact ⟨hlength.symm ▸ k.requests, k.claimed, hbad, hreturned, hended⟩
  case kept =>
    intro hv hk
    rw [if_pos hv] at hbad
    exact ⟨hlength.symm ▸ k.requests, k.claimed, hbad, hreturned, hended⟩
  case closed =>
    intro hv hk
    rw [if_pos hv] at hbad
    exact ⟨hlength.symm ▸ k.requests, k.claimed, hbad, hreturned, hended⟩

theorem counted_reset (k : p.books.Counted handles) : p.reset.books.Counted handles := by
  have ht : p.reset.tally = p.tally := (reset_rest p).2.2
  have hended : p.reset.books.view Event.ended? = p.active ++ p.books.view Event.ended? := by
    rw [books_reset, Books.ended_drainAll, Books.ended_drainAll]
    rfl
  refine ⟨?_, ?_, ?_, ?_, ?_⟩
  · show p.reset.tally.requests = _
    rw [ht]
    exact k.requests
  · show p.reset.tally.claimed = _
    rw [ht, view_reset fun _ _ => rfl]
    exact k.claimed
  · show p.reset.tally.bad = _
    rw [ht, view_reset fun _ _ => rfl, view_reset fun _ _ => rfl]
    exact k.bad
  · rw [view_reset fun _ _ => rfl]
    exact k.returned
  · show (handles.map Handle.entry).Perm (p.reset.active ++ _)
    rw [(reset_frame p).2.2.1, hended]
    exact k.ended

theorem counted_reconfigure (update : Config → Config) (k : p.books.Counted handles) :
    (p.reconfigure update).2.books.Counted handles := by
  have hc : { p with config := update p.config }.books.Counted handles :=
    ⟨k.requests, k.claimed, k.bad, k.returned, k.ended⟩
  exact p.reconfigure_cases update (motive := fun q => q.books.Counted handles) k (counted_reset hc)

theorem grown_takeBack (now : Nat) (e : Entry) (p : Pool σ) :
    p.tally.Grown (p.takeBack now e).2.tally :=
  p.takeBack_cases now e (motive := fun _ b => p.tally.Grown b.tally)
    (fun _ => .addBad _) (fun _ _ => .addCheckout _ _) (fun _ _ => .addCheckout _ _)

end Pool

theorem Books.Turn.grown {now caller : Nat} {m m' : Option Entry × Books}
    (h : Turn now caller m m') : m.2.tally.Grown m'.2.tally := by
  cases h with
  | pick b e rest hi | connect b hi hr | refuse b => exact .refl _
  | claim b oldest rest hi hf ha hv | drop b oldest rest hi hf ha hv => exact .addClaim _ _
  | reject b e => exact .addBad _

namespace Service

variable {σ : Type} {s s' : Service σ} {α : Type}

def seen (see : Event → Option α) (s : Service σ) : List α :=
  s.pool.backend.journal.filterMap see

theorem seen_books {see : Event → Option α}
    (hs : ∀ event, event.isTraffic = true → see event = none) (s : Service σ) :
    s.seen see = s.pool.books.view see :=
  Backend.filterMap_journal see hs s.pool.backend

def yields (s : Service σ) : List Entry := s.settlements.filterMap fun x => x.result.toOption

def Delivered (s : Service σ) : Prop := s.handles.map Handle.entry = s.yields.reverse

theorem Delivered.congr (d : s.Delivered)
    (hh : s'.handles.map Handle.entry = s.handles.map Handle.entry)
    (hs : s'.settlements = s.settlements) : s'.Delivered := by
  unfold Delivered yields at d ⊢
  rw [hh, hs, d]

theorem delivered_settle_error (d : s.Delivered) (r : Request) (error : PoolError) :
    (s.settle r (.error error)).Delivered := by
  unfold Delivered yields at d ⊢
  rw [settlements_settle, List.filterMap_cons]
  exact d

theorem delivered_settle_ok (d : s.Delivered) (r : Request) (e : Entry) :
    (s.settle r (.ok e)).Delivered := by
  unfold Delivered yields at d ⊢
  rw [settlements_settle, List.filterMap_cons]
  show (s.handles ++ [_]).map Handle.entry = (e :: _).reverse
  rw [List.map_append, d, List.reverse_cons]
  rfl

structure Counts (hand : Option Entry) (s : Service σ) : Prop where
  ledger : HasLedger hand s
  books : s.pool.books.Counted s.handles
  delivered : s.Delivered

variable [Driver σ]

theorem counts_move (m m' : Option Entry × Service σ) (h : Move m m') (k : Counts m.1 m.2) :
    Counts m'.1 m'.2 := by
  have c := k.books
  refine ⟨ledger_move m m' h k.ledger, ?_, ?_⟩
  · cases h with
    | mark s | come s | pass s | leave s => exact c
    | awake s x | sleep s r hs hc | fail s r error =>
      exact ⟨c.requests, c.claimed, c.bad, c.returned, c.ended⟩
    | countWait s r =>
      unfold countWait
      split
      · exact c
      · exact ⟨c.requests, c.claimed, c.bad, c.returned, c.ended⟩
    | turn s caller hand hand' q h => exact (Pool.turn_books h).counted c
    | grant s r e q h =>
      have g := Pool.counted_grant h c
      exact ⟨g.requests, g.claimed, g.bad, g.returned, g.ended⟩
    | takeBack s i handle hh hr => exact Pool.counted_takeBack hh hr k.ledger c
  · have d := k.delivered
    cases h with
    | mark s | come s | pass s | leave s | awake s x | sleep s r hs hc => exact d
    | countWait s r =>
      unfold countWait
      split <;> exact d
    | fail s r error => exact delivered_settle_error d r error
    | turn s caller hand hand' q h =>
      refine d.congr rfl ?_
      rw [settlements_books, settlements_books]
      exact (Pool.turn_books h).view Event.settlement_of_booking
    | grant s r e q h =>
      refine delivered_settle_ok (s := { s with pool := (q.grant s.now r e).2 }) ?_ r _
      refine d.congr rfl ?_
      rw [settlements_books, settlements_books]
      exact (Pool.settlements_grant s.now r e q).trans
        (Pool.view_examine Event.settlement_of_booking s.now r.caller e true s.pool q h)
    | takeBack s i handle hh hr =>
      refine d.congr (map_released Handle.entry hh rfl) ?_
      rw [settlements_books, settlements_books]
      exact Pool.settlements_takeBack s.now handle.entry s.pool

theorem counts_command (op : Op σ) (s s' : Service σ) (h : Command op s s')
    (k : Counts none s) : Counts none s' := by
  have hs := settlements_command op s s' h
  refine ⟨ledger_command op s s' h k.ledger, ?_, ?_⟩
  · have c := k.books
    cases h with
    | meddle s f => exact ⟨c.requests, c.claimed, c.bad, c.returned, c.ended⟩
    | issueToken s hl => exact c
    | reset s hl | shutDown s hl hw => exact Pool.counted_reset c
    | reconfigure s update hl => exact Pool.counted_reconfigure update c
  · cases h with
    | meddle s f | issueToken s hl | reset s hl | reconfigure s update hl | shutDown s hl hw =>
      exact k.delivered.congr rfl hs

theorem counts_forward (s : Service σ) (i : Nat) (c : Call) (k : Counts none s) :
    Counts none (s.forward i c).2 := by
  obtain ⟨hs, hb⟩ := forward_cases s i c
  have hh : (s.forward i c).2.handles = s.handles := by rw [hs]
  have b := k.books
  refine ⟨ledger_forward s i c k.ledger, ?_, ?_⟩
  · rw [hh]
    rcases hb with hb | ⟨handle, error, -, -, -, -, hb⟩ <;> rw [hb]
    · exact b
    · exact ⟨b.requests, b.claimed, b.bad, b.returned, b.ended⟩
  · exact k.delivered.congr (congrArg (List.map Handle.entry) hh) (settlements_forward s i c)

theorem counts_run (ops : List (Op σ)) (s : Service σ) (k : Counts none s) :
    Counts none (run ops s) :=
  run_keeps Counts counts_move (fun s i c _ => counts_forward s i c) ops
    (fun op _ => counts_command op) s k

theorem grown_move (m m' : Option Entry × Service σ) (h : Move m m') :
    m.2.pool.tally.Grown m'.2.pool.tally := by
  cases h with
  | mark s | come s | pass s | leave s | sleep s r hs hc | fail s r error => exact .refl _
  | awake s x => exact .addWaitTime _ _
  | countWait s r =>
    unfold countWait
    split
    · exact .refl _
    · exact .addWait _
  | turn s caller hand hand' q h => exact (Pool.turn_books h).grown
  | grant s r e q h =>
    have ht : q.tally = s.pool.tally :=
      congrArg Books.tally (Pool.examine_books s.now r.caller e true s.pool q h)
    have hg : (q.grant s.now r e).2.tally = q.tally.addRequest (s.now - r.startedAt) :=
      congrArg Books.tally (Pool.books_grant s.now r e q)
    show s.pool.tally.Grown (q.grant s.now r e).2.tally
    rw [hg, ht]
    exact .addRequest _ _
  | takeBack s i handle hh hr => exact Pool.grown_takeBack s.now handle.entry s.pool

theorem tally_command (op : Op σ) (s s' : Service σ) (h : Command op s s') :
    s'.pool.tally = s.pool.tally := by
  cases h with
  | meddle s f | issueToken s hl => rfl
  | reset s hl | shutDown s hl hw => exact (Pool.reset_rest s.pool).2.2
  | reconfigure s update hl =>
    exact s.pool.reconfigure_cases update (motive := fun q => q.tally = s.pool.tally) rfl
      (Pool.reset_rest { s.pool with config := update s.pool.config }).2.2

theorem tally_forward (s : Service σ) (i : Nat) (c : Call) :
    (s.forward i c).2.pool.tally = s.pool.tally := by
  rcases (forward_cases s i c).2 with hb | ⟨handle, error, -, -, -, -, hb⟩ <;>
    exact congrArg Books.tally hb

theorem grown_run (ops : List (Op σ)) (s : Service σ) :
    s.pool.tally.Grown (run ops s).pool.tally := by
  refine run_keeps (fun _ u => s.pool.tally.Grown u.pool.tally) ?_ ?_ ops ?_ s (.refl _)
  · exact fun m m' h hg => hg.trans (grown_move m m' h)
  · exact fun u i c _ hg => (tally_forward u i c).symm ▸ hg
  · exact fun op _ u u' h hg => (tally_command op u u' h).symm ▸ hg

/-- What the counts of the tally say about the past. -/
structure Exact (s : Service σ) : Prop where
  requests : s.pool.tally.requests = s.yields.length
  handles : s.handles.map Handle.entry = s.yields.reverse
  bad : s.pool.tally.bad = (s.seen Event.failed?).length + (s.seen Event.late?).length
  returned : (s.seen Event.returned?).Perm ((s.handles.filter Handle.released).map Handle.entry)
  claimed : s.pool.tally.claimed = s.claims.length
  balance : s.pool.tally.requests = s.pool.active.length + s.pool.tally.claimed +
    (s.seen Event.givenBack?).length + (s.seen Event.swept?).length
  ended : (s.handles.map Handle.entry).Perm (s.pool.active ++ s.seen Event.ended?)
  once : (s.pool.active ++ s.seen Event.ended?).Nodup

omit [Driver σ] in
theorem exact_of_counts (s : Service σ) (k : Counts none s) : s.Exact := by
  have b := k.books
  have hrequests : s.pool.tally.requests = s.handles.length := b.requests
  have hclaims : s.pool.tally.claimed = s.claims.length := by
    rw [claims_books]
    exact b.claimed
  have hended : (s.handles.map Handle.entry).Perm (s.pool.active ++ s.seen Event.ended?) := by
    rw [seen_books Event.ended_of_traffic]
    exact b.ended
  refine ⟨?_, k.delivered, ?_, ?_, hclaims, ?_, hended, ?_⟩
  · rw [hrequests, ← List.length_map (f := Handle.entry), k.delivered, List.length_reverse]
  · rw [seen_books Event.failed_of_traffic, seen_books Event.late_of_traffic]
    exact b.bad
  · rw [seen_books Event.returned_of_traffic]
    exact b.returned
  · have hl := hended.length_eq
    have hways : (s.seen Event.ended?).length = s.claims.length +
        (s.seen Event.givenBack?).length + (s.seen Event.swept?).length :=
      length_ended s.pool.backend.journal
    rw [List.length_map, List.length_append] at hl
    omega
  · have hids : ((s.handles.map Handle.entry).map Entry.id).Nodup := by
      rw [List.map_map]
      exact k.ledger.handle_ids_nodup
    exact hended.nodup_iff.mp hids.of_map

/-- After every run of every pool the counts are exact and each lease has ended at most once, and no
count is less after any continuation of the run, whatever the driver answers. -/
theorem exactness_run (driver : σ) (config : Config) (pool : Pool σ)
    (h : Pool.create driver config = .ok pool) (before after : List (Op σ)) :
    (run before (start pool)).Exact ∧
      (run before (start pool)).pool.tally.Grown
        (run (before ++ after) (start pool)).pool.tally := by
  have k : Counts none (start pool) := by
    refine ⟨ledger_start driver config pool h, ?_, ?_⟩ <;>
      rw [Pool.of_create driver config pool h]
    · exact ⟨rfl, rfl, rfl, List.Perm.nil, List.Perm.nil⟩
    · rfl
  constructor
  · exact exact_of_counts _ (counts_run before _ k)
  · rw [run_append]
    exact grown_run after _

/-- Of four leases one is claimed, one given up by a reset and one returned in time; the holders of
the first two come late, and the connection of the third breaks before it is lent again. -/
def leaseEndings : List (Op Scripted) :=
  overdueTakeover ++ [.release 0, .reset, .release 1, .acquire .plain, .release 2,
    .meddle (Scripted.act (.sever 1)), .acquire .plain]

theorem exactness_leaseEndings :
    let s := run leaseEndings (start (Pool.unused ({} : Scripted) Config.single))
    s.Exact ∧
      (run overdueTakeover (start (Pool.unused ({} : Scripted) Config.single))).pool.tally.Grown
        s.pool.tally ∧
      s.pool.tally.requests = 4 ∧ s.pool.tally.claimed = 1 ∧ s.pool.tally.bad = 3 ∧
      s.pool.active.length = 1 := by
  intro s
  obtain ⟨hx, -⟩ := exactness_run ({} : Scripted) Config.single (Pool.unused {} Config.single) rfl
    leaseEndings []
  obtain ⟨-, hg⟩ := exactness_run ({} : Scripted) Config.single (Pool.unused {} Config.single) rfl
    overdueTakeover (leaseEndings.drop overdueTakeover.length)
  refine ⟨hx, hg, ?_⟩
  unfold s
  rw [leaseEndings, run_append, run_overdueTakeover]
  decide +kernel

end Service

end ConnectionPool
