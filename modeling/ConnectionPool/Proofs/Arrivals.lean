import ConnectionPool.Proofs.Custody
import ConnectionPool.Proofs.Dealings
import ConnectionPool.Proofs.Views

/-!
# Arrivals

A connection arrives when it is lent and when it is put into the idle set. Whichever way it came,
it was held until then and its transaction has just been undone; a pool does nothing else by which a
connection arrives. So what is to be shown of every arrival, with regard to all that happened before
it, has to be shown of the connections held and of what undoing leaves in the journal.
-/

set_option autoImplicit false

namespace ConnectionPool

/-- At each arrival the connection and what the journal held before satisfy `A`. -/
def EachArrival (A : Nat → List Event → Prop) : List Event → Prop
  | [] => True
  | event :: older =>
    (∀ channel, event.arrival? = some channel → A channel older) ∧ EachArrival A older

namespace EachArrival

variable {A : Nat → List Event → Prop} {journal older : List Event}

theorem of_append (newer : List Event) (h : EachArrival A (newer ++ older)) :
    EachArrival A older := by
  induction newer with
  | nil => exact h
  | cons event newer ih => exact ih h.2

theorem split {newer : List Event} {event : Event} {channel : Nat}
    (h : EachArrival A (newer ++ event :: older)) (he : event.arrival? = some channel) :
    A channel older :=
  (of_append newer h).1 channel he

theorem cons (h : EachArrival A older) {event : Event} (he : event.arrival? = none) :
    EachArrival A (event :: older) :=
  ⟨fun channel hc => absurd (he.symm.trans hc) (by simp), h⟩

theorem arrive (h : EachArrival A older) {event : Event} {channel : Nat}
    (he : event.arrival? = some channel) (ha : A channel older) :
    EachArrival A (event :: older) :=
  ⟨fun _ hc => Option.some.inj (he.symm.trans hc) ▸ ha, h⟩

theorem append (h : EachArrival A older) (newer : List Event)
    (hn : ∀ event ∈ newer, event.arrival? = none) : EachArrival A (newer ++ older) := by
  induction newer with
  | nil => exact h
  | cons event newer ih =>
    exact (ih fun x hx => hn x (List.mem_cons_of_mem event hx)).cons (hn event List.mem_cons_self)

theorem of_view (h : EachArrival A older) (hs : older <:+ journal)
    (hv : journal.filterMap Event.arrival? = older.filterMap Event.arrival?) :
    EachArrival A journal := by
  obtain ⟨newer, rfl⟩ := hs
  rw [List.filterMap_append] at hv
  exact h.append newer (List.filterMap_eq_nil_iff.mp (List.append_left_eq_self.mp hv))

theorem talk {σ : Type} {channel : Nat} {talk : List Event} {b b' : Backend σ}
    (h : EachArrival A b.journal) (t : b.Talk channel talk b') : EachArrival A b'.journal := by
  rw [t.journal]
  exact h.append talk t.no_arrival

end EachArrival

theorem Event.arrival_of_traffic (event : Event) (h : event.isTraffic = true) :
    event.arrival? = none := by
  cases event <;> simp_all [isTraffic, arrival?]

theorem Books.Turn.arrivals {now caller : Nat} {m m' : Option Entry × Books}
    (h : Turn now caller m m') : m'.2.view Event.arrival? = m.2.view Event.arrival? := by
  cases h <;> rfl

namespace Pool

variable {σ : Type} {A : Nat → List Event → Prop} {p q : Pool σ}

theorem eachArrival_of_view (ha : EachArrival A p.backend.journal)
    (hs : p.backend.journal <:+ q.backend.journal)
    (hv : q.books.view Event.arrival? = p.books.view Event.arrival?) :
    EachArrival A q.backend.journal := by
  refine ha.of_view hs ?_
  rw [Backend.filterMap_journal _ Event.arrival_of_traffic,
    Backend.filterMap_journal _ Event.arrival_of_traffic]
  exact hv

variable [Driver σ]

theorem eachArrival_grant {now : Nat} {r : Request} {e : Entry}
    (h : p.examine now r.caller e = (true, q)) (hu : A e.channel (q.backend.undo e.channel).journal)
    (ha : EachArrival A p.backend.journal) :
    EachArrival A (q.grant now r e).2.backend.journal := by
  obtain ⟨query, probed, hp, hb⟩ := backend_examine now r.caller e true p q h
  obtain ⟨before, t₁, -⟩ := Backend.talk_probe e.channel query p.backend
  obtain ⟨talk, t₂, -⟩ := Backend.talk_undo e.channel q.backend
  rw [hp] at t₁
  have hq : EachArrival A q.backend.journal := by
    rw [hb]
    exact (ha.talk t₁).cons rfl
  rw [backend_grant]
  exact (hq.talk t₂).arrive rfl hu

theorem eachArrival_takeBack (now : Nat) (e : Entry)
    (hu : p.status e.id = .valid → ∀ b : Backend σ, A e.channel (b.undo e.channel).journal)
    (ha : EachArrival A p.backend.journal) :
    EachArrival A (p.takeBack now e).2.backend.journal := by
  have hr : EachArrival A (p.backend.note (p.returnEvent e)).journal := ha.cons rfl
  have hc : EachArrival A ((p.backend.note (p.returnEvent e)).close e.channel).journal := by
    obtain ⟨talk, t, -⟩ := Backend.talk_close e.channel (p.backend.note (p.returnEvent e))
    exact hr.talk t
  rw [backend_takeBack]
  cases hs : p.status e.id with
  | superseded => exact hr
  | invalidated => exact hc
  | valid =>
    dsimp only
    split
    · obtain ⟨talk, t, -⟩ := Backend.talk_undo e.channel (p.backend.note (p.returnEvent e))
      exact (hr.talk t).arrive rfl (hu hs _)
    · exact hc

end Pool

namespace Service

variable {σ : Type} [Driver σ] {A : Nat → List Event → Prop}

theorem eachArrival_move (m m' : Option Entry × Service σ) (h : Move m m')
    (v : HasProvenance m.1 m.2)
    (hu : ∀ e ∈ m.2.pool.books.held m.1, ∀ b : Backend σ, A e.channel (b.undo e.channel).journal)
    (ha : EachArrival A m.2.pool.backend.journal) : EachArrival A m'.2.pool.backend.journal := by
  cases h with
  | mark s | come s | pass s | leave s => exact ha
  | awake s x | sleep s r hs hc | fail s r error => exact ha.cons rfl
  | countWait s r =>
    unfold countWait
    split <;> exact ha
  | turn s caller hand hand' q h =>
    have hs := journal_move _ _ (.turn s caller hand hand' q h) v
    exact Pool.eachArrival_of_view ha hs (Pool.turn_books h).arrivals
  | grant s r e q h => exact (Pool.eachArrival_grant h (hu e List.mem_cons_self _) ha).cons rfl
  | takeBack s i handle hh hr =>
    refine Pool.eachArrival_takeBack s.now handle.entry (fun hv => ?_) ha
    exact hu handle.entry
      (List.mem_append_right s.pool.idle (v.running handle (List.mem_of_getElem? hh) hv))

theorem eachArrival_command (op : Op σ) (s s' : Service σ) (h : Command op s s')
    (v : s.HasProvenance none) (ha : EachArrival A s.pool.backend.journal) :
    EachArrival A s'.pool.backend.journal := by
  have hd : ∀ e lent, (Event.drained e lent).arrival? = none := fun _ _ => rfl
  exact Pool.eachArrival_of_view ha (journal_command op s s' h v) (view_command hd op s s' h)

theorem eachArrival_forward (s : Service σ) (i : Nat) (c : Call) (hc : c ≠ .close)
    (v : s.HasProvenance none) (ha : EachArrival A s.pool.backend.journal) :
    EachArrival A (s.forward i c).2.pool.backend.journal :=
  Pool.eachArrival_of_view ha (journal_forward s i c hc v) (view_forward s i c)

end Service

end ConnectionPool
