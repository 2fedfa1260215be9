import ConnectionPool.Proofs.Moves

/-!
# Views of the journal

A view picks from the journal what it is interested in. Turns, returns and resets write bookings
only, about candidates, claims, returns and what a reset gives up. So a view that sees no bookings
looks the same after them, and after a command if it does not see what a reset gives up. A call that
is passed on writes no decision at all.
-/

set_option autoImplicit false

namespace ConnectionPool

def Event.isBooking : Event → Bool
  | examined _ _ _ _ _ | claimed _ _ _ | returned _ _ _ | shelved _ | drained _ _ => true
  | connect _ _ | call _ _ _ | granted _ _ | slept _ | woke _ _ | settled _ _ _ => false

namespace Books

variable {α : Type} (see : Event → Option α)

def view (b : Books) : List α := b.record.decisions.filterMap see

variable {see}

theorem view_note {event : Event} (h : see event = none) (b : Books) :
    (b.note event).view see = b.view see := by
  simp [view, note, Record.note, h]

theorem view_drainAll (hd : ∀ e lent, see (.drained e lent) = none) (lent : Bool)
    (entries : List Entry) (b : Books) :
    (entries.foldr (drain lent) b).view see = b.view see := by
  induction entries with
  | nil => rfl
  | cons e rest ih => exact (view_note (hd e lent) (rest.foldr (drain lent) b)).trans ih

theorem Turn.view (hs : ∀ event, event.isBooking = true → see event = none) {now caller : Nat}
    {m m' : Option Entry × Books} (h : Turn now caller m m') :
    m'.2.view see = m.2.view see := by
  cases h with
  | pick b e rest hi | connect b hi hr | refuse b => rfl
  | claim b oldest rest hi hf ha hv | drop b oldest rest hi hf ha hv =>
    exact view_note (hs (.claimed caller oldest (oldest.heldFor now)) rfl) b
  | reject b e => exact view_note (hs (.examined caller e false _ _) rfl) b

end Books

namespace Pool

variable {σ : Type} [Driver σ] {α : Type} {see : Event → Option α}

theorem view_reset (hd : ∀ e lent, see (.drained e lent) = none) (p : Pool σ) :
    p.reset.books.view see = p.books.view see := by
  rw [books_reset, Books.view_drainAll hd, Books.view_drainAll hd]
  rfl

theorem view_reconfigure (hd : ∀ e lent, see (.drained e lent) = none) (update : Config → Config)
    (p : Pool σ) : (p.reconfigure update).2.books.view see = p.books.view see :=
  p.reconfigure_cases update (motive := fun q => q.books.view see = p.books.view see) rfl
    (view_reset hd { p with config := update p.config })

variable (hs : ∀ event, event.isBooking = true → see event = none)
include hs

theorem view_turns {now caller : Nat} {m m' : Option Entry × Pool σ}
    (h : Turns now caller m m') : m'.2.books.view see = m.2.books.view see := by
  induction h with
  | refl => rfl
  | tail _ ht ih => exact ((turn_books ht).view hs).trans ih

theorem view_examine (now caller : Nat) (e : Entry) (sound : Bool) (p q : Pool σ)
    (h : p.examine now caller e = (sound, q)) : q.books.view see = p.books.view see := by
  rw [examine_books now caller e sound p q h]
  exact Books.view_note (hs _ rfl) p.books

theorem view_takeBack (now : Nat) (e : Entry) (p : Pool σ) :
    (p.takeBack now e).2.books.view see = p.books.view see := by
  have ht : (p.books.takeOut e).view see = p.books.view see := Books.view_note (hs _ rfl) p.books
  refine p.takeBack_cases now e (motive := fun _ b => b.view see = p.books.view see)
    ?retired ?kept ?closed
  case retired => exact fun _ => ht
  case kept =>
    intro hv hk
    exact (Books.view_note (hs (.shelved (e.successor p.nextEntry)) rfl)
      ((p.books.takeOut e).retire e.id .superseded)).trans ht
  case closed => exact fun _ _ => ht

end Pool

namespace Service

variable {σ : Type} [Driver σ] {α : Type} {see : Event → Option α}

theorem view_command (hd : ∀ e lent, see (.drained e lent) = none) (op : Op σ)
    (s s' : Service σ) (h : Command op s s') :
    s'.pool.books.view see = s.pool.books.view see := by
  cases h with
  | meddle s f | issueToken s hl => rfl
  | reset s hl | shutDown s hl hw => exact Pool.view_reset hd s.pool
  | reconfigure s update hl => exact Pool.view_reconfigure hd update s.pool

theorem view_forward (s : Service σ) (i : Nat) (c : Call) :
    (s.forward i c).2.pool.books.view see = s.pool.books.view see := by
  rcases (forward_cases s i c).2 with hb | ⟨handle, error, -, -, -, -, hb⟩
  · rw [hb]
  · rw [hb]
    rfl

end Service

end ConnectionPool
