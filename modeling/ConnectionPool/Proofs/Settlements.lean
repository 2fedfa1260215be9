import ConnectionPool.Proofs.Views
import Mathlib.Data.List.Infix

/-!
# Settlements

The journal tells how every acquisition ended. Turns and returns settle nothing, a granted or failed
search settles its own acquisition, and what is settled stays settled.
-/

set_option autoImplicit false

namespace ConnectionPool

structure Settlement where
  caller : Nat
  instant : Nat
  result : Except PoolError Entry

/-- The acquisition got no connection, and not because its token was cancelled. -/
def Settlement.Failed (x : Settlement) : Prop :=
  ∃ error, x.result = .error error ∧ error ≠ .interrupted

def Event.settlement? : Event → Option Settlement
  | settled caller instant result => some ⟨caller, instant, result⟩
  | connect _ _ | call _ _ _ | examined _ _ _ _ _ | claimed _ _ _ | granted _ _ => none
  | returned _ _ _ | shelved _ | drained _ _ | slept _ | woke _ _ => none

def Books.settlements (b : Books) : List Settlement :=
  b.record.decisions.filterMap Event.settlement?

theorem Event.settlement_of_booking (event : Event) (h : event.isBooking = true) :
    event.settlement? = none := by
  cases event <;> simp_all [isBooking, settlement?]

namespace Pool

variable {σ : Type} [Driver σ]

theorem settlements_grant (now : Nat) (r : Request) (e : Entry) (p : Pool σ) :
    (p.grant now r e).2.books.settlements = p.books.settlements := by
  rw [books_grant]
  rfl

theorem settlements_takeBack (now : Nat) (e : Entry) (p : Pool σ) :
    (p.takeBack now e).2.books.settlements = p.books.settlements :=
  view_takeBack Event.settlement_of_booking now e p

theorem settlements_seek (now : Nat) (r : Request) (p : Pool σ) :
    (p.seek now r).2.books.settlements = p.books.settlements := by
  have he := seek_ends now r p
  generalize p.seek now r = found at he ⊢
  obtain ⟨outcome, q⟩ := found
  cases outcome with
  | granted lent =>
    obtain ⟨e, p₁, p₂, ht, hx, hg⟩ := he
    obtain ⟨-, rfl⟩ := Prod.mk.inj hg
    exact (settlements_grant now r e p₂).trans
      ((view_examine Event.settlement_of_booking now r.caller e true p₁ p₂ hx).trans
        (view_turns Event.settlement_of_booking ht))
  | failed error => exact view_turns Event.settlement_of_booking he.1
  | saturated r' => exact view_turns Event.settlement_of_booking he.1

end Pool

namespace Service

variable {σ : Type}

def settlements (s : Service σ) : List Settlement :=
  s.pool.backend.journal.filterMap Event.settlement?

theorem settlements_books (s : Service σ) : s.settlements = s.pool.books.settlements := by
  refine Backend.filterMap_journal Event.settlement? ?_ s.pool.backend
  intro event h
  cases event <;> first | rfl | exact absurd h (by simp [Event.isTraffic])

theorem settlements_settle (r : Request) (result : Except PoolError Entry) (s : Service σ) :
    (s.settle r result).settlements = ⟨r.caller, s.now, result⟩ :: s.settlements := by
  cases result <;> rfl

theorem settlements_countWait (r : Request) (s : Service σ) :
    (s.countWait r).settlements = s.settlements := by
  unfold countWait
  split <;> rfl

variable [Driver σ]

theorem settlements_forward (s : Service σ) (i : Nat) (c : Call) :
    (s.forward i c).2.settlements = s.settlements := by
  rw [settlements_books, settlements_books]
  exact view_forward s i c

theorem settlements_move (m m' : Option Entry × Service σ) (h : Move m m') :
    m.2.settlements <:+ m'.2.settlements := by
  have heq {s s' : Service σ} (h : s'.pool.books.settlements = s.pool.books.settlements) :
      s.settlements <:+ s'.settlements := by
    rw [settlements_books, settlements_books, h]
  cases h with
  | mark s | come s | pass s | leave s => exact heq rfl
  | awake s x | sleep s r hs hc => exact heq rfl
  | countWait s r =>
    show s.settlements <:+ (s.countWait r).settlements
    rw [settlements_countWait]
  | fail s r error =>
    show s.settlements <:+ (s.settle r (.error error)).settlements
    rw [settlements_settle]
    exact List.suffix_cons _ _
  | turn s caller hand hand' q h =>
    exact heq ((Pool.turn_books h).view Event.settlement_of_booking)
  | grant s r e q h =>
    have hp : s.settlements <:+ { s with pool := (q.grant s.now r e).2 }.settlements :=
      heq ((Pool.settlements_grant s.now r e q).trans
        (Pool.view_examine Event.settlement_of_booking s.now r.caller e true s.pool q h))
    exact hp.trans (List.suffix_cons _ _)
  | takeBack s i handle hh hr => exact heq (Pool.settlements_takeBack s.now handle.entry s.pool)

theorem settlements_command (op : Op σ) (s s' : Service σ) (h : Command op s s') :
    s'.settlements = s.settlements := by
  rw [settlements_books, settlements_books]
  exact view_command (fun e lent => Event.settlement_of_booking (.drained e lent) rfl) op s s' h

theorem settlements_moves {m m' : Option Entry × Service σ} (h : Moves m m') :
    m.2.settlements <:+ m'.2.settlements := by
  induction h with
  | refl => exact List.suffix_rfl
  | tail _ hm ih => exact ih.trans (settlements_move _ _ hm)

end Service

end ConnectionPool
