import ConnectionPool.Config.Basic
import ConnectionPool.Journal

/-!
# The driver behind a pool

A backend is the driver's state with the number of connections opened so far, which is the channel
of the next one, and the journal, newest event first. Besides single calls it has the three
sequences that a pool uses: undoing what is left of a transaction, closing, and checking that a
connection is alive. Errors in the first two change nothing in how the pool goes on.
-/

set_option autoImplicit false

namespace ConnectionPool

structure Backend (σ : Type) where
  driver : σ
  opened : Nat := 0
  journal : List Event := []

namespace Backend

variable {σ : Type}

def note (event : Event) (b : Backend σ) : Backend σ :=
  { b with journal := event :: b.journal }

variable [Driver σ]

def connect (login : Login) (b : Backend σ) : Except DriverError Nat × Backend σ :=
  match Driver.connect login b.driver with
  | (.ok _, driver) =>
    (.ok b.opened,
      { b with
        driver
        opened := b.opened + 1
        journal := .connect login (.ok b.opened) :: b.journal })
  | (.error e, driver) =>
    (.error e, { b with driver, journal := .connect login (.error e) :: b.journal })

def call (channel : Nat) (c : Call) (b : Backend σ) : Reply c × Backend σ :=
  let (reply, driver) := Driver.answer channel c b.driver
  (reply, { b with driver, journal := .call channel c reply :: b.journal })

/-- Rolls back unless the connection commits by itself or does not say. -/
def undo (channel : Nat) (b : Backend σ) : Backend σ :=
  match b.call channel .autoCommit with
  | (.ok false, b) => (b.call channel .rollback).2
  | (_, b) => b

/-- Undoes, then closes a connection that does not report itself closed. -/
def close (channel : Nat) (b : Backend σ) : Backend σ :=
  match (b.undo channel).call channel .isClosed with
  | (.ok true, b) => b
  | (_, b) => (b.call channel .close).2

/-- Executes the query and undoes its transaction; every answer on the way has to be good. -/
def ping (channel : Nat) (query : String) (b : Backend σ) : Bool × Backend σ :=
  match b.call channel (.execute query) with
  | (.error _, b) => (false, b)
  | (.ok _, b) =>
    match b.call channel .autoCommit with
    | (.error _, b) => (false, b)
    | (.ok true, b) => (true, b)
    | (.ok false, b) =>
      match b.call channel .rollback with
      | (.error _, b) => (false, b)
      | (.ok _, b) => (true, b)

/-- Whether the connection is alive: it reports itself open and, if a query is given, passes the
ping. A connection that fails the ping is closed. -/
def probe (channel : Nat) (query : Option String) (b : Backend σ) : Bool × Backend σ :=
  match b.call channel .isClosed with
  | (.ok false, b) =>
    match query with
    | none => (true, b)
    | some query =>
      match b.ping channel query with
      | (true, b) => (true, b)
      | (false, b) => (false, (b.call channel .close).2)
  | (_, b) => (false, b)

end Backend

end ConnectionPool
