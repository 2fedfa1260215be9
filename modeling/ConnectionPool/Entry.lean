import ConnectionPool.Text.Record
import ConnectionPool.Time

/-!
# Entries

A link is an open connection as a pool knows it: its number, counted from one in the order in
which the pool opened its connections, and the driver's channel. An entry wraps a link for one stay,
idle or lent, and has a number of its own. When the link moves on, to another holder or back to the
idle set, it gets a new entry and the old one is superseded, so whoever still holds the old entry
can do nothing with it. An entry whose link is given up is invalidated.
-/

set_option autoImplicit false

namespace ConnectionPool

structure Link where
  number : Nat
  channel : Nat
  deriving DecidableEq, Repr

inductive Status where
  | valid
  | superseded
  | invalidated
  deriving DecidableEq, Repr

def Status.name : Status → String
  | valid => "Valid"
  | superseded => "Superseded"
  | invalidated => "Invalidated"

structure Entry where
  id : Nat
  link : Link
  typeCode : UInt64
  createdAt : Nat
  lastUsedAt : Nat
  checkoutAt : Nat
  deriving DecidableEq, Repr

namespace Entry

def channel (e : Entry) : Nat := e.link.channel

def heldFor (now : Nat) (e : Entry) : Nat := now - e.checkoutAt

def unusedFor (now : Nat) (e : Entry) : Nat := now - e.lastUsedAt

def age (now : Nat) (e : Entry) : Nat := now - e.createdAt

def fresh (id : Nat) (link : Link) (now : Nat) : Entry where
  id := id
  link := link
  typeCode := 0
  createdAt := now
  lastUsedAt := now
  checkoutAt := now

/-- The entry that takes over the link, with its history. -/
def successor (id : Nat) (e : Entry) : Entry := { e with id }

def lent (typeCode : UInt64) (now : Nat) (e : Entry) : Entry :=
  { e with typeCode, checkoutAt := now, lastUsedAt := now }

def text (status : Status) (e : Entry) : String :=
  Text.openRecord "PoolEntry" [
    ⟨"id", toString e.id⟩,
    ⟨"connection_id", toString e.link.number⟩,
    ⟨"status", status.name⟩,
    ⟨"type_code", toString e.typeCode⟩]

end Entry

end ConnectionPool
