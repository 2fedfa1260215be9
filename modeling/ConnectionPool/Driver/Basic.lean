/-!
# Drivers

A driver opens connections and answers calls on them. The pool sees nothing else of it: a driver
is any state with these two transitions, and its answers are not assumed to follow a rule. A
connection is named by its channel, which is the number of connections that were opened before it.
-/

set_option autoImplicit false

namespace ConnectionPool

inductive DriverError where
  | connect (reason : String)
  | closed
  | io (reason : String)
  | statement (reason : String)
  | transaction (reason : String)
  | timeout
  | invalidated
  deriving DecidableEq, Repr

namespace DriverError

def message : DriverError → String
  | connect reason => "connection refused: " ++ reason
  | closed => "connection closed"
  | io reason => "IO error: " ++ reason
  | statement reason => "statement failed: " ++ reason
  | transaction reason => "transaction error: " ++ reason
  | timeout => "operation timed out"
  | invalidated =>
    "connection handle is invalid: it was returned to or reclaimed by the pool"

/-- After a fatal error the connection is of no further use. An error of a statement or of a
transaction leaves it usable. -/
def isFatal : DriverError → Bool
  | closed | io _ | timeout => true
  | connect _ | statement _ | transaction _ | invalidated => false

end DriverError

structure Credentials where
  username : String
  password : String
  deriving DecidableEq, Repr

structure Login where
  url : String
  credentials : Credentials
  deriving DecidableEq, Repr

inductive Call where
  | isClosed
  | close
  | autoCommit
  | setAutoCommit (enabled : Bool)
  | commit
  | rollback
  | execute (sql : String)
  deriving DecidableEq, Repr

abbrev Call.Value : Call → Type
  | .isClosed | .autoCommit => Bool
  | .execute _ => Nat
  | .close | .setAutoCommit _ | .commit | .rollback => Unit

abbrev Reply (c : Call) := Except DriverError c.Value

class Driver (σ : Type) where
  connect : Login → σ → Except DriverError Unit × σ
  answer : Nat → (c : Call) → σ → Reply c × σ

end ConnectionPool
