import ConnectionPool.Entry
import ConnectionPool.Error

/-!
# Journal

What a pool did, event by event: what it asked of the driver and was answered, what it decided
about candidates and leases, and how each caller fared. Callers are numbered in the order in which
they came.
-/

set_option autoImplicit false

namespace ConnectionPool

inductive Event where
  | connect (login : Login) (result : Except DriverError Nat)
  | call (channel : Nat) (call : Call) (reply : Reply call)
  /-- A caller examined a candidate. Beside it the pool held `others` connections, idle or active,
  and `limit` could be active. -/
  | examined (caller : Nat) (entry : Entry) (sound : Bool) (others limit : Nat)
  | claimed (caller : Nat) (entry : Entry) (held : Nat)
  | granted (caller : Nat) (entry : Entry)
  /-- A handle was returned for the first time; `lent` tells whether its lease still ran. -/
  | returned (entry : Entry) (lent : Bool) (status : Status)
  /-- A link went to the idle set, under a new entry. -/
  | shelved (entry : Entry)
  /-- A reset gave an entry up; `lent` tells whether it was active. -/
  | drained (entry : Entry) (lent : Bool)
  | slept (caller : Nat)
  | woke (caller : Nat) (slept : Nat)
  | settled (caller : Nat) (instant : Nat) (result : Except PoolError Entry)

namespace Event

def callLine (channel : Nat) (call : Call) : String :=
  let what := match call with
    | .isClosed => "is_closed"
    | .close => "close"
    | .autoCommit => "auto_commit"
    | .setAutoCommit enabled => "set_auto_commit " ++ toString enabled
    | .commit => "commit"
    | .rollback => "rollback"
    | .execute sql => "execute " ++ sql
  toString channel ++ " " ++ what

def connectLine (login : Login) : String :=
  "open " ++ login.url ++ "|" ++ login.credentials.username ++ "|" ++ login.credentials.password

def driverLine? : Event → Option String
  | connect login _ => some (connectLine login)
  | call channel c _ => some (callLine channel c)
  | _ => none

end Event

end ConnectionPool
