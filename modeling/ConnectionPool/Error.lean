import ConnectionPool.Driver.Basic

/-!
# Why the pool refuses

A configuration is refused for one of the causes of `ConfigError`. An acquisition ends without a
connection for one of the causes of `PoolError`.
-/

set_option autoImplicit false

namespace ConnectionPool

inductive ConfigError where
  | noActive
  | limitOverflow
  | blankPingQuery
  | noDriver
  | notKeyValue (line : String)
  | notNumber (key value : String)
  | stated (reason : String)
  deriving DecidableEq, Repr

def ConfigError.reason : ConfigError → String
  | noActive => "max_active_connections must be greater than 0"
  | limitOverflow =>
    "max_idle_connections plus max_local_bad_connection_tolerance overflows"
  | blankPingQuery => "ping_query must not be empty when pinging is enabled"
  | noDriver => "a connection factory is required"
  | notKeyValue line => "invalid key-value: " ++ line
  | notNumber key value => "invalid " ++ key ++ ": " ++ value
  | stated reason => reason

inductive PoolError where
  | create (cause : DriverError)
  | exhausted (bad : UInt64)
  /-- An addition has aborted the acquisition. -/
  | overflow
  | unavailable
  | interrupted
  | config (cause : ConfigError)
  deriving DecidableEq, Repr

namespace PoolError

def message : PoolError → String
  | create cause => "failed to open connection: " ++ cause.message
  | exhausted bad =>
    "could not get a good connection to the database after " ++ toString bad ++
      " bad connections"
  | overflow => "attempt to add with overflow"
  | unavailable => "unknown severe error condition: the pool returned no connection"
  | interrupted => "connection acquisition was interrupted"
  | config cause => "invalid pool configuration: " ++ cause.reason

/-- The pool could not produce a usable connection. -/
def isExhausted : PoolError → Bool
  | exhausted _ | unavailable => true
  | create _ | overflow | interrupted | config _ => false

def source? : PoolError → Option DriverError
  | create cause => some cause
  | exhausted _ | overflow | unavailable | interrupted | config _ => none

end PoolError

end ConnectionPool
