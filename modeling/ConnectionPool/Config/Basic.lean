import ConnectionPool.Config.TypeCode
import ConnectionPool.Error
import ConnectionPool.Text.Blank
import ConnectionPool.Text.Quoted
import ConnectionPool.Text.Record
import ConnectionPool.Time

/-!
# Configuration of a pool

Counts are 64-bit words. A configuration is usable if it allows one active connection, if the
limit of bad connections is a 64-bit word, and if there is a query to ping with when pinging is on.
-/

set_option autoImplicit false

namespace ConnectionPool

structure Config where
  url : String := ""
  username : String := ""
  password : String := ""
  maxActive : UInt64 := 10
  maxIdle : UInt64 := 5
  maxCheckout : Nat := Nanos.ofSeconds 20
  timeToWait : Nat := Nanos.ofSeconds 20
  /-- Bad connections that one acquisition bears beyond `maxIdle` of them. -/
  tolerance : UInt64 := 3
  pingQuery : String := "NO PING QUERY SET"
  pingEnabled : Bool := false
  /-- Only a connection unused for at least this long is pinged. -/
  pingUnusedFor : Nat := 0
  deriving DecidableEq, Repr

namespace Config

def credentials (c : Config) : Credentials := ⟨c.username, c.password⟩

def login (c : Config) : Login := ⟨c.url, c.credentials⟩

def expectedTypeCode (c : Config) : UInt64 := c.login.typeCode

/-- An acquisition gives up at the first bad connection beyond this many: the sum of both bounds, or
the greatest word if that is less. -/
def badLimit (c : Config) : UInt64 :=
  UInt64.ofNat (min (c.maxIdle.toNat + c.tolerance.toNat) (UInt64.size - 1))

def validate (c : Config) : Except ConfigError Unit :=
  if c.maxActive = 0 then .error .noActive
  else if UInt64.size ≤ c.maxIdle.toNat + c.tolerance.toNat then .error .limitOverflow
  else if c.pingEnabled && Text.allBlank c.pingQuery.toList then .error .blankPingQuery
  else .ok ()

inductive Change where
  | url (value : String)
  | username (value : String)
  | password (value : String)
  | maxActive (value : UInt64)
  | maxIdle (value : UInt64)
  | maxCheckout (value : Nat)
  | timeToWait (value : Nat)
  | tolerance (value : UInt64)
  | pingQuery (value : String)
  | pingEnabled (value : Bool)
  | pingUnusedFor (value : Nat)
  deriving DecidableEq, Repr

def change (c : Config) : Change → Config
  | .url value => { c with url := value }
  | .username value => { c with username := value }
  | .password value => { c with password := value }
  | .maxActive value => { c with maxActive := value }
  | .maxIdle value => { c with maxIdle := value }
  | .maxCheckout value => { c with maxCheckout := value }
  | .timeToWait value => { c with timeToWait := value }
  | .tolerance value => { c with tolerance := value }
  | .pingQuery value => { c with pingQuery := value }
  | .pingEnabled value => { c with pingEnabled := value }
  | .pingUnusedFor value => { c with pingUnusedFor := value }

def changeAll (c : Config) (changes : List Change) : Config := changes.foldl change c

def Change.signIn (username password : String) : List Change :=
  [.username username, .password password]

def Change.pingWith (query : String) : List Change :=
  [.pingQuery query, .pingEnabled true]

def text (c : Config) : String :=
  Text.record "PoolConfig" [
    ⟨"url", Text.quoted c.url⟩,
    ⟨"username", Text.quoted c.username⟩,
    ⟨"password", Text.quoted "<redacted>"⟩,
    ⟨"max_active_connections", toString c.maxActive⟩,
    ⟨"max_idle_connections", toString c.maxIdle⟩,
    ⟨"max_checkout_time", Nanos.text c.maxCheckout⟩,
    ⟨"time_to_wait", Nanos.text c.timeToWait⟩,
    ⟨"max_local_bad_connection_tolerance", toString c.tolerance⟩,
    ⟨"ping_query", Text.quoted c.pingQuery⟩,
    ⟨"ping_enabled", toString c.pingEnabled⟩,
    ⟨"ping_connections_not_used_for", Nanos.text c.pingUnusedFor⟩]

def trial : Config where
  url := "mock://localhost/test"
  username := "sa"
  password := "secret"
  timeToWait := Nanos.ofMillis 50

end Config

end ConnectionPool
