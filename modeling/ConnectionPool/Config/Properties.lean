import ConnectionPool.Config.Basic
import ConnectionPool.Text.Lines
import ConnectionPool.Text.Numeral

/-!
# Configurations from properties

A properties text has one setting a line: a key, an equals sign and a value, with blanks around
each of them left out. Blank lines are skipped, and lines whose first character is a number sign or
an exclamation mark. A setting has two keys or one, in letters of either case; a key that names no
setting has no effect. Lengths of time are in milliseconds. A later line replaces what an earlier
one set, the first line that cannot be read is the one reported, and the configuration that results
has to be usable.
-/

set_option autoImplicit false

namespace ConnectionPool

/-- The lower-case letter of a character. Besides the capital ASCII letters only the Kelvin sign
has one among the ASCII letters; no other character is changed, since none can spell a key. -/
def lowerChar (c : Char) : Char := if c = '\u212A' then 'k' else c.toLower

inductive Setting where
  | url
  | username
  | password
  | maxActive
  | maxIdle
  | maxCheckout
  | timeToWait
  | tolerance
  | pingQuery
  | pingEnabled
  | pingUnusedFor
  deriving DecidableEq, Repr

namespace Setting

def keys : Setting → List String
  | url => ["url"]
  | username => ["username", "user"]
  | password => ["password"]
  | maxActive => ["poolmaximumactiveconnections", "max_active_connections"]
  | maxIdle => ["poolmaximumidleconnections", "max_idle_connections"]
  | maxCheckout => ["poolmaximumcheckouttime", "max_checkout_time_ms"]
  | timeToWait => ["pooltimetowait", "time_to_wait_ms"]
  | tolerance =>
    ["poolmaximumlocalbadconnectiontolerance", "max_local_bad_connection_tolerance"]
  | pingQuery => ["poolpingquery", "ping_query"]
  | pingEnabled => ["poolpingenabled", "ping_enabled"]
  | pingUnusedFor => ["poolpingconnectionsnotusedfor", "ping_connections_not_used_for_ms"]

def all : List Setting :=
  [url, username, password, maxActive, maxIdle, maxCheckout, timeToWait, tolerance, pingQuery,
    pingEnabled, pingUnusedFor]

def ofKey? (key : String) : Option Setting := all.find? fun s => s.keys.contains key

def sameIgnoringCase (a b : List Char) : Bool := a.map Char.toLower == b.map Char.toLower

def isYes (value : String) : Bool :=
  sameIgnoringCase value.toList "true".toList || sameIgnoringCase value.toList "yes".toList ||
    value == "1"

def count (key value : String) : Except ConfigError UInt64 :=
  match Text.word? value.toList with
  | some n => .ok n
  | none => .error (.notNumber key value)

def millis (key value : String) : Except ConfigError Nat :=
  (count key value).map fun n => Nanos.ofMillis n.toNat

def read (key value : String) : Setting → Except ConfigError Config.Change
  | url => .ok (.url value)
  | username => .ok (.username value)
  | password => .ok (.password value)
  | maxActive => (count key value).map .maxActive
  | maxIdle => (count key value).map .maxIdle
  | maxCheckout => (millis key value).map .maxCheckout
  | timeToWait => (millis key value).map .timeToWait
  | tolerance => (count key value).map .tolerance
  | pingQuery => .ok (.pingQuery value)
  | pingEnabled => .ok (.pingEnabled (isYes value))
  | pingUnusedFor => (millis key value).map .pingUnusedFor

end Setting

namespace Properties

/-- What stands before and after the first equals sign, if there is one. -/
def splitPair? : List Char → Option (List Char × List Char)
  | [] => none
  | c :: rest =>
    if c = '=' then some ([], rest)
    else (splitPair? rest).map fun pair => (c :: pair.1, pair.2)

def isSkipped (line : List Char) : Bool :=
  match line with
  | [] => true
  | c :: _ => c == '#' || c == '!'

def normalKey (key : List Char) : String := String.ofList ((Text.trim key).map lowerChar)

def readLine (line : List Char) : Except ConfigError (Option Config.Change) :=
  let line := Text.trim line
  if isSkipped line then .ok none
  else
    match splitPair? line with
    | none => .error (.notKeyValue (String.ofList line))
    | some (key, value) =>
      let key := normalKey key
      match Setting.ofKey? key with
      | none => .ok none
      | some setting => (setting.read key (String.ofList (Text.trim value))).map some

def changes : List (List Char) → Except ConfigError (List Config.Change)
  | [] => .ok []
  | line :: rest => do
    let change ← readLine line
    let later ← changes rest
    return change.toList ++ later

end Properties

def Config.ofProperties (text : String) : Except ConfigError Config := do
  let changes ← Properties.changes (Text.lines text.toList)
  let config := Config.changeAll {} changes
  config.validate
  return config

end ConnectionPool
