import ConnectionPool.Driver.Faulty
import ConnectionPool.Driver.Scripted
import ConnectionPool.Service.Run

/-!
# Scripts

A script exercises one pool over a scripted driver, with names for handles and tokens. This module
holds what a script can ask for and what it is answered.
-/

set_option autoImplicit false

namespace ConnectionPool.Script

inductive Manner where
  | plain
  | signedIn (credentials : Credentials)
  | interruptible (token : String)
  deriving DecidableEq, Repr

inductive Spot where
  | connect
  | fresh (method : Method)
  | channel (channel : Nat) (method : Method)
  deriving DecidableEq, Repr

inductive Query where
  | config
  | occupancy
  | metrics
  | text
  deriving DecidableEq, Repr

inductive Step where
  | acquire (handle : String) (manner : Manner)
  | call (handle : String) (c : Call)
  | drop (handle : String)
  | inspect (handle : String)
  | showHandle (handle : String)
  | advance (span : Nat)
  | issueToken (token : String)
  | cancel (token : String)
  | inspectToken (token : String)
  | reset
  | reconfigure (changes : List Config.Change)
  | query (q : Query)
  | driver
  | refuse (on : Bool)
  | openBroken (on : Bool)
  | manualCommit (on : Bool)
  | sever (channel : Nat)
  | failStatements (channel : Nat) (on : Bool)
  | connection (channel : Nat)
  | plant (spot : Spot) (fault : Option Fault)
  | shutDown
  deriving DecidableEq, Repr

inductive Refusal where
  | handleInUse
  | noHandle
  | noToken
  | noConnection
  | busy
  | noPool
  deriving DecidableEq, Repr

structure Lease where
  link : Nat
  valid : Bool
  status : Status
  typeCode : UInt64
  createdAt : Nat
  age : Nat
  heldFor : Nat
  unusedFor : Nat
  deriving DecidableEq, Repr

inductive Answer where
  | done
  | refused (why : Refusal)
  | failed (error : PoolError)
  /-- A connection was lent; its number. -/
  | granted (link : Nat)
  | waiting
  | reply (c : Call) (r : Reply c)
  | lease (lease : Lease)
  | text (text : String)
  | instant (now : Nat)
  | token (cancelled : Bool)
  | config (config : Config)
  | occupancy (occupancy : Occupancy)
  | metrics (metrics : Metrics)
  | driver (driver : Scripted)
  | connection (channel : Nat) (connection : Scripted.Connection)
  /-- The driver opened a connection for the script itself. -/
  | opened (channel : Nat)
  | notOpened (error : DriverError)

structure Woken where
  handle : String
  instant : Nat
  result : Except PoolError Entry

structure Report where
  answer : Answer
  woken : List Woken
  driverLog : List String
  metrics : Option Metrics

def tokenText (cancelled : Bool) : String :=
  Text.openRecord "CancelToken" [⟨"cancelled", toString cancelled⟩]

end ConnectionPool.Script
