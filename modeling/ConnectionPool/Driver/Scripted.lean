import ConnectionPool.Driver.Basic

/-!
# A scripted driver

A driver that keeps its connections in memory. Whoever tries out a pool can make it refuse to open,
open connections that are broken from the start or in manual-commit mode, break a connection or
make its statements fail, and can read what reached each connection. Every attempt to open is
recorded, refused or not; a connection records the calls that took effect.
-/

set_option autoImplicit false

namespace ConnectionPool

namespace Scripted

structure Connection where
  autoCommit : Bool
  closed : Bool := false
  broken : Bool := false
  failing : Bool := false
  closeCalls : Nat := 0
  rollbacks : Nat := 0
  commits : Nat := 0
  statements : List String := []
  deriving DecidableEq, Repr

namespace Connection

/-- A closed or broken connection reports itself closed and takes no statement. -/
def isDead (c : Connection) : Bool := c.closed || c.broken

def answer : (call : Call) → Connection → Reply call × Connection
  | .isClosed, c => (.ok c.isDead, c)
  | .close, c => (.ok (), { c with closeCalls := c.closeCalls + 1, closed := true })
  | .autoCommit, c => (.ok c.autoCommit, c)
  | .setAutoCommit enabled, c =>
    if c.isDead then (.error .closed, c) else (.ok (), { c with autoCommit := enabled })
  | .commit, c =>
    if c.isDead then (.error .closed, c) else (.ok (), { c with commits := c.commits + 1 })
  | .rollback, c =>
    if c.isDead then (.error .closed, c) else (.ok (), { c with rollbacks := c.rollbacks + 1 })
  | .execute sql, c =>
    if c.isDead then (.error .closed, c)
    else if c.failing then (.error (.io "connection reset by peer"), c)
    else (.ok 1, { c with statements := c.statements ++ [sql] })

end Connection

end Scripted

structure Scripted where
  refusing : Bool := false
  openingBroken : Bool := false
  manualCommit : Bool := false
  openCalls : List Login := []
  connections : List Scripted.Connection := []
  deriving DecidableEq, Repr

namespace Scripted

def opened (s : Scripted) : Nat := s.connections.length

def openConnections (s : Scripted) : Nat := (s.connections.filter fun c => !c.closed).length

def connect (login : Login) (s : Scripted) : Except DriverError Unit × Scripted :=
  let s := { s with openCalls := s.openCalls ++ [login] }
  if s.refusing then (.error (.connect (login.url ++ ": connection refused")), s)
  else
    let new : Connection := { autoCommit := !s.manualCommit, broken := s.openingBroken }
    (.ok (), { s with connections := s.connections ++ [new] })

/-- A channel at which nothing was opened answers as a closed connection does. -/
def answer (channel : Nat) (call : Call) (s : Scripted) : Reply call × Scripted :=
  match s.connections[channel]? with
  | none => (.error .closed, s)
  | some c =>
    let (reply, c) := c.answer call
    (reply, { s with connections := s.connections.set channel c })

instance : Driver Scripted where
  connect := connect
  answer := answer

inductive Act where
  | connect (login : Login)
  | refuse (on : Bool)
  | openBroken (on : Bool)
  | manualCommit (on : Bool)
  | sever (channel : Nat)
  | failStatements (channel : Nat) (on : Bool)
  | call (channel : Nat) (call : Call)
  deriving DecidableEq, Repr

def act : Act → Scripted → Scripted
  | .connect login, s => (s.connect login).2
  | .refuse on, s => { s with refusing := on }
  | .openBroken on, s => { s with openingBroken := on }
  | .manualCommit on, s => { s with manualCommit := on }
  | .sever channel, s =>
    { s with connections := s.connections.modify channel fun c => { c with broken := true } }
  | .failStatements channel on, s =>
    { s with connections := s.connections.modify channel fun c => { c with failing := on } }
  | .call channel c, s => (s.answer channel c).2

def run : List Act → Scripted → Scripted
  | [], s => s
  | a :: rest, s => run rest (act a s)

end Scripted

end ConnectionPool
