import ConnectionPool.Driver.Basic

/-!
# Planted faults

A driver with faults planted in front of it. While a fault is set for a method, a call of that
method is answered with the fault's error and the driver behind never sees it. A fault lasts for a
number of calls or until it is taken away. A connection starts with a copy of the faults set for
fresh connections at that moment.
-/

set_option autoImplicit false

namespace ConnectionPool

inductive Method where
  | isClosed
  | close
  | autoCommit
  | setAutoCommit
  | commit
  | rollback
  | execute
  deriving DecidableEq, Repr

def Call.method : Call → Method
  | .isClosed => .isClosed
  | .close => .close
  | .autoCommit => .autoCommit
  | .setAutoCommit _ => .setAutoCommit
  | .commit => .commit
  | .rollback => .rollback
  | .execute _ => .execute

structure Fault where
  error : DriverError
  /-- How many more calls it answers; none if it stays. -/
  remaining : Option Nat := none
  deriving DecidableEq, Repr

/-- The error that a call meets, and the fault that is left after it. -/
def Fault.meet : Option Fault → Option DriverError × Option Fault
  | none => (none, none)
  | some fault =>
    match fault.remaining with
    | none => (some fault.error, some fault)
    | some 0 => (none, none)
    | some (n+1) => (some fault.error, some { fault with remaining := some n })

abbrev Faults := List (Method × Fault)

namespace Faults

def put (method : Method) (fault : Option Fault) (faults : Faults) : Faults :=
  fault.toList.map (fun f => (method, f)) ++ faults.filter fun f => f.1 != method

def meet (method : Method) (faults : Faults) : Option DriverError × Faults :=
  let (error, left) := Fault.meet (faults.lookup method)
  (error, faults.put method left)

end Faults

structure Faulty (σ : Type) where
  behind : σ
  onConnect : Option Fault := none
  fresh : Faults := []
  channels : List Faults := []
  deriving DecidableEq, Repr

namespace Faulty

variable {σ : Type}

def plantOnConnect (fault : Option Fault) (s : Faulty σ) : Faulty σ :=
  { s with onConnect := fault }

def plantFresh (method : Method) (fault : Option Fault) (s : Faulty σ) : Faulty σ :=
  { s with fresh := s.fresh.put method fault }

def plant (channel : Nat) (method : Method) (fault : Option Fault) (s : Faulty σ) : Faulty σ :=
  { s with channels := s.channels.modify channel (Faults.put method fault) }

variable [Driver σ]

def connect (login : Login) (s : Faulty σ) : Except DriverError Unit × Faulty σ :=
  match Fault.meet s.onConnect with
  | (some error, left) => (.error error, { s with onConnect := left })
  | (none, left) =>
    match Driver.connect login s.behind with
    | (.error error, behind) => (.error error, { s with behind, onConnect := left })
    | (.ok _, behind) =>
      (.ok (), { s with behind, onConnect := left, channels := s.channels ++ [s.fresh] })

def answer (channel : Nat) (call : Call) (s : Faulty σ) : Reply call × Faulty σ :=
  let (error?, left) := Faults.meet call.method ((s.channels[channel]?).getD [])
  let s := { s with channels := s.channels.set channel left }
  match error? with
  | some error => (.error error, s)
  | none =>
    let (reply, behind) := Driver.answer channel call s.behind
    (reply, { s with behind })

instance : Driver (Faulty σ) where
  connect := connect
  answer := answer

end Faulty

end ConnectionPool
