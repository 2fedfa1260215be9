import ConnectionPool.Script.Step

/-!
# Scripts without a pool

A script can also act on the scripted driver itself. An act on a connection that was never opened is
refused and changes nothing.
-/

set_option autoImplicit false

namespace ConnectionPool.Script.Direct

inductive Step where
  | act (a : Scripted.Act)
  | driver
  | connection (channel : Nat)
  deriving DecidableEq, Repr

def channel? : Scripted.Act → Option Nat
  | .sever channel | .failStatements channel _ | .call channel _ => some channel
  | .connect _ | .refuse _ | .openBroken _ | .manualCommit _ => none

def answer (a : Scripted.Act) (s : Scripted) : Answer :=
  match a with
  | .connect login =>
    match (s.connect login).1 with
    | .ok _ => .opened s.opened
    | .error e => .notOpened e
  | .call channel c => .reply c (s.answer channel c).1
  | .refuse _ | .openBroken _ | .manualCommit _ | .sever _ | .failStatements _ _ => .done

def step : Step → Scripted → Answer × Scripted
  | .act a, s =>
    if (channel? a).any (s.opened ≤ ·) then (.refused .noConnection, s) else (answer a s, s.act a)
  | .driver, s => (.driver s, s)
  | .connection channel, s =>
    match s.connections[channel]? with
    | none => (.refused .noConnection, s)
    | some c => (.connection channel c, s)

def run : List Step → Scripted → List Answer
  | [], _ => []
  | st :: rest, s =>
    let (answer, s) := step st s
    answer :: run rest s

end ConnectionPool.Script.Direct
