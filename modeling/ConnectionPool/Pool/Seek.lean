import ConnectionPool.Pool.Basic

/-!
# Seeking a connection

An acquisition takes candidates until one is sound: the first idle entry, else a new connection if
there is room for it, else the oldest lease if it is overdue. It gives up at the first bad candidate
beyond the limit, and it stops when the pool is saturated, that is, when there is no candidate. An
overdue lease whose entry has been retired already is given up instead of taken over, and leaves
room for a new connection.

The bad candidates are counted in a word, and so is their limit. If the limit is the greatest word,
there is no word for a count beyond it, and the addition aborts the acquisition.

New connections are opened under the configured credentials. Those of the request only decide the
type code of the entry that is lent.
-/

set_option autoImplicit false

namespace ConnectionPool

structure Request where
  caller : Nat
  credentials : Credentials
  token : Option Nat := none
  startedAt : Nat
  strikes : UInt64 := 0
  hasWaited : Bool := false
  deriving DecidableEq, Repr

/-- What the acquisition fails with if it gives up at one more bad candidate. -/
def Request.exhaustion (r : Request) : PoolError :=
  if r.strikes.toNat + 1 < UInt64.size then .exhausted (r.strikes + 1) else .overflow

inductive Candidate where
  | found (entry : Entry)
  | refused (error : DriverError)
  | saturated
  deriving DecidableEq, Repr

inductive Outcome where
  | granted (entry : Entry)
  | failed (error : PoolError)
  | saturated (request : Request)
  deriving DecidableEq, Repr

namespace Pool

variable {σ : Type} [Driver σ]

def openLink (now : Nat) (p : Pool σ) : Candidate × Pool σ :=
  match p.backend.connect p.config.login with
  | (.error e, backend) => (.refused e, { p with backend })
  | (.ok channel, backend) =>
    (.found (Entry.fresh p.nextEntry ⟨p.nextLink, channel⟩ now),
      { p with backend, nextEntry := p.nextEntry + 1, nextLink := p.nextLink + 1 })

def openIfRoom (now : Nat) (p : Pool σ) : Candidate × Pool σ :=
  if p.hasRoom then p.openLink now else (.saturated, p)

/-- Takes the oldest lease away if it is overdue. The holder's entry is retired before the
connection is touched. -/
def claim (now : Nat) (caller : Nat) (p : Pool σ) : Candidate × Pool σ :=
  match p.active with
  | [] => (.saturated, p)
  | oldest :: rest =>
    let held := oldest.heldFor now
    if held ≤ p.config.maxCheckout then (.saturated, p)
    else
      let p := { p with active := rest, tally := p.tally.addClaim held }
      let p := p.note (.claimed caller oldest held)
      if p.status oldest.id = .valid then
        let p := (p.retire oldest.id .superseded).undo oldest
        (.found (oldest.successor p.nextEntry), { p with nextEntry := p.nextEntry + 1 })
      else (p.close oldest).openIfRoom now

def nextCandidate (now : Nat) (caller : Nat) (p : Pool σ) : Candidate × Pool σ :=
  match p.idle with
  | e :: rest => (.found e, { p with idle := rest })
  | [] => if p.hasRoom then p.openLink now else p.claim now caller

def pingQuery? (unused : Nat) (config : Config) : Option String :=
  if config.pingEnabled ∧ config.pingUnusedFor ≤ unused then some config.pingQuery else none

def examine (now : Nat) (caller : Nat) (e : Entry) (p : Pool σ) : Bool × Pool σ :=
  let (sound, backend) := p.backend.probe e.channel (pingQuery? (e.unusedFor now) p.config)
  let others := p.idle.length + p.active.length
  (sound,
    { p with backend := backend.note (.examined caller e sound others p.config.maxActive.toNat) })

def reject (e : Entry) (p : Pool σ) : Pool σ :=
  { p with tally := p.tally.addBad }.discard e

def grant (now : Nat) (r : Request) (e : Entry) (p : Pool σ) : Entry × Pool σ :=
  let p := p.undo e
  let lent := e.lent (Login.typeCode ⟨p.config.url, r.credentials⟩) now
  let p :=
    { p with
      active := p.active ++ [lent]
      tally := p.tally.addRequest (now - r.startedAt) }
  (lent, p.note (.granted r.caller lent))

/-- Seeks while at most `left` more candidates may be bad. -/
def seekWithin (now : Nat) : Nat → Request → Pool σ → Outcome × Pool σ
  | left, r, p =>
    match p.nextCandidate now r.caller with
    | (.refused e, p) => (.failed (.create e), p)
    | (.saturated, p) =>
      if p.active.isEmpty then (.failed .unavailable, p) else (.saturated r, p)
    | (.found e, p) =>
      match p.examine now r.caller e with
      | (true, p) =>
        let (lent, p) := p.grant now r e
        (.granted lent, p)
      | (false, p) =>
        let p := p.reject e
        match left with
        | 0 => (.failed r.exhaustion, p)
        | left+1 => seekWithin now left { r with strikes := r.strikes + 1 } p

def seek (now : Nat) (r : Request) (p : Pool σ) : Outcome × Pool σ :=
  seekWithin now (p.config.badLimit.toNat - r.strikes.toNat) r p

end Pool

end ConnectionPool
