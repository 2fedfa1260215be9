import ConnectionPool.Backend
import ConnectionPool.Occupancy
import ConnectionPool.Statistics

/-!
# The pool

A pool keeps idle entries, the first of which is lent next, and active entries in the order in
which they were lent. An entry is valid until it is retired, once and for all. A reset gives up
every connection, the active ones first, each group from its last to its first; a new configuration
takes effect with a reset, or not at all if it is not usable. Operations take no time; those that
read the clock are given the present instant.
-/

set_option autoImplicit false

namespace ConnectionPool

structure Pool (σ : Type) where
  backend : Backend σ
  config : Config
  expectedTypeCode : UInt64
  idle : List Entry := []
  active : List Entry := []
  /-- The entries that have been retired, and how. -/
  retired : List (Nat × Status) := []
  nextEntry : Nat := 1
  nextLink : Nat := 1
  tally : Tally := {}

namespace Pool

variable {σ : Type}

def create (driver : σ) (config : Config) : Except ConfigError (Pool σ) :=
  config.validate.map fun _ =>
    { backend := { driver }, config, expectedTypeCode := config.expectedTypeCode }

def note (event : Event) (p : Pool σ) : Pool σ := { p with backend := p.backend.note event }

def status (id : Nat) (p : Pool σ) : Status := (p.retired.lookup id).getD .valid

/-- Only a valid entry changes its status. -/
def retire (id : Nat) (how : Status) (p : Pool σ) : Pool σ :=
  if p.status id = .valid then { p with retired := (id, how) :: p.retired } else p

def hasRoom (p : Pool σ) : Bool := p.active.length < p.config.maxActive.toNat

def metrics (now : Nat) (p : Pool σ) : Metrics where
  config := p.config
  active := p.active.length
  idle := p.idle.length
  tally := p.tally
  uptime := now

def occupancy (p : Pool σ) : Occupancy where
  idle := UInt64.ofNat p.idle.length
  active := UInt64.ofNat p.active.length
  maxActive := p.config.maxActive
  maxIdle := p.config.maxIdle

def text (p : Pool σ) : String := Text.record "Pool" [⟨"status", p.occupancy.text⟩]

variable [Driver σ]

def undo (e : Entry) (p : Pool σ) : Pool σ := { p with backend := p.backend.undo e.channel }

def close (e : Entry) (p : Pool σ) : Pool σ := { p with backend := p.backend.close e.channel }

def discard (e : Entry) (p : Pool σ) : Pool σ := (p.retire e.id .invalidated).close e

def drain (lent : Bool) (e : Entry) (p : Pool σ) : Pool σ := (p.note (.drained e lent)).discard e

def reset (p : Pool σ) : Pool σ :=
  let emptied :=
    { p with expectedTypeCode := p.config.expectedTypeCode, active := [], idle := [] }
  p.idle.foldr (drain false) (p.active.foldr (drain true) emptied)

def reconfigure (update : Config → Config) (p : Pool σ) : Except ConfigError Unit × Pool σ :=
  let config := update p.config
  match config.validate with
  | .error e => (.error e, p)
  | .ok _ => (.ok (), reset { p with config })

/-- Takes back the entry of a returned handle, and tells whether its link went to the idle set. An
entry that is no longer valid counts as bad, and its connection is closed if no one else has it. A
valid one is kept if there is a place for it and it was lent under the configured credentials. -/
def takeBack (now : Nat) (e : Entry) (p : Pool σ) : Bool × Pool σ :=
  let lent := p.active.any fun a => a.id == e.id
  let p := p.note (.returned e lent (p.status e.id))
  let p := { p with active := p.active.eraseP fun a => a.id == e.id }
  match p.status e.id with
  | .superseded => (false, { p with tally := p.tally.addBad })
  | .invalidated => (false, { p with tally := p.tally.addBad }.close e)
  | .valid =>
    let p := { p with tally := p.tally.addCheckout (e.heldFor now) }
    if p.idle.length < p.config.maxIdle.toNat ∧ e.typeCode = p.expectedTypeCode then
      let p := (p.undo e).retire e.id .superseded
      let kept := e.successor p.nextEntry
      let p := { p with idle := p.idle ++ [kept], nextEntry := p.nextEntry + 1 }
      (true, p.note (.shelved kept))
    else (false, p.discard e)

end Pool

end ConnectionPool
