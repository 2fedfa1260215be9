import ConnectionPool.Service.Clock

/-!
# Runs

What callers, holders and the world outside can do with a service, one operation at a time, and what
a list of operations does. After each operation every caller that was woken has run until it was
done or slept again. A pool that has been dropped takes no operation of its own; handles, tokens
and the driver remain.
-/

set_option autoImplicit false

namespace ConnectionPool

inductive Form where
  | plain
  | signedIn (credentials : Credentials)
  | interruptible (token : Nat)
  deriving DecidableEq, Repr

/-- Only a caller that signs in brings credentials; the others take the configured ones. -/
def Form.credentials (config : Config) : Form → Credentials
  | plain => config.credentials
  | signedIn credentials => credentials
  | interruptible _ => config.credentials

def Form.token? : Form → Option Nat
  | plain => none
  | signedIn _ => none
  | interruptible token => some token

namespace Service

variable {σ : Type}

def start (pool : Pool σ) : Service σ := { pool }

def issueToken (s : Service σ) : Service σ := { s with tokens := s.tokens ++ [false] }

/-- A change that the driver undergoes without the pool's doing. -/
def meddle (f : σ → σ) (s : Service σ) : Service σ :=
  let backend := { s.pool.backend with driver := f s.pool.backend.driver }
  { s with pool := { s.pool with backend } }

variable [Driver σ]

def acquire (form : Form) (s : Service σ) : Service σ :=
  let request : Request :=
    { caller := s.callers
      credentials := form.credentials s.pool.config
      token := form.token?
      startedAt := s.now }
  { s with callers := s.callers + 1 }.pursue request

def release (h : Nat) (s : Service σ) : Service σ :=
  match s.handles[h]? with
  | none => s
  | some handle =>
    if handle.released then s
    else
      let (kept, pool) := s.pool.takeBack s.now handle.entry
      let s := { s with pool, handles := s.handles.set h { handle with released := true } }
      if kept then s.wakeFirst else s

/-- Passes a call on to the connection of a valid handle. After a fatal error its entry is
invalidated. -/
def forward (h : Nat) (c : Call) (s : Service σ) : Reply c × Service σ :=
  match s.handles[h]? with
  | none => (.error .invalidated, s)
  | some handle =>
    if s.isValid handle then
      let (reply, backend) := s.pool.backend.call handle.entry.channel c
      let pool := { s.pool with backend }
      match reply with
      | .ok value => (.ok value, { s with pool })
      | .error e =>
        let pool := if e.isFatal then pool.retire handle.entry.id .invalidated else pool
        (.error e, { s with pool })
    else (.error .invalidated, s)

/-- A call on a handle. Closing a handle returns it, and the connection is not told. -/
def call (h : Nat) : (c : Call) → Service σ → Reply c × Service σ
  | .close, s => (.ok (), s.release h)
  | .isClosed, s => s.forward h .isClosed
  | .autoCommit, s => s.forward h .autoCommit
  | .setAutoCommit enabled, s => s.forward h (.setAutoCommit enabled)
  | .commit, s => s.forward h .commit
  | .rollback, s => s.forward h .rollback
  | .execute sql, s => s.forward h (.execute sql)

def cancel (token : Nat) (s : Service σ) : Service σ :=
  { s with tokens := s.tokens.set token true }.wakeAll

def reset (s : Service σ) : Service σ := { s with pool := s.pool.reset }

def reconfigure (update : Config → Config) (s : Service σ) : Except ConfigError Unit × Service σ :=
  let (result, pool) := s.pool.reconfigure update
  (result, { s with pool })

/-- Drops the pool, which no caller may be waiting for. -/
def shutDown (s : Service σ) : Service σ := { s with pool := s.pool.reset, isLive := false }

end Service

inductive Op (σ : Type) where
  | acquire (form : Form)
  | call (handle : Nat) (c : Call)
  | release (handle : Nat)
  | advance (span : Nat)
  | issueToken
  | cancel (token : Nat)
  | reset
  | reconfigure (update : Config → Config)
  | shutDown
  | meddle (f : σ → σ)

namespace Service

variable {σ : Type} [Driver σ]

def step : Op σ → Service σ → Service σ
  | .acquire form, s => if s.isLive then s.acquire form else s
  | .call h c, s => (s.call h c).2
  | .release h, s => s.release h
  | .advance span, s => s.advance span
  | .issueToken, s => if s.isLive then s.issueToken else s
  | .cancel token, s => s.cancel token
  | .reset, s => if s.isLive then s.reset else s
  | .reconfigure update, s => if s.isLive then (s.reconfigure update).2 else s
  | .shutDown, s => if s.isLive && s.waiting.isEmpty then s.shutDown else s
  | .meddle f, s => s.meddle f

def run : List (Op σ) → Service σ → Service σ
  | [], s => s
  | op :: rest, s => run rest (step op s)

end Service

end ConnectionPool
