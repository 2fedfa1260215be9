import ConnectionPool.Script.Step

/-!
# Sessions

A session is a script's service with the names of its handles and tokens. A handle's name stands for
the acquisition that it was given to; it is free again when the acquisition fails or the handle is
dropped. A token's name stands for the token issued last under it. A session may hide what reaches
the driver; then no fault can be planted either.
-/

set_option autoImplicit false

namespace ConnectionPool.Script

structure Session where
  service : Service (Faulty Scripted)
  /-- For each handle's name the number of its caller. -/
  names : List (String × Nat) := []
  tokens : List (String × Nat) := []
  isTraced : Bool := true

namespace Session

def start (pool : Pool (Faulty Scripted)) (isTraced : Bool) : Session :=
  { service := Service.start pool, isTraced }

def handle? (name : String) (s : Session) : Option Nat :=
  (s.names.lookup name).bind fun caller => s.service.handles.findIdx? fun h => h.caller == caller

def isWaiting (name : String) (s : Session) : Bool :=
  (s.names.lookup name).any fun caller => s.service.waiting.any fun x => x.request.caller == caller

def isTaken (name : String) (s : Session) : Bool := (s.handle? name).isSome || s.isWaiting name

def nameOf (caller : Nat) (s : Session) : String :=
  ((s.names.find? fun entry => entry.2 == caller).map Prod.fst).getD ""

def driver (s : Session) : Faulty Scripted := s.service.pool.backend.driver

def act (a : Scripted.Act) (s : Session) : Session :=
  { s with service := s.service.meddle fun d => { d with behind := d.behind.act a } }

def result? (caller : Nat) : List Event → Option (Except PoolError Entry)
  | [] => none
  | .settled c _ result :: rest => if c = caller then some result else result? caller rest
  | _ :: rest => result? caller rest

def form? (manner : Manner) (s : Session) : Option Form :=
  match manner with
  | .plain => some .plain
  | .signedIn credentials => some (.signedIn credentials)
  | .interruptible token => (s.tokens.lookup token).map Form.interruptible

def acquire (name : String) (manner : Manner) (s : Session) : Answer × Session :=
  if !s.service.isLive then (.refused .noPool, s)
  else if s.isTaken name then (.refused .handleInUse, s)
  else
    match s.form? manner with
    | none => (.refused .noToken, s)
    | some form =>
      let caller := s.service.callers
      let names := (name, caller) :: s.names.filter fun entry => entry.1 != name
      let s := { s with names, service := s.service.acquire form }
      match result? caller s.service.pool.backend.journal with
      | none => (.waiting, s)
      | some (.ok entry) => (.granted entry.link.number, s)
      | some (.error e) => (.failed e, s)

def withHandle (name : String) (s : Session) (use : Nat → Handle → Answer × Session) :
    Answer × Session :=
  match s.handle? name with
  | none => (.refused .noHandle, s)
  | some h =>
    match s.service.handles[h]? with
    | none => (.refused .noHandle, s)
    | some handle => use h handle

def lease (h : Handle) (s : Service (Faulty Scripted)) : Lease where
  link := h.entry.link.number
  valid := s.isValid h
  status := s.pool.status h.entry.id
  typeCode := h.entry.typeCode
  createdAt := h.entry.createdAt
  age := h.entry.age s.now
  heldFor := h.entry.heldFor s.now
  unusedFor := h.entry.unusedFor s.now

def handleText (h : Handle) (s : Service (Faulty Scripted)) : String :=
  Text.record "PooledConnection" [
    ⟨"entry", h.entry.text (s.pool.status h.entry.id)⟩,
    ⟨"released", toString h.released⟩]

def withToken (name : String) (s : Session) (use : Nat → Answer × Session) : Answer × Session :=
  match s.tokens.lookup name with
  | none => (.refused .noToken, s)
  | some token => use token

def withConnection (channel : Nat) (s : Session)
    (use : Scripted.Connection → Answer × Session) : Answer × Session :=
  match s.driver.behind.connections[channel]? with
  | none => (.refused .noConnection, s)
  | some connection => use connection

def plant (spot : Spot) (fault : Option Fault) (s : Session) : Answer × Session :=
  let planted (f : Faulty Scripted → Faulty Scripted) : Answer × Session :=
    (.done, if s.isTraced then { s with service := s.service.meddle f } else s)
  match spot with
  | .connect => planted (Faulty.plantOnConnect fault)
  | .fresh method => planted (Faulty.plantFresh method fault)
  | .channel channel method =>
    if s.isTraced && channel < s.driver.channels.length then
      planted (Faulty.plant channel method fault)
    else (.refused .noConnection, s)

def query (q : Query) (s : Service (Faulty Scripted)) : Answer :=
  match q with
  | .config => .config s.pool.config
  | .occupancy => .occupancy s.pool.occupancy
  | .metrics => .metrics (s.pool.metrics s.now)
  | .text => .text s.pool.text

def ifLive (s : Session) (use : Answer × Session) : Answer × Session :=
  if s.service.isLive then use else (.refused .noPool, s)

def perform : Step → Session → Answer × Session
  | .acquire name manner, s => s.acquire name manner
  | .call name c, s =>
    s.withHandle name fun h _ =>
      let (reply, service) := s.service.call h c
      (.reply c reply, { s with service })
  | .drop name, s =>
    s.withHandle name fun h _ =>
      let names := s.names.filter fun entry => entry.1 != name
      (.done, { s with names, service := s.service.release h })
  | .inspect name, s => s.withHandle name fun _ handle => (.lease (lease handle s.service), s)
  | .showHandle name, s =>
    s.withHandle name fun _ handle => (.text (handleText handle s.service), s)
  | .advance span, s =>
    let service := s.service.advance span
    (.instant service.now, { s with service })
  | .issueToken name, s =>
    s.ifLive
      (.done,
        { s with
          service := s.service.issueToken
          tokens := (name, s.service.tokens.length) :: s.tokens })
  | .cancel name, s =>
    s.withToken name fun token => (.done, { s with service := s.service.cancel token })
  | .inspectToken name, s =>
    s.withToken name fun token => (.token (s.service.isCancelled (some token)), s)
  | .reset, s => s.ifLive (.done, { s with service := s.service.reset })
  | .reconfigure changes, s =>
    s.ifLive <|
      match s.service.reconfigure fun c => c.changeAll changes with
      | (.ok _, service) => (.done, { s with service })
      | (.error e, service) => (.failed (.config e), { s with service })
  | .query q, s => s.ifLive (query q s.service, s)
  | .driver, s => (.driver s.driver.behind, s)
  | .refuse on, s => (.done, s.act (.refuse on))
  | .openBroken on, s => (.done, s.act (.openBroken on))
  | .manualCommit on, s => (.done, s.act (.manualCommit on))
  | .sever channel, s => s.withConnection channel fun _ => (.done, s.act (.sever channel))
  | .failStatements channel on, s =>
    s.withConnection channel fun _ => (.done, s.act (.failStatements channel on))
  | .connection channel, s =>
    s.withConnection channel fun connection => (.connection channel connection, s)
  | .plant spot fault, s => s.plant spot fault
  | .shutDown, s =>
    s.ifLive <|
      if s.service.waiting.isEmpty then (.done, { s with service := s.service.shutDown })
      else (.refused .busy, s)

def newEvents (before after : List Event) : List Event :=
  (after.take (after.length - before.length)).reverse

/-- The sleepers that finished. A caller that came in this step is not one of them. -/
def wokenIn (callers : Nat) (s : Session) (events : List Event) : List Woken :=
  events.filterMap fun event =>
    match event with
    | .settled caller instant result =>
      if caller < callers then some ⟨s.nameOf caller, instant, result⟩ else none
    | _ => none

def step (st : Step) (s : Session) : Report × Session :=
  let (answer, after) := s.perform st
  let events := newEvents s.service.pool.backend.journal after.service.pool.backend.journal
  ({ answer
     woken := after.wokenIn s.service.callers events
     driverLog := if s.isTraced then events.filterMap Event.driverLine? else []
     metrics :=
       if after.service.isLive then some (after.service.pool.metrics after.service.now) else none },
   after)

def run : List Step → Session → List Report
  | [], _ => []
  | st :: rest, s =>
    let (report, s) := s.step st
    report :: run rest s

end Session

end ConnectionPool.Script
