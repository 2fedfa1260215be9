import ConnectionPool.Driver.Faulty
import ConnectionPool.Driver.Scripted
import ConnectionPool.Proofs.Turns

/-!
# Redaction

Redacting blots out the passwords and the type codes, which are made of them. What does not look at
either does the same whether its input has been redacted or not. That is said once for each
operation, in this form: what it makes of redacted input is what it makes of the input, redacted.
Two operations make type codes themselves, lending and resetting; what they make has to be redacted
as well. Only a return compares type codes.
-/

set_option autoImplicit false

namespace ConnectionPool

def Credentials.redact (c : Credentials) : Credentials := { c with password := "" }

def Login.redact (l : Login) : Login := { l with credentials := l.credentials.redact }

def Config.redact (c : Config) : Config := { c with password := "" }

def Entry.redact (e : Entry) : Entry := { e with typeCode := 0 }

def Candidate.redact : Candidate → Candidate
  | found e => found e.redact
  | refused error => refused error
  | saturated => saturated

def Request.redact (r : Request) : Request := { r with credentials := r.credentials.redact }

def Outcome.redact : Outcome → Outcome
  | granted e => granted e.redact
  | failed error => failed error
  | saturated r => saturated r.redact

def Event.redact : Event → Event
  | connect login result => connect login.redact result
  | call channel c reply => call channel c reply
  | examined caller e sound others limit => examined caller e.redact sound others limit
  | claimed caller e held => claimed caller e.redact held
  | granted caller e => granted caller e.redact
  | returned e lent status => returned e.redact lent status
  | shelved e => shelved e.redact
  | drained e lent => drained e.redact lent
  | slept caller => slept caller
  | woke caller span => woke caller span
  | settled caller instant result => settled caller instant (result.map Entry.redact)

theorem Entry.map_redact (entries : List Entry) :
    (entries.map redact).map redact = entries.map redact := by
  simp [redact]

theorem Except.map_redact (result : Except PoolError Entry) :
    (result.map Entry.redact).map Entry.redact = result.map Entry.redact := by
  cases result <;> rfl

theorem Event.redact_redact (event : Event) : event.redact.redact = event.redact := by
  cases event with
  | settled caller instant result =>
    exact congrArg (settled caller instant) (Except.map_redact result)
  | _ => rfl

/-- A driver that looks at no password. It may keep those that it is given. -/
class Discreet (σ : Type) [Driver σ] where
  redact : σ → σ
  redact_redact : ∀ d, redact (redact d) = redact d
  connect : ∀ (login : Login) (d : σ),
    Driver.connect login.redact (redact d) = Prod.map id redact (Driver.connect login d)
  answer : ∀ (channel : Nat) (c : Call) (d : σ),
    Driver.answer channel c (redact d) = Prod.map id redact (Driver.answer channel c d)

def Scripted.redact (d : Scripted) : Scripted :=
  { d with openCalls := d.openCalls.map Login.redact }

theorem Scripted.connect_redact (login : Login) (d : Scripted) :
    d.redact.connect login.redact = Prod.map id redact (d.connect login) := by
  have hcalls : d.redact.openCalls ++ [login.redact] =
      (d.openCalls ++ [login]).map Login.redact := by simp [redact]
  have hrefusing : d.redact.refusing = d.refusing := rfl
  unfold connect
  rw [hcalls]
  dsimp only
  rw [hrefusing]
  split <;> rfl

theorem Scripted.answer_redact (channel : Nat) (c : Call) (d : Scripted) :
    d.redact.answer channel c = Prod.map id redact (d.answer channel c) := by
  have hconnections : d.redact.connections = d.connections := rfl
  unfold answer
  rw [hconnections]
  cases d.connections[channel]? <;> rfl

instance : Discreet Scripted where
  redact := Scripted.redact
  redact_redact d := by simp [Scripted.redact, Login.redact, Credentials.redact]
  connect := Scripted.connect_redact
  answer := Scripted.answer_redact

namespace Faulty

variable {σ : Type} [Driver σ] [Discreet σ]

def redact (d : Faulty σ) : Faulty σ := { d with behind := Discreet.redact d.behind }

theorem connect_redact (login : Login) (d : Faulty σ) :
    d.redact.connect login.redact = Prod.map id redact (d.connect login) := by
  have hfault : d.redact.onConnect = d.onConnect := rfl
  unfold connect
  rw [hfault]
  cases Fault.meet d.onConnect with
  | mk error? left =>
    cases error? with
    | some error => rfl
    | none =>
      dsimp only [redact]
      rw [Discreet.connect]
      cases Driver.connect login d.behind with
      | mk result behind => cases result <;> rfl

theorem answer_redact (channel : Nat) (c : Call) (d : Faulty σ) :
    d.redact.answer channel c = Prod.map id redact (d.answer channel c) := by
  have hfaults : d.redact.channels = d.channels := rfl
  unfold answer
  rw [hfaults]
  cases Faults.meet c.method ((d.channels[channel]?).getD []) with
  | mk error? left =>
    cases error? with
    | some error => rfl
    | none =>
      dsimp only [redact]
      rw [Discreet.answer]
      rfl

instance : Discreet (Faulty σ) where
  redact := redact
  redact_redact d := by simp [redact, Discreet.redact_redact]
  connect := connect_redact
  answer := answer_redact

end Faulty

namespace Backend

variable {σ : Type} [Driver σ] [Discreet σ]

def redact (b : Backend σ) : Backend σ where
  driver := Discreet.redact b.driver
  opened := b.opened
  journal := b.journal.map Event.redact

theorem redact_redact (b : Backend σ) : b.redact.redact = b.redact := by
  simp [redact, Discreet.redact_redact, Event.redact_redact]

theorem connect_redact (login : Login) (b : Backend σ) :
    b.redact.connect login.redact = Prod.map id redact (b.connect login) := by
  unfold connect
  dsimp only [redact]
  rw [Discreet.connect]
  cases Driver.connect login b.driver with
  | mk result driver => cases result <;> rfl

theorem call_redact (channel : Nat) (c : Call) (b : Backend σ) :
    b.redact.call channel c = Prod.map id redact (b.call channel c) := by
  unfold call
  dsimp only [redact]
  rw [Discreet.answer]
  rfl

theorem undo_redact (channel : Nat) (b : Backend σ) :
    b.redact.undo channel = (b.undo channel).redact := by
  unfold undo
  rw [call_redact]
  cases b.call channel .autoCommit with
  | mk reply b₁ =>
    cases reply with
    | error e => rfl
    | ok value =>
      cases value with
      | true => rfl
      | false => exact congrArg Prod.snd (call_redact channel .rollback b₁)

theorem close_redact (channel : Nat) (b : Backend σ) :
    b.redact.close channel = (b.close channel).redact := by
  unfold close
  rw [undo_redact, call_redact]
  cases (b.undo channel).call channel .isClosed with
  | mk reply b₁ =>
    have hclose := congrArg Prod.snd (call_redact channel .close b₁)
    cases reply with
    | error e => exact hclose
    | ok value =>
      cases value with
      | true => rfl
      | false => exact hclose

theorem ping_redact (channel : Nat) (query : String) (b : Backend σ) :
    b.redact.ping channel query = Prod.map id redact (b.ping channel query) := by
  unfold ping
  rw [call_redact]
  cases b.call channel (.execute query) with
  | mk reply b₁ =>
    cases reply with
    | error e => rfl
    | ok value =>
      dsimp only [Prod.map, id]
      rw [call_redact]
      cases b₁.call channel .autoCommit with
      | mk reply₂ b₂ =>
        cases reply₂ with
        | error e => rfl
        | ok value₂ =>
          cases value₂ with
          | true => rfl
          | false =>
            dsimp only [Prod.map, id]
            rw [call_redact]
            cases b₂.call channel .rollback with
            | mk reply₃ b₃ => cases reply₃ <;> rfl

theorem probe_redact (channel : Nat) (query : Option String) (b : Backend σ) :
    b.redact.probe channel query = Prod.map id redact (b.probe channel query) := by
  unfold probe
  rw [call_redact]
  cases b.call channel .isClosed with
  | mk reply b₁ =>
    cases reply with
    | error e => rfl
    | ok value =>
      cases value with
      | true => rfl
      | false =>
        cases query with
        | none => rfl
        | some query =>
          dsimp only [Prod.map, id]
          rw [ping_redact]
          cases b₁.ping channel query with
          | mk sound b₂ =>
            cases sound with
            | true => rfl
            | false =>
              have hclose := congrArg Prod.snd (call_redact channel .close b₂)
              exact congrArg (Prod.mk false) hclose

end Backend

namespace Pool

variable {σ : Type}

def lend [Driver σ] (code : UInt64) (now : Nat) (r : Request) (e : Entry) (p : Pool σ) :
    Entry × Pool σ :=
  (e.lent code now,
    { p.undo e with
      active := (p.undo e).active ++ [e.lent code now]
      tally := (p.undo e).tally.addRequest (now - r.startedAt) }.note
        (.granted r.caller (e.lent code now)))

def emptied (code : UInt64) (p : Pool σ) : Pool σ :=
  { p with expectedTypeCode := code, active := [], idle := [] }

variable [Driver σ]

/-- Tries one candidate; `next` is how the search goes on if it is bad. -/
def seekOnce (now : Nat) (next : Request → Pool σ → Outcome × Pool σ) (r : Request) (p : Pool σ) :
    Outcome × Pool σ :=
  match p.nextCandidate now r.caller with
  | (.refused e, p) => (.failed (.create e), p)
  | (.saturated, p) =>
    if p.active.isEmpty then (.failed .unavailable, p) else (.saturated r, p)
  | (.found e, p) =>
    match p.examine now r.caller e with
    | (true, p) => (.granted (p.grant now r e).1, (p.grant now r e).2)
    | (false, p) => next r (p.reject e)

theorem seekWithin_zero (now : Nat) (r : Request) (p : Pool σ) :
    seekWithin now 0 r p = seekOnce now (fun r p => (.failed r.exhaustion, p)) r p := by
  rw [seekWithin]
  rfl

theorem seekWithin_succ (now left : Nat) (r : Request) (p : Pool σ) :
    seekWithin now (left + 1) r p =
      seekOnce now (fun r => seekWithin now left { r with strikes := r.strikes + 1 }) r p := by
  rw [seekWithin]
  rfl

theorem grant_eq_lend (now : Nat) (r : Request) (e : Entry) (p : Pool σ) :
    p.grant now r e = p.lend (Login.typeCode ⟨(p.undo e).config.url, r.credentials⟩) now r e := rfl

theorem reset_eq_emptied (p : Pool σ) :
    p.reset = p.idle.foldr (drain false) (p.active.foldr (drain true)
      (p.emptied p.config.expectedTypeCode)) := rfl

variable [Discreet σ]

def redact (p : Pool σ) : Pool σ :=
  { p with
    backend := p.backend.redact
    config := p.config.redact
    expectedTypeCode := 0
    idle := p.idle.map Entry.redact
    active := p.active.map Entry.redact }

theorem redact_redact (p : Pool σ) : p.redact.redact = p.redact := by
  simp [redact, Backend.redact_redact, Entry.redact, Config.redact]

theorem retire_redact (id : Nat) (how : Status) (p : Pool σ) :
    p.redact.retire id how = (p.retire id how).redact := by
  have hstatus : p.redact.status id = p.status id := rfl
  unfold retire
  rw [hstatus]
  split <;> rfl

theorem undo_redact (e : Entry) (p : Pool σ) : p.redact.undo e.redact = (p.undo e).redact := by
  have h := Backend.undo_redact e.channel p.backend
  show { p.redact with backend := p.backend.redact.undo e.channel } = _
  rw [h]
  rfl

theorem close_redact (e : Entry) (p : Pool σ) : p.redact.close e.redact = (p.close e).redact := by
  have h := Backend.close_redact e.channel p.backend
  show { p.redact with backend := p.backend.redact.close e.channel } = _
  rw [h]
  rfl

theorem discard_redact (e : Entry) (p : Pool σ) :
    p.redact.discard e.redact = (p.discard e).redact := by
  show (p.redact.retire e.id .invalidated).close e.redact = _
  rw [retire_redact, close_redact]
  rfl

theorem drain_redact (lent : Bool) (e : Entry) (p : Pool σ) :
    p.redact.drain lent e.redact = (p.drain lent e).redact :=
  discard_redact e (p.note (.drained e lent))

theorem drainAll_redact (lent : Bool) (entries : List Entry) (p : Pool σ) :
    (entries.map Entry.redact).foldr (drain lent) p.redact =
      (entries.foldr (drain lent) p).redact := by
  induction entries with
  | nil => rfl
  | cons e rest ih => rw [List.map_cons, List.foldr_cons, ih, drain_redact, List.foldr_cons]

theorem reset_redact (p : Pool σ) : p.redact.reset.redact = p.reset.redact := by
  have hidle : p.redact.idle = p.idle.map Entry.redact := rfl
  have hactive : p.redact.active = p.active.map Entry.redact := rfl
  have hempty : (p.redact.emptied p.redact.config.expectedTypeCode).redact =
      (p.emptied p.config.expectedTypeCode).redact := redact_redact (p.emptied 0)
  rw [reset_eq_emptied, reset_eq_emptied, ← drainAll_redact, ← drainAll_redact, ← drainAll_redact,
    ← drainAll_redact, hempty, hidle, hactive, Entry.map_redact, Entry.map_redact]

theorem hasRoom_redact (p : Pool σ) : p.redact.hasRoom = p.hasRoom := by
  simp [hasRoom, redact, Config.redact]

theorem openLink_redact (now : Nat) (p : Pool σ) :
    p.redact.openLink now = Prod.map Candidate.redact redact (p.openLink now) := by
  have h : p.redact.backend.connect p.redact.config.login = _ :=
    Backend.connect_redact p.config.login p.backend
  unfold openLink
  rw [h]
  cases p.backend.connect p.config.login with
  | mk result b => cases result <;> rfl

theorem openIfRoom_redact (now : Nat) (p : Pool σ) :
    p.redact.openIfRoom now = Prod.map Candidate.redact redact (p.openIfRoom now) := by
  unfold openIfRoom
  rw [hasRoom_redact]
  split
  · exact openLink_redact now p
  · rfl

theorem claim_redact (now caller : Nat) (p : Pool σ) :
    p.redact.claim now caller = Prod.map Candidate.redact redact (p.claim now caller) := by
  cases ha : p.active with
  | nil =>
    have har : p.redact.active = [] := by simp [redact, ha]
    simp only [claim, ha, har]
    rfl
  | cons oldest rest =>
    have har : p.redact.active = oldest.redact :: rest.map Entry.redact := by simp [redact, ha]
    have hunlend : p.redact.unlend now caller oldest.redact (rest.map Entry.redact) =
        (p.unlend now caller oldest rest).redact := rfl
    have hover : p.redact.takeOver now caller oldest.redact (rest.map Entry.redact) =
        (p.takeOver now caller oldest rest).redact := by
      unfold takeOver
      rw [hunlend, retire_redact, undo_redact]
      rfl
    rw [claim_eq now caller oldest rest p ha, claim_eq now caller _ _ p.redact har]
    show (if oldest.heldFor now ≤ p.config.maxCheckout then _
      else if p.status oldest.id = .valid then _ else _) = _
    split
    · rfl
    · split
      · rw [hover]
        rfl
      · rw [hunlend, close_redact]
        exact openIfRoom_redact now _

theorem nextCandidate_redact (now caller : Nat) (p : Pool σ) :
    p.redact.nextCandidate now caller =
      Prod.map Candidate.redact redact (p.nextCandidate now caller) := by
  unfold nextCandidate
  cases hi : p.idle with
  | nil =>
    have hir : p.redact.idle = [] := by simp [redact, hi]
    rw [hir, hasRoom_redact]
    dsimp only
    split
    · exact openLink_redact now p
    · exact claim_redact now caller p
  | cons e rest =>
    have hir : p.redact.idle = e.redact :: rest.map Entry.redact := by simp [redact, hi]
    rw [hir]
    rfl

theorem examine_redact (now caller : Nat) (e : Entry) (p : Pool σ) :
    p.redact.examine now caller e.redact = Prod.map id redact (p.examine now caller e) := by
  have hidle : p.redact.idle.length = p.idle.length := List.length_map _
  have hactive : p.redact.active.length = p.active.length := List.length_map _
  have hprobe : p.redact.backend.probe e.redact.channel
      (pingQuery? (e.redact.unusedFor now) p.redact.config) =
        Prod.map id Backend.redact
          (p.backend.probe e.channel (pingQuery? (e.unusedFor now) p.config)) :=
    Backend.probe_redact _ _ _
  unfold examine
  rw [hprobe, hidle, hactive]
  rfl

theorem reject_redact (e : Entry) (p : Pool σ) :
    p.redact.reject e.redact = (p.reject e).redact :=
  discard_redact e { p with tally := p.tally.addBad }

theorem lend_redact (code : UInt64) (now : Nat) (r : Request) (e : Entry) (p : Pool σ) :
    p.redact.lend 0 now r.redact e.redact =
      Prod.map Entry.redact redact (p.lend code now r e) := by
  unfold lend
  rw [undo_redact]
  simp [redact, Prod.map, note, Backend.note, Backend.redact, Event.redact, Entry.redact,
    Entry.lent, Request.redact]

theorem grant_redact (now : Nat) (r : Request) (e : Entry) (p : Pool σ) :
    Prod.map Entry.redact redact (p.redact.grant now r.redact e.redact) =
      Prod.map Entry.redact redact (p.grant now r e) := by
  rw [grant_eq_lend, grant_eq_lend, ← lend_redact, ← lend_redact, redact_redact]
  rfl

theorem seekOnce_redact (now : Nat) (next : Request → Pool σ → Outcome × Pool σ) (r : Request)
    (p : Pool σ)
    (h : ∀ r p, Prod.map Outcome.redact redact (next (Request.redact r) (redact p)) =
      Prod.map Outcome.redact redact (next r p)) :
    Prod.map Outcome.redact redact (seekOnce now next r.redact p.redact) =
      Prod.map Outcome.redact redact (seekOnce now next r p) := by
  have hcaller : r.redact.caller = r.caller := rfl
  unfold seekOnce
  rw [hcaller, nextCandidate_redact]
  cases p.nextCandidate now r.caller with
  | mk candidate q =>
    cases candidate with
    | refused error => exact congrArg (Prod.mk _) (redact_redact q)
    | saturated =>
      have hempty : q.redact.active.isEmpty = q.active.isEmpty := List.isEmpty_map
      dsimp only [Prod.map, Candidate.redact]
      rw [hempty]
      split
      · exact congrArg (Prod.mk _) (redact_redact q)
      · exact congrArg (Prod.mk _) (redact_redact q)
    | found e =>
      dsimp only [Prod.map, Candidate.redact]
      rw [examine_redact]
      cases q.examine now r.caller e with
      | mk sound q' =>
        cases sound with
        | true =>
          have hg := grant_redact now r e q'
          have hentry := congrArg Prod.fst hg
          have hpool := congrArg Prod.snd hg
          exact Prod.ext (congrArg Outcome.granted hentry) hpool
        | false =>
          dsimp only [Prod.map, id]
          rw [reject_redact]
          exact h r (q'.reject e)

theorem seekWithin_redact (now left : Nat) (r : Request) (p : Pool σ) :
    Prod.map Outcome.redact redact (seekWithin now left r.redact p.redact) =
      Prod.map Outcome.redact redact (seekWithin now left r p) := by
  induction left generalizing r p with
  | zero =>
    rw [seekWithin_zero, seekWithin_zero]
    apply seekOnce_redact
    intro r p
    exact congrArg (Prod.mk _) (redact_redact p)
  | succ left ih =>
    rw [seekWithin_succ, seekWithin_succ]
    apply seekOnce_redact
    intro r p
    exact ih { r with strikes := r.strikes + 1 } p

theorem seek_redact (now : Nat) (r : Request) (p : Pool σ) :
    Prod.map Outcome.redact redact (p.redact.seek now r.redact) =
      Prod.map Outcome.redact redact (p.seek now r) :=
  seekWithin_redact now _ r p

theorem takeOut_redact (e : Entry) (p : Pool σ) :
    p.redact.takeOut e.redact = (p.takeOut e).redact := by
  simp [takeOut, redact, note, Backend.note, Backend.redact, Event.redact, List.any_map,
    List.eraseP_map, Function.comp_def, Entry.redact, status]

theorem shelve_redact (e : Entry) (p : Pool σ) :
    p.redact.shelve e.redact = (p.shelve e).redact := by
  have hid : e.redact.id = e.id := rfl
  unfold shelve
  rw [undo_redact, hid, retire_redact]
  simp [redact, note, Backend.note, Backend.redact, Event.redact, Entry.redact, Entry.successor]

theorem takeBack_redact (now : Nat) (e : Entry) (p : Pool σ)
    (h : p.status e.id = .valid → e.typeCode = p.expectedTypeCode) :
    p.redact.takeBack now e.redact = Prod.map id redact (p.takeBack now e) := by
  have hstatus : p.redact.status e.redact.id = p.status e.id := rfl
  have hidle : p.redact.idle.length = p.idle.length := List.length_map _
  rw [takeBack_eq, takeBack_eq, hstatus, takeOut_redact]
  cases hs : p.status e.id with
  | superseded => rfl
  | invalidated =>
    exact congrArg (Prod.mk false) (close_redact e { p.takeOut e with tally := p.tally.addBad })
  | valid =>
    have hkeeps : p.redact.keeps e.redact ↔ p.keeps e := by
      unfold keeps
      rw [hidle, h hs]
      simp [redact, Entry.redact, Config.redact]
    by_cases hk : p.keeps e
    · rw [if_pos hk]
      dsimp only
      rw [if_pos (hkeeps.mpr hk)]
      exact congrArg (Prod.mk true) (shelve_redact e
        { p.takeOut e with tally := p.tally.addCheckout (e.heldFor now) })
    · rw [if_neg hk]
      dsimp only
      rw [if_neg (mt hkeeps.mp hk)]
      exact congrArg (Prod.mk false) (discard_redact e
        { p.takeOut e with tally := p.tally.addCheckout (e.heldFor now) })

end Pool

end ConnectionPool
