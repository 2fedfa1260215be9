import ConnectionPool.Script.Direct
import ConnectionPool.Proofs.Tracking

/-!
# What the scripted driver records

The transcript of a script is the list of its steps with their answers. The driver's record can be
read off it: every attempt to open with the number that was given out, for each connection the
statements, commits and rollbacks that were answered without an error and all its closes, and
whether it has come to an end, by a close, by a break or by being opened broken. After its end a
connection answers always the same, and its record does not change. What is done to one connection
leaves the others alone.
-/

set_option autoImplicit false

namespace ConnectionPool

def Call.lastReply? : (c : Call) → Option (Reply c)
  | .isClosed => some (.ok true)
  | .setAutoCommit _ | .commit | .rollback | .execute _ => some (.error .closed)
  | .close | .autoCommit => none

namespace Scripted

def connection (channel : Nat) (s : Scripted) : Connection :=
  (s.connections[channel]?).getD { autoCommit := true }

structure Aside (channel : Nat) (s t : Scripted) : Prop where
  refusing : t.refusing = s.refusing
  openingBroken : t.openingBroken = s.openingBroken
  manualCommit : t.manualCommit = s.manualCommit
  openCalls : t.openCalls = s.openCalls
  opened : t.opened = s.opened
  others : ∀ i ≠ channel, t.connections[i]? = s.connections[i]?

namespace Connection

/-- The connection has come to its end, and its record and its mode have stayed the same since. -/
structure Final (c d : Connection) : Prop where
  isDead : d.isDead = true
  autoCommit : d.autoCommit = c.autoCommit
  statements : d.statements = c.statements
  commits : d.commits = c.commits
  rollbacks : d.rollbacks = c.rollbacks

theorem Final.refl {c : Connection} (h : c.isDead = true) : Final c c := ⟨h, rfl, rfl, rfl, rfl⟩

theorem Final.trans {c d e : Connection} (h : Final c d) (h' : Final d e) : Final c e where
  isDead := h'.isDead
  autoCommit := h'.autoCommit.trans h.autoCommit
  statements := h'.statements.trans h.statements
  commits := h'.commits.trans h.commits
  rollbacks := h'.rollbacks.trans h.rollbacks

theorem final_answer {c : Connection} (h : c.isDead = true) (call : Call) :
    Final c (c.answer call).2 ∧ ∀ reply ∈ call.lastReply?, (c.answer call).1 = reply := by
  cases call with
  | isClosed => exact ⟨.refl h, fun reply hr => by rw [← Option.some.inj hr, answer, h]⟩
  | close => exact ⟨⟨rfl, rfl, rfl, rfl, rfl⟩, fun _ hr => absurd hr (by simp [Call.lastReply?])⟩
  | autoCommit => exact ⟨.refl h, fun _ hr => absurd hr (by simp [Call.lastReply?])⟩
  | setAutoCommit enabled | commit | rollback | execute sql =>
    simp only [answer, if_pos h]
    exact ⟨.refl h, fun reply hr => Option.some.inj hr⟩

end Connection

end Scripted

namespace Script.Direct

open Scripted (Connection)

structure Line where
  step : Step
  answer : Answer

def transcript : List Step → Scripted → List Line
  | [], _ => []
  | st :: rest, s => ⟨st, (step st s).1⟩ :: transcript rest (step st s).2

def after : List Step → Scripted → Scripted
  | [], s => s
  | st :: rest, s => after rest (step st s).2

theorem answers_transcript (steps : List Step) (s : Scripted) :
    (transcript steps s).map Line.answer = run steps s := by
  induction steps generalizing s with
  | nil => rfl
  | cons st rest ih => exact congrArg ((step st s).1 :: ·) (ih (step st s).2)

namespace Line

def login? : Line → Option Login
  | ⟨.act (.connect login), _⟩ => some login
  | _ => none

def opening? : Line → Option Nat
  | ⟨.act (.connect _), .opened channel⟩ => some channel
  | _ => none

def exchange? (channel : Nat) : Line → Option (Call × Bool)
  | ⟨.act (.call i c), .reply _ r⟩ => if i = channel then some (c, r.isOk) else none
  | _ => none

def opensBroken (on : Bool) : Line → Bool
  | ⟨.act (.openBroken on), _⟩ => on
  | _ => on

def ending? (on : Bool) : Line → Option Nat
  | ⟨.act (.connect _), .opened channel⟩ => if on then some channel else none
  | ⟨.act (.call channel .close), .reply _ _⟩ => some channel
  | ⟨.act (.sever channel), .done⟩ => some channel
  | _ => none

end Line

def executed? : Call × Bool → Option String
  | (.execute sql, true) => some sql
  | _ => none

def exchanges (channel : Nat) (lines : List Line) : List (Call × Bool) :=
  lines.filterMap (Line.exchange? channel)

/-- The connections that came to an end, where connections are at first opened broken or not. -/
def endings : Bool → List Line → List Nat
  | _, [] => []
  | on, line :: rest => (line.ending? on).toList ++ endings (line.opensBroken on) rest

section Answers

variable (c : Connection) (call : Call)

theorem statements_answer :
    (c.answer call).2.statements =
      c.statements ++ [(call, (c.answer call).1.isOk)].filterMap executed? := by
  cases call with
  | isClosed | autoCommit | close => exact (List.append_nil _).symm
  | setAutoCommit enabled | commit | rollback =>
    simp only [Connection.answer]
    split_ifs <;> exact (List.append_nil _).symm
  | execute sql =>
    simp only [Connection.answer]
    split_ifs
    · exact (List.append_nil _).symm
    · exact (List.append_nil _).symm
    · rfl

theorem commits_answer :
    (c.answer call).2.commits =
      c.commits + [(call, (c.answer call).1.isOk)].count (.commit, true) := by
  cases call with
  | isClosed | autoCommit | close => rfl
  | setAutoCommit enabled | commit | rollback | execute sql =>
    simp only [Connection.answer]
    split_ifs <;> rfl

theorem rollbacks_answer :
    (c.answer call).2.rollbacks =
      c.rollbacks + [(call, (c.answer call).1.isOk)].count (.rollback, true) := by
  cases call with
  | isClosed | autoCommit | close => rfl
  | setAutoCommit enabled | commit | rollback | execute sql =>
    simp only [Connection.answer]
    split_ifs <;> rfl

theorem closeCalls_answer :
    (c.answer call).2.closeCalls =
      c.closeCalls + [(call, (c.answer call).1.isOk)].countP fun x => x.1 == .close := by
  cases call with
  | isClosed | autoCommit | close => rfl
  | setAutoCommit enabled | commit | rollback | execute sql =>
    simp only [Connection.answer]
    split_ifs <;> rfl

theorem isDead_answer : (c.answer call).2.isDead = true ↔ c.isDead = true ∨ call = .close := by
  by_cases hc : call = .close
  · subst hc
    exact iff_of_true rfl (Or.inr rfl)
  · obtain ⟨hclosed, hbroken⟩ := Connection.answer_frame call hc c
    rw [Connection.isDead, hclosed, hbroken]
    exact (or_iff_left hc).symm

end Answers

/-- The lines account for what has become of the connection. -/
structure Accounts (on : Bool) (lines : List Line) (channel : Nat) (c d : Connection) : Prop where
  statements : d.statements = c.statements ++ (exchanges channel lines).filterMap executed?
  commits : d.commits = c.commits + (exchanges channel lines).count (.commit, true)
  rollbacks : d.rollbacks = c.rollbacks + (exchanges channel lines).count (.rollback, true)
  closeCalls :
    d.closeCalls = c.closeCalls + (exchanges channel lines).countP fun x => x.1 == .close
  isDead : d.isDead = true ↔ c.isDead = true ∨ channel ∈ endings on lines

namespace Accounts

variable {on : Bool} {line : Line} {lines : List Line} {channel : Nat} {c d e : Connection}

theorem refl (on : Bool) (channel : Nat) (c : Connection) : Accounts on [] channel c c := by
  constructor <;> simp [exchanges, endings]

theorem cons (h : Accounts on [line] channel c d)
    (h' : Accounts (line.opensBroken on) lines channel d e) :
    Accounts on (line :: lines) channel c e := by
  have hx : exchanges channel (line :: lines) =
      exchanges channel [line] ++ exchanges channel lines :=
    List.filterMap_append (l := [line])
  have he : endings on (line :: lines) =
      endings on [line] ++ endings (line.opensBroken on) lines := by
    simp [endings]
  constructor
  · rw [h'.statements, h.statements, hx, List.filterMap_append, List.append_assoc]
  · rw [h'.commits, h.commits, hx, List.count_append, Nat.add_assoc]
  · rw [h'.rollbacks, h.rollbacks, hx, List.count_append, Nat.add_assoc]
  · rw [h'.closeCalls, h.closeCalls, hx, List.countP_append, Nat.add_assoc]
  · rw [h'.isDead, h.isDead, he, List.mem_append, or_assoc]

theorem recorded (hx : line.exchange? channel = none) (hs : d.statements = c.statements)
    (hc : d.commits = c.commits) (hr : d.rollbacks = c.rollbacks)
    (hcl : d.closeCalls = c.closeCalls)
    (he : d.isDead = true ↔ c.isDead = true ∨ line.ending? on = some channel) :
    Accounts on [line] channel c d := by
  have hexchanges : exchanges channel [line] = [] := by simp [exchanges, hx]
  constructor <;> simp [endings, *]

theorem unmoved (hx : line.exchange? channel = none) (he : line.ending? on ≠ some channel) :
    Accounts on [line] channel c c :=
  .recorded hx rfl rfl rfl rfl (by simp [he])

theorem call (on : Bool) (channel : Nat) (c : Connection) (call : Call) :
    Accounts on [⟨.act (.call channel call), .reply call (c.answer call).1⟩] channel c
      (c.answer call).2 := by
  have hx : exchanges channel [⟨.act (.call channel call), .reply call (c.answer call).1⟩] =
      [(call, (c.answer call).1.isOk)] := by
    simp only [exchanges, List.filterMap_cons, Line.exchange?, if_true, List.filterMap_nil]
  constructor
  · rw [hx]
    exact statements_answer c call
  · rw [hx]
    exact commits_answer c call
  · rw [hx]
    exact rollbacks_answer c call
  · rw [hx]
    exact closeCalls_answer c call
  · rw [isDead_answer]
    cases call <;> simp [endings, Line.ending?]

end Accounts

theorem connection_of_le {s : Scripted} {channel : Nat} (h : s.opened ≤ channel) :
    s.connection channel = { autoCommit := true } := by
  have hnone : s.connections[channel]? = none := List.getElem?_eq_none h
  rw [Scripted.connection, hnone, Option.getD_none]

section Records

variable (s : Scripted) (channel : Nat)

theorem connection_modify (i : Nat) (f : Connection → Connection) :
    { s with connections := s.connections.modify i f }.connection channel =
      if i = channel ∧ i < s.opened then f (s.connection channel) else s.connection channel := by
  unfold Scripted.connection
  dsimp only
  rw [List.getElem?_modify]
  cases hc : s.connections[channel]? with
  | none =>
    have hl : ¬ channel < s.opened := by simpa [Scripted.opened] using hc
    rw [if_neg fun h : i = channel ∧ i < s.opened => hl (h.1 ▸ h.2)]
    rfl
  | some c =>
    obtain ⟨hl, -⟩ := List.getElem?_eq_some_iff.mp hc
    by_cases hi : i = channel
    · simp [hi, show channel < s.opened from hl]
    · simp [hi]

theorem connection_connect (login : Login) :
    (s.connect login).2.connection channel =
      if s.refusing = false ∧ channel = s.opened then
        { autoCommit := !s.manualCommit, broken := s.openingBroken }
      else s.connection channel := by
  unfold Scripted.connect Scripted.connection Scripted.opened
  dsimp only
  cases s.refusing with
  | true => simp
  | false =>
    obtain hl | rfl | hl := Nat.lt_trichotomy channel s.connections.length
    · simp [List.getElem?_append_left hl, Nat.ne_of_lt hl]
    · simp
    · simp [List.getElem?_append_right (Nat.le_of_lt hl), Nat.ne_of_gt hl,
        Nat.le_of_lt hl, Nat.sub_ne_zero_of_lt hl]

theorem answer_connect (login : Login) :
    answer (.connect login) s =
      if s.refusing then .notOpened (.connect (login.url ++ ": connection refused"))
      else .opened s.opened := by
  unfold answer Scripted.connect
  cases s.refusing <;> rfl

theorem call_modify (i : Nat) (c : Call) :
    s.act (.call i c) =
      { s with connections := s.connections.modify i fun x => (x.answer c).2 } := by
  have h : (s.answer i c).2.connections = _ := Scripted.connections_answer i c s
  show (s.answer i c).2 = _
  rw [← h]
  unfold Scripted.answer
  split <;> rfl

theorem reply_connection (i : Nat) (c : Call) (hi : i < s.opened) :
    (s.answer i c).1 = ((s.connection i).answer c).1 := by
  unfold Scripted.answer Scripted.connection
  rw [List.getElem?_eq_getElem hi]
  rfl

end Records

structure Line.Mute (line : Line) : Prop where
  login? : line.login? = none
  opening? : line.opening? = none
  exchange? : ∀ channel, line.exchange? channel = none
  opensBroken : ∀ on, line.opensBroken on = on
  ending? : ∀ on, line.ending? on = none

theorem Line.Mute.read {st : Step} {answer : Answer}
    (h : st = .driver ∨ ∃ i, st = .connection i) : Line.Mute ⟨st, answer⟩ := by
  obtain rfl | ⟨i, rfl⟩ := h <;> exact ⟨rfl, rfl, fun _ => rfl, fun _ => rfl, fun _ => rfl⟩

theorem Line.Mute.refused {a : Scripted.Act} (h : channel? a ≠ none) :
    Line.Mute ⟨.act a, .refused .noConnection⟩ := by
  cases a with
  | connect | refuse | openBroken | manualCommit => exact absurd rfl h
  | sever | failStatements => exact ⟨rfl, rfl, fun _ => rfl, fun _ => rfl, fun _ => rfl⟩
  | call i c => exact ⟨rfl, rfl, fun _ => rfl, fun _ => rfl, fun _ => by cases c <;> rfl⟩

theorem step_cases (st : Step) (s : Scripted) :
    (Line.Mute ⟨st, (step st s).1⟩ ∧ (step st s).2 = s) ∨
      ∃ a, st = .act a ∧ (∀ i ∈ channel? a, i < s.opened) ∧ step st s = (answer a s, s.act a) := by
  cases st with
  | driver => exact .inl ⟨.read (.inl rfl), rfl⟩
  | connection i =>
    refine .inl ⟨.read (.inr ⟨i, rfl⟩), ?_⟩
    simp only [step]
    split <;> rfl
  | act a =>
    simp only [step]
    cases hc : channel? a with
    | none => exact .inr ⟨a, rfl, by simp [hc], rfl⟩
    | some i =>
      by_cases hi : s.opened ≤ i
      · simp only [Option.any_some, hi, decide_true, if_true]
        exact .inl ⟨.refused (by simp [hc]), trivial⟩
      · refine .inr ⟨a, rfl, fun j hj => ?_, by simp [hi]⟩
        obtain rfl : i = j := Option.some.inj (hc.symm.trans hj)
        exact Nat.lt_of_not_le hi

theorem accounts_step (st : Step) (s : Scripted) (channel : Nat) :
    Accounts s.openingBroken [⟨st, (step st s).1⟩] channel (s.connection channel)
      ((step st s).2.connection channel) := by
  obtain ⟨hmute, hs⟩ | ⟨a, rfl, hl, hs⟩ := step_cases st s
  · rw [hs]
    exact .unmoved (hmute.exchange? _) (by simp [hmute.ending?])
  · rw [hs]
    cases a with
    | refuse on | openBroken on | manualCommit on =>
      exact .unmoved rfl (by simp [Line.ending?])
    | failStatements i on =>
      simp only [answer, Scripted.act, connection_modify]
      split
      · exact .recorded rfl rfl rfl rfl rfl (by simp [Line.ending?, Connection.isDead])
      · exact .unmoved rfl (by simp [Line.ending?])
    | connect login =>
      rw [answer_connect]
      simp only [Scripted.act, connection_connect]
      cases hr : s.refusing with
      | true => exact .unmoved rfl (by simp [Line.ending?])
      | false =>
        by_cases hc : channel = s.opened
        · subst hc
          simp only [connection_of_le s.opened.le_refl, and_self, if_true]
          exact .recorded rfl rfl rfl rfl rfl (by simp [Line.ending?, Connection.isDead])
        · simp only [hc, and_false, if_false]
          exact .unmoved rfl (by simp [Line.ending?, Ne.symm hc])
    | sever i =>
      simp only [answer, Scripted.act, connection_modify]
      by_cases hi : i = channel
      · simp only [hi, hi ▸ hl i rfl, and_self, if_true]
        exact .recorded rfl rfl rfl rfl rfl (by simp [Line.ending?, Connection.isDead])
      · simp only [hi, false_and, if_false]
        exact .unmoved rfl (by simp [Line.ending?, hi])
    | call i c =>
      rw [call_modify, connection_modify]
      simp only [answer, reply_connection s i c (hl i rfl)]
      by_cases hi : i = channel
      · subst hi
        simp only [hl i rfl, and_self, if_true]
        exact .call _ _ _ c
      · simp only [hi, false_and, if_false]
        exact .unmoved (by simp [Line.exchange?, hi]) (by cases c <;> simp [Line.ending?, hi])

theorem opensBroken_step (st : Step) (s : Scripted) :
    (step st s).2.openingBroken = Line.opensBroken s.openingBroken ⟨st, (step st s).1⟩ := by
  obtain ⟨hmute, hs⟩ | ⟨a, rfl, -, hs⟩ := step_cases st s
  · rw [hs, hmute.opensBroken]
  · rw [hs]
    cases a with
    | refuse | openBroken | manualCommit | sever | failStatements => rfl
    | connect login =>
      simp only [Scripted.act, Scripted.connect]
      split <;> rfl
    | call i c =>
      rw [call_modify]
      rfl

theorem accounts_after (steps : List Step) (s : Scripted) (channel : Nat) :
    Accounts s.openingBroken (transcript steps s) channel (s.connection channel)
      ((after steps s).connection channel) := by
  induction steps generalizing s with
  | nil => exact .refl _ _ _
  | cons st rest ih =>
    have h := ih (step st s).2
    rw [opensBroken_step] at h
    exact .cons (accounts_step st s channel) h

theorem filterMap_after {α : Type} (read : Scripted → List α) (tell? : Line → Option α)
    (hstep : ∀ st s, read (step st s).2 = read s ++ (tell? ⟨st, (step st s).1⟩).toList)
    (steps : List Step) (s : Scripted) :
    read (after steps s) = read s ++ (transcript steps s).filterMap tell? := by
  induction steps generalizing s with
  | nil => exact (List.append_nil _).symm
  | cons st rest ih =>
    show read (after rest (step st s).2) = _
    rw [ih, hstep, List.append_assoc, transcript, ← List.singleton_append, List.filterMap_append]
    congr 2

theorem openCalls_step (st : Step) (s : Scripted) :
    (step st s).2.openCalls = s.openCalls ++ (Line.login? ⟨st, (step st s).1⟩).toList := by
  obtain ⟨hmute, hs⟩ | ⟨a, rfl, -, hs⟩ := step_cases st s
  · rw [hs, hmute.login?]
    exact (List.append_nil _).symm
  · rw [hs]
    cases a with
    | refuse | openBroken | manualCommit | sever | failStatements =>
      exact (List.append_nil _).symm
    | connect login =>
      simp only [Scripted.act, Scripted.connect]
      split <;> rfl
    | call i c =>
      rw [call_modify]
      exact (List.append_nil _).symm

theorem opened_step (st : Step) (s : Scripted) :
    List.range (step st s).2.opened =
      List.range s.opened ++ (Line.opening? ⟨st, (step st s).1⟩).toList := by
  obtain ⟨hmute, hs⟩ | ⟨a, rfl, -, hs⟩ := step_cases st s
  · rw [hs, hmute.opening?]
    exact (List.append_nil _).symm
  · rw [hs]
    cases a with
    | refuse | openBroken | manualCommit => exact (List.append_nil _).symm
    | sever | failStatements =>
      simp [Scripted.act, Scripted.opened, Line.opening?]
    | connect login =>
      rw [answer_connect]
      simp only [Scripted.act, Scripted.connect]
      cases s.refusing with
      | true => exact (List.append_nil _).symm
      | false => simp [Scripted.opened, Line.opening?, List.range_succ]
    | call i c =>
      rw [call_modify]
      simp [Scripted.opened, Line.opening?]

/-- What the steps `later` leave of a connection that has come to its end: its record, and what
it answers. -/
structure Finished (channel : Nat) (s : Scripted) (later : List Step) : Prop where
  record : (s.connection channel).Final ((after later s).connection channel)
  replies : ∀ line ∈ transcript later s, ∀ c, line.step = .act (.call channel c) →
    ∀ reply ∈ c.lastReply?, line.answer = .reply c reply

theorem lt_opened_of_isDead {s : Scripted} {channel : Nat}
    (h : (s.connection channel).isDead = true) : channel < s.opened := by
  by_contra hl
  rw [connection_of_le (Nat.le_of_not_lt hl)] at h
  exact Bool.noConfusion h

theorem final_step (st : Step) {s : Scripted} {channel : Nat}
    (h : (s.connection channel).isDead = true) :
    (s.connection channel).Final ((step st s).2.connection channel) ∧
      ∀ c, st = .act (.call channel c) →
        ∀ reply ∈ c.lastReply?, (step st s).1 = .reply c reply := by
  obtain ⟨hmute, hs⟩ | ⟨a, rfl, hl, hs⟩ := step_cases st s
  · rw [hs]
    refine ⟨.refl h, fun c hst => ?_⟩
    subst hst
    have hl : ¬ s.opened ≤ channel := Nat.not_le_of_lt (lt_opened_of_isDead h)
    exact absurd (hmute.exchange? channel) (by simp [step, channel?, hl, answer, Line.exchange?])
  · rw [hs]
    cases a with
    | refuse | openBroken | manualCommit =>
      exact ⟨.refl h, fun _ hst => Scripted.Act.noConfusion (Step.act.inj hst)⟩
    | failStatements i on | sever i =>
      simp only [Scripted.act, connection_modify]
      split
      · refine ⟨⟨by simp_all [Connection.isDead], rfl, rfl, rfl, rfl⟩, fun _ hst => ?_⟩
        exact Scripted.Act.noConfusion (Step.act.inj hst)
      · exact ⟨.refl h, fun _ hst => Scripted.Act.noConfusion (Step.act.inj hst)⟩
    | connect login =>
      have hne : channel ≠ s.opened := Nat.ne_of_lt (lt_opened_of_isDead h)
      simp only [Scripted.act, connection_connect, hne, and_false, if_false]
      exact ⟨.refl h, fun _ hst => Scripted.Act.noConfusion (Step.act.inj hst)⟩
    | call i c =>
      rw [call_modify, connection_modify]
      obtain ⟨hfinal, hreplies⟩ := Scripted.Connection.final_answer h c
      simp only [answer, reply_connection s i c (hl i rfl)]
      by_cases hi : i = channel
      · subst hi
        simp only [hl i rfl, and_self, if_true]
        refine ⟨hfinal, fun c' hc' reply hr => ?_⟩
        obtain ⟨-, rfl⟩ := by simpa using hc'
        rw [hreplies reply hr]
      · simp only [hi, false_and, if_false]
        exact ⟨.refl h, fun c' hc' => absurd (by simpa using hc') fun h : _ ∧ _ => hi h.1⟩

theorem finished (later : List Step) {s : Scripted} {channel : Nat}
    (h : (s.connection channel).isDead = true) : Finished channel s later := by
  induction later generalizing s with
  | nil => exact ⟨.refl h, by simp [transcript]⟩
  | cons st rest ih =>
    obtain ⟨hfinal, hreplies⟩ := final_step st h
    have hrest := ih hfinal.isDead
    refine ⟨hfinal.trans hrest.record, ?_⟩
    intro line hline
    obtain rfl | hline := List.mem_cons.mp hline
    · exact hreplies
    · exact hrest.replies line hline

theorem aside_act {a : Scripted.Act} {channel : Nat} (h : channel? a = some channel)
    (s : Scripted) : Scripted.Aside channel s (s.act a) := by
  have hothers (f : Connection → Connection) (i : Nat) (hi : i ≠ channel) :
      (s.connections.modify channel f)[i]? = s.connections[i]? :=
    List.getElem?_modify_ne _ _ (Ne.symm hi)
  cases a with
  | connect | refuse | openBroken | manualCommit => nomatch h
  | sever | failStatements =>
    obtain rfl := Option.some.inj h
    exact ⟨rfl, rfl, rfl, rfl, List.length_modify .., hothers _⟩
  | call i c =>
    obtain rfl := Option.some.inj h
    rw [call_modify]
    exact ⟨rfl, rfl, rfl, rfl, List.length_modify .., hothers _⟩

theorem connections_act {a : Scripted.Act} (h : channel? a = none) (s : Scripted) (i : Nat)
    (hi : i < s.opened) : (s.act a).connections[i]? = s.connections[i]? := by
  cases a with
  | sever | failStatements | call => nomatch h
  | refuse | openBroken | manualCommit => rfl
  | connect login =>
    simp only [Scripted.act, Scripted.connect]
    split
    · rfl
    · exact List.getElem?_append_left hi

structure Recorded (lines : List Line) (channel : Nat) (c : Connection) : Prop where
  statements : c.statements = (exchanges channel lines).filterMap executed?
  commits : c.commits = (exchanges channel lines).count (.commit, true)
  rollbacks : c.rollbacks = (exchanges channel lines).count (.rollback, true)
  closeCalls : c.closeCalls = (exchanges channel lines).countP fun x => x.1 == .close
  isDead : c.isDead = true ↔ channel ∈ endings false lines

/-- The lines tell everything that is recorded of a driver. -/
structure Truthful (lines : List Line) (s : Scripted) : Prop where
  openCalls : s.openCalls = lines.filterMap Line.login?
  numbered : lines.filterMap Line.opening? = List.range s.opened
  connections : ∀ channel c, s.connections[channel]? = some c → Recorded lines channel c

theorem truthful_after (steps : List Step) : Truthful (transcript steps {}) (after steps {}) where
  openCalls := filterMap_after Scripted.openCalls Line.login? openCalls_step steps {}
  numbered := (filterMap_after (List.range ·.opened) Line.opening? opened_step steps {}).symm
  connections := by
    intro channel c hc
    have h := accounts_after steps {} channel
    have hat : (after steps {}).connection channel = c := by
      simp [Scripted.connection, hc]
    rw [hat, connection_of_le (Nat.zero_le channel)] at h
    constructor
    · simpa using h.statements
    · simpa using h.commits
    · simpa using h.rollbacks
    · simpa using h.closeCalls
    · simpa [Connection.isDead] using h.isDead

theorem isDead_of_ending {steps : List Step} {channel : Nat}
    (h : channel ∈ endings false (transcript steps {})) :
    ((after steps {}).connection channel).isDead = true :=
  (accounts_after steps {} channel).isDead.mpr (.inr h)

/-- What a new driver records of any steps, and what any later steps leave of it. -/
theorem record_truthful (steps later : List Step) :
    Truthful (transcript steps {}) (after steps {}) ∧
      (∀ channel ∈ endings false (transcript steps {}),
        Finished channel (after steps {}) later) ∧
      ∀ a, match channel? a with
        | some channel => Scripted.Aside channel (after steps {}) ((after steps {}).act a)
        | none => ∀ i < (after steps {}).opened,
          ((after steps {}).act a).connections[i]? = (after steps {}).connections[i]? := by
  refine ⟨truthful_after steps, fun channel h => finished later (isDead_of_ending h), fun a => ?_⟩
  split
  · exact aside_act ‹_› _
  · exact connections_act ‹_› _

theorem record_truthful_commitAfterSever :
    let steps : List Step :=
      [.act (.connect ⟨"mock://localhost/test", ⟨"sa", "secret"⟩⟩),
        .act (.call 0 (.execute "SELECT 1")), .act (.sever 0)]
    let later : List Step := [.act (.call 0 .commit)]
    Truthful (transcript steps {}) (after steps {}) ∧
      0 ∈ endings false (transcript steps {}) ∧ Finished 0 (after steps {}) later ∧
      channel? (.failStatements 0 true) = some 0 ∧
      Scripted.Aside 0 (after steps {}) ((after steps {}).act (.failStatements 0 true)) :=
  have h := record_truthful _ _
  ⟨h.1, by decide, h.2.1 0 (by decide), rfl, h.2.2 (.failStatements 0 true)⟩

end Script.Direct

end ConnectionPool
