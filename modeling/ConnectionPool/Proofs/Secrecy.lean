import ConnectionPool.Proofs.Capacity
import ConnectionPool.Proofs.Indifference
import ConnectionPool.Script.Session
import Mathlib.Data.List.Forall2

/-!
# The password is kept secret

Two pools have the same configuration but for the password, and the same is done to both. Then
whatever can be seen of one can be seen of the other: what each step answers, who is woken and with
what, what reaches the driver and what is counted. Only the password itself, where the configuration
is asked for or a connection is opened, and the type codes made of it can tell them apart.
-/

set_option autoImplicit false

namespace ConnectionPool

def Config.Change.isOfLogin : Change → Bool
  | .url _ | .username _ | .password _ => true
  | _ => false

namespace Config

theorem change_frame (x : Change) (hx : x.isOfLogin = false) (c : Config) :
    (c.change x).redact = c.redact.change x ∧ (c.change x).login = c.login := by
  cases x with
  | url value | username value | password value => exact Bool.noConfusion hx
  | _ => exact ⟨rfl, rfl⟩

theorem changeAll_frame (changes : List Change) (h : ∀ x ∈ changes, x.isOfLogin = false)
    (c : Config) :
    (c.changeAll changes).redact = c.redact.changeAll changes ∧
      (c.changeAll changes).login = c.login := by
  induction changes generalizing c with
  | nil => exact ⟨rfl, rfl⟩
  | cons x rest ih =>
    obtain ⟨hredact, hlogin⟩ := change_frame x (h x List.mem_cons_self) c
    have hrest := ih (fun y hy => h y (List.mem_cons_of_mem x hy)) (c.change x)
    rw [hredact, hlogin] at hrest
    exact hrest

theorem text_redact (c : Config) : c.redact.text = c.text := rfl

theorem validate_redact (c : Config) : c.redact.validate = c.validate := rfl

end Config

def Metrics.redact (m : Metrics) : Metrics := { m with config := m.config.redact }

theorem Metrics.shownPassword_eq {password password' : String} (h : password ≠ "")
    (h' : password' ≠ "") : shownPassword password = shownPassword password' := by
  simp [shownPassword, String.isEmpty_iff, h, h']

theorem Metrics.report_alike {m m' : Metrics} (h : m.redact = m'.redact)
    (hm : m.config.password ≠ "") (hm' : m'.config.password ≠ "") : m.report = m'.report := by
  have hshown := shownPassword_eq hm hm'
  have hreport (n : Metrics) : n.report =
      { n.redact with config := { n.redact.config with password := n.config.password } }.report :=
    rfl
  rw [hreport m, hreport m', h]
  unfold report
  dsimp only
  rw [hshown]

namespace Script

def Lease.redact (l : Lease) : Lease := { l with typeCode := 0 }

def Woken.redact (w : Woken) : Woken := { w with result := w.result.map Entry.redact }

def shownHandle (e : Entry) (status : Status) (released : Bool) : String :=
  Text.record "PooledConnection" [
    ⟨"entry", e.text status⟩,
    ⟨"released", toString released⟩]

/-- The answers are the same but for type codes, for the password in a configuration and for those
that came with requests to open; texts of configurations and of metrics are the same. -/
inductive Answer.Alike : Answer → Answer → Prop
  | same (a : Answer) : Alike a a
  | lease (l l' : Lease) (h : l.redact = l'.redact) : Alike (.lease l) (.lease l')
  | handleText (e e' : Entry) (status : Status) (released : Bool) (h : e.redact = e'.redact) :
      Alike (.text (shownHandle e status released)) (.text (shownHandle e' status released))
  | config (c c' : Config) (h : c.redact = c'.redact) (htext : c.text = c'.text) :
      Alike (.config c) (.config c')
  | metrics (m m' : Metrics) (h : m.redact = m'.redact) (hreport : m.report = m'.report) :
      Alike (.metrics m) (.metrics m')
  | driver (d d' : Scripted) (h : d.redact = d'.redact) : Alike (.driver d) (.driver d')

/-- The lines are the same, or both tell of a connection that was to be opened. -/
inductive LineAlike : String → String → Prop
  | same (line : String) : LineAlike line line
  | connect (login login' : Login) (h : login.redact = login'.redact) :
      LineAlike (Event.connectLine login) (Event.connectLine login')

structure Report.Alike (r r' : Report) : Prop where
  answer : r.answer.Alike r'.answer
  woken : r.woken.map Woken.redact = r'.woken.map Woken.redact
  driverLog : List.Forall₂ LineAlike r.driverLog r'.driverLog
  metrics : r.metrics.map Metrics.redact = r'.metrics.map Metrics.redact
  report : r.metrics.map Metrics.report = r'.metrics.map Metrics.report

/-- Nobody brings credentials of his own, and the login stays. -/
def Step.keepsLogin : Step → Bool
  | .acquire _ (.signedIn _) => false
  | .reconfigure changes => changes.all fun x => !x.isOfLogin
  | _ => true

theorem Step.not_isOfLogin {changes : List Config.Change}
    (h : (Step.reconfigure changes).keepsLogin = true) : ∀ x ∈ changes, x.isOfLogin = false := by
  simpa [keepsLogin] using h

namespace Session

structure Alike (s t : Session) : Prop where
  service : s.service.Alike t.service
  names : s.names = t.names
  tokens : s.tokens = t.tokens
  isTraced : s.isTraced = t.isTraced

def Agree (x y : Answer × Session) : Prop := x.1.Alike y.1 ∧ x.2.Alike y.2

variable {s t : Session}

theorem Alike.withService (h : s.Alike t) {v v' : Service (Faulty Scripted)} (hv : v.Alike v') :
    Alike { s with service := v } { t with service := v' } := ⟨hv, h.names, h.tokens, h.isTraced⟩

theorem Alike.refused (h : s.Alike t) (why : Refusal) :
    Agree (.refused why, s) (.refused why, t) := ⟨.same _, h⟩

theorem Alike.done (h : s.Alike t) {v v' : Service (Faulty Scripted)} (hv : v.Alike v') :
    Agree (.done, { s with service := v }) (.done, { t with service := v' }) :=
  ⟨.same _, h.withService hv⟩

theorem handles_alike (h : s.Alike t) (i : Nat) :
    s.service.handles[i]?.map Handle.redact = t.service.handles[i]?.map Handle.redact := by
  have hs := congrArg (fun handles => handles[i]?) h.service.handles
  simpa using hs

theorem driver_alike (h : s.Alike t) : s.driver.redact = t.driver.redact :=
  congrArg (fun p => p.backend.driver) h.service.pool

theorem handle?_alike (h : s.Alike t) (name : String) : s.handle? name = t.handle? name := by
  have hfind (caller : Nat) :
      (s.service.handles.findIdx? fun x => x.caller == caller) =
        t.service.handles.findIdx? fun x => x.caller == caller := by
    apply h.service.same fun u => u.handles.findIdx? fun x => x.caller == caller
    intro u
    simp [Service.redact, List.findIdx?_map, Function.comp_def, Handle.redact]
  simp only [handle?, hfind, h.names]

theorem isTaken_alike (h : s.Alike t) (name : String) : s.isTaken name = t.isTaken name := by
  have hany (caller : Nat) :
      (s.service.waiting.any fun x => x.request.caller == caller) =
        t.service.waiting.any fun x => x.request.caller == caller := by
    apply h.service.same fun u => u.waiting.any fun x => x.request.caller == caller
    intro u
    simp [Service.redact, List.any_map, Function.comp_def, Sleeper.redact, Request.redact]
  simp only [isTaken, isWaiting, handle?_alike h, hany, h.names]

def outcome : Option (Except PoolError Entry) → Answer
  | none => .waiting
  | some (.ok e) => .granted e.link.number
  | some (.error error) => .failed error

def attempt (name : String) (form : Form) (s : Session) : Session :=
  { s with
    names := (name, s.service.callers) :: s.names.filter fun entry => entry.1 != name
    service := s.service.acquire form }

theorem acquire_eq (name : String) (manner : Manner) (s : Session) :
    s.acquire name manner =
      if !s.service.isLive then (.refused .noPool, s)
      else if s.isTaken name then (.refused .handleInUse, s)
      else
        match s.form? manner with
        | none => (.refused .noToken, s)
        | some form =>
          (outcome (result? s.service.callers (s.service.acquire form).pool.backend.journal),
            s.attempt name form) := by
  unfold acquire
  congr 2
  cases s.form? manner with
  | none => rfl
  | some form =>
    dsimp only
    cases result? s.service.callers (s.service.acquire form).pool.backend.journal with
    | none => rfl
    | some result => cases result <;> rfl

theorem manner_of_signedIn {manner : Manner} {credentials : Credentials}
    (h : s.form? manner = some (.signedIn credentials)) : manner = .signedIn credentials := by
  cases manner with
  | plain => simp [form?] at h
  | signedIn other =>
    obtain rfl := Form.signedIn.inj (Option.some.inj h)
    rfl
  | interruptible token => simp [form?] at h

theorem outcome_redact (result : Option (Except PoolError Entry)) :
    outcome (result.map (Except.map Entry.redact)) = outcome result := by
  cases result with
  | none => rfl
  | some result => cases result <;> rfl

theorem result?_redact (caller : Nat) (journal : List Event) :
    result? caller (journal.map Event.redact) =
      (result? caller journal).map (Except.map Entry.redact) := by
  induction journal with
  | nil => rfl
  | cons event rest ih =>
    cases event with
    | settled c instant result =>
      simp only [List.map_cons, Event.redact, result?, ih]
      split <;> rfl
    | _ => exact ih

theorem occupancy_redact (p : Pool (Faulty Scripted)) : p.redact.occupancy = p.occupancy := by
  simp [Pool.occupancy, Pool.redact, Config.redact]

theorem metrics_redact (now : Nat) (p : Pool (Faulty Scripted)) :
    p.redact.metrics now = (p.metrics now).redact := by
  simp [Pool.metrics, Pool.redact, Metrics.redact]

theorem metrics_alike (h : s.Alike t) :
    (s.service.pool.metrics s.service.now).redact =
      (t.service.pool.metrics t.service.now).redact := by
  rw [← metrics_redact, h.service.pool, h.service.now, metrics_redact]

theorem withHandle_agree (h : s.Alike t) (name : String)
    (use use' : Nat → Handle → Answer × Session)
    (hu : ∀ i a b, a.redact = b.redact → Agree (use i a) (use' i b)) :
    Agree (s.withHandle name use) (t.withHandle name use') := by
  unfold withHandle
  rw [handle?_alike h]
  cases t.handle? name with
  | none => exact h.refused .noHandle
  | some i =>
    have hi := handles_alike h i
    dsimp only
    cases ha : s.service.handles[i]? with
    | none =>
      rw [ha] at hi
      rw [Option.map_eq_none_iff.mp hi.symm]
      exact h.refused .noHandle
    | some a =>
      rw [ha] at hi
      obtain ⟨b, hb, hab⟩ := Option.map_eq_some_iff.mp hi.symm
      rw [hb]
      exact hu i a b hab.symm

theorem withToken_agree (h : s.Alike t) (name : String) (use use' : Nat → Answer × Session)
    (hu : ∀ token, Agree (use token) (use' token)) :
    Agree (s.withToken name use) (t.withToken name use') := by
  unfold withToken
  rw [h.tokens]
  cases t.tokens.lookup name with
  | none => exact h.refused .noToken
  | some token => exact hu token

theorem withConnection_agree (h : s.Alike t) (channel : Nat)
    (use use' : Scripted.Connection → Answer × Session)
    (hu : ∀ connection, Agree (use connection) (use' connection)) :
    Agree (s.withConnection channel use) (t.withConnection channel use') := by
  have hconnections : s.driver.behind.connections = t.driver.behind.connections := by
    have hd : s.driver.redact.behind.redact.connections = t.driver.redact.behind.redact.connections
        := by rw [driver_alike h]
    exact hd
  unfold withConnection
  rw [hconnections]
  cases t.driver.behind.connections[channel]? with
  | none => exact h.refused .noConnection
  | some connection => exact hu connection

theorem ifLive_agree (h : s.Alike t) {use use' : Answer × Session} (hu : Agree use use') :
    Agree (s.ifLive use) (t.ifLive use') := by
  unfold ifLive
  rw [h.service.isLive]
  split
  · exact hu
  · exact h.refused .noPool

theorem acquire_agree (h : s.Alike t) (name : String) (manner : Manner)
    (hm : ∀ credentials, manner ≠ .signedIn credentials) :
    Agree (s.acquire name manner) (t.acquire name manner) := by
  have hform : s.form? manner = t.form? manner := by
    cases manner <;> simp [form?, h.tokens]
  rw [acquire_eq, acquire_eq, h.service.isLive, isTaken_alike h, hform]
  split
  · exact h.refused .noPool
  · split
    · exact h.refused .handleInUse
    · cases hf : t.form? manner with
      | none => exact h.refused .noToken
      | some form =>
        -- the answer is read off the journal, where it shows no type code
        have hservice := Service.acquire_alike h.service form fun credentials hc =>
          hm credentials (manner_of_signedIn (hc ▸ hf))
        have hresult := congrArg (fun journal => outcome (result? t.service.callers journal))
          hservice.journal
        dsimp only at hresult ⊢
        rw [result?_redact, result?_redact, outcome_redact, outcome_redact] at hresult
        rw [h.service.callers]
        constructor
        · show Answer.Alike (outcome (result? _ (s.service.acquire form).pool.backend.journal)) _
          rw [hresult]
          exact .same _
        · refine ⟨hservice, ?_, h.tokens, h.isTraced⟩
          simp only [attempt, h.service.callers, h.names]

theorem act_agree (h : s.Alike t) (a : Scripted.Act)
    (ha : ∀ d : Scripted, (d.act a).redact = d.redact.act a) :
    Agree (.done, s.act a) (.done, t.act a) := by
  apply h.done
  apply Service.meddle_alike h.service
  intro d
  exact congrArg (fun behind => { d with behind }) (ha d.behind)

theorem plant_agree (h : s.Alike t) (spot : Spot) (fault : Option Fault) :
    Agree (s.plant spot fault) (t.plant spot fault) := by
  have hplanted (f : Faulty Scripted → Faulty Scripted)
      (hf : ∀ d : Faulty Scripted, (f d).redact = f d.redact) :
      Agree (.done, if s.isTraced then { s with service := s.service.meddle f } else s)
        (.done, if t.isTraced then { t with service := t.service.meddle f } else t) := by
    by_cases ht : t.isTraced = true
    · rw [if_pos (h.isTraced.trans ht), if_pos ht]
      exact h.done (Service.meddle_alike h.service f hf)
    · rw [if_neg (h.isTraced ▸ ht), if_neg ht]
      exact ⟨.same _, h⟩
  have hchannels : s.driver.channels = t.driver.channels := by
    have hd : s.driver.redact.channels = t.driver.redact.channels := by rw [driver_alike h]
    exact hd
  unfold plant
  cases spot with
  | connect => exact hplanted _ fun _ => rfl
  | fresh method => exact hplanted _ fun _ => rfl
  | channel channel method =>
    have hopened : (s.isTraced && decide (channel < s.driver.channels.length)) =
        (t.isTraced && decide (channel < t.driver.channels.length)) := by
      rw [h.isTraced, hchannels]
    dsimp only
    by_cases ho : (t.isTraced && decide (channel < t.driver.channels.length)) = true
    · rw [if_pos (hopened.trans ho), if_pos ho]
      exact hplanted (Faulty.plant channel method fault) fun _ => rfl
    · rw [if_neg (hopened ▸ ho), if_neg ho]
      exact h.refused .noConnection

theorem query_alike (h : s.Alike t) (q : Query) (hs : s.service.pool.config.password ≠ "")
    (ht : t.service.pool.config.password ≠ "") :
    (query q s.service).Alike (query q t.service) := by
  have hoccupancy : s.service.pool.occupancy = t.service.pool.occupancy :=
    h.service.same (fun u => u.pool.occupancy) fun u => occupancy_redact u.pool
  cases q with
  | config =>
    have htext := congrArg Config.text h.service.config
    exact .config _ _ h.service.config htext
  | occupancy =>
    unfold query
    rw [hoccupancy]
    exact .same _
  | metrics =>
    have hmetrics := metrics_alike h
    exact .metrics _ _ hmetrics (Metrics.report_alike hmetrics hs ht)
  | text =>
    unfold query Pool.text
    rw [hoccupancy]
    exact .same _

theorem perform_agree {login login' : Login} (h : s.Alike t) (u : Service.Uniform login s.service)
    (u' : Service.Uniform login' t.service) (hl : login.credentials.password ≠ "")
    (hl' : login'.credentials.password ≠ "") (st : Step) (hst : st.keepsLogin = true) :
    Agree (s.perform st) (t.perform st) := by
  cases st with
  | acquire name manner =>
    apply acquire_agree h
    rintro credentials rfl
    exact Bool.noConfusion hst
  | call name c =>
    apply withHandle_agree h
    intro i a b hab
    obtain ⟨hreply, hrest⟩ := Service.call_alike h.service u u' i c
    refine ⟨?_, h.withService hrest⟩
    dsimp only
    rw [hreply]
    exact .same _
  | drop name =>
    apply withHandle_agree h
    intro i a b hab
    exact ⟨.same _, Service.release_alike h.service u u' i, by rw [h.names], h.tokens, h.isTraced⟩
  | inspect name =>
    apply withHandle_agree h
    intro i a b hab
    have hlease (c : Handle) (v : Service (Faulty Scripted)) :
        (lease c v).redact = (lease c.redact v.redact).redact := rfl
    refine ⟨.lease _ _ ?_, h⟩
    rw [hlease a, hlease b, hab, h.service]
  | showHandle name =>
    apply withHandle_agree h
    intro i a b hab
    have hentry : a.redact.entry = b.redact.entry := by rw [hab]
    have hid : a.redact.entry.id = b.redact.entry.id := by rw [hab]
    have hreleased : a.redact.released = b.redact.released := by rw [hab]
    change a.entry.id = b.entry.id at hid
    change a.released = b.released at hreleased
    refine ⟨?_, h⟩
    show Answer.Alike (.text (shownHandle a.entry (s.service.pool.status a.entry.id) a.released))
      (.text (shownHandle b.entry (t.service.pool.status b.entry.id) b.released))
    rw [h.service.status, hid, hreleased]
    exact .handleText _ _ _ _ hentry
  | advance span =>
    have hrest := Service.advance_alike h.service span
    constructor
    · show Answer.Alike (.instant (s.service.advance span).now) _
      rw [hrest.now]
      exact .same _
    · exact h.withService hrest
  | issueToken name =>
    apply ifLive_agree h
    refine ⟨.same _, Service.issueToken_alike h.service, h.names, ?_, h.isTraced⟩
    rw [h.service.tokens, h.tokens]
  | cancel name =>
    apply withToken_agree h
    intro token
    exact h.done (Service.cancel_alike h.service token)
  | inspectToken name =>
    apply withToken_agree h
    intro token
    rw [h.service.isCancelled]
    exact ⟨.same _, h⟩
  | reset =>
    apply ifLive_agree h
    exact h.done (Service.reset_alike h.service)
  | reconfigure changes =>
    have hchanges := Step.not_isOfLogin hst
    obtain ⟨hresult, hrest⟩ := Service.reconfigure_alike h.service (fun c => c.changeAll changes)
      fun c => (Config.changeAll_frame changes hchanges c).1
    apply ifLive_agree h
    generalize s.service.reconfigure (fun c => c.changeAll changes) = new at hresult hrest ⊢
    generalize t.service.reconfigure (fun c => c.changeAll changes) = new' at hresult hrest ⊢
    obtain ⟨result, v⟩ := new
    obtain ⟨result', v'⟩ := new'
    obtain rfl : result = result' := hresult
    cases result with
    | ok _ => exact h.done hrest
    | error error => exact ⟨.same _, h.withService hrest⟩
  | query q =>
    apply ifLive_agree h
    refine ⟨query_alike h q ?_ ?_, h⟩
    · rw [u.password]
      exact hl
    · rw [u'.password]
      exact hl'
  | driver =>
    refine ⟨.driver _ _ ?_, h⟩
    have hd : s.driver.redact.behind = t.driver.redact.behind := by rw [driver_alike h]
    exact hd
  | refuse on | openBroken on | manualCommit on => exact act_agree h _ fun _ => rfl
  | sever channel | failStatements channel on =>
    apply withConnection_agree h
    intro connection
    exact act_agree h _ fun _ => rfl
  | connection channel =>
    apply withConnection_agree h
    intro connection
    exact ⟨.same _, h⟩
  | plant spot fault => exact plant_agree h spot fault
  | shutDown =>
    have hwaiting : s.service.waiting.isEmpty = t.service.waiting.isEmpty :=
      h.service.same (fun u => u.waiting.isEmpty) fun _ => List.isEmpty_map
    apply ifLive_agree h
    rw [hwaiting]
    split
    · exact h.done (Service.shutDown_alike h.service)
    · exact h.refused .busy

theorem withHandle_keeps (P : Session → Prop) (hs : P s) (name : String)
    (use : Nat → Handle → Answer × Session) (hu : ∀ i a, P (use i a).2) :
    P (s.withHandle name use).2 := by
  unfold withHandle
  split
  · exact hs
  · split
    · exact hs
    · exact hu _ _

theorem withToken_keeps (P : Session → Prop) (hs : P s) (name : String)
    (use : Nat → Answer × Session) (hu : ∀ token, P (use token).2) :
    P (s.withToken name use).2 := by
  unfold withToken
  split
  · exact hs
  · exact hu _

theorem withConnection_keeps (P : Session → Prop) (hs : P s) (channel : Nat)
    (use : Scripted.Connection → Answer × Session) (hu : ∀ connection, P (use connection).2) :
    P (s.withConnection channel use).2 := by
  unfold withConnection
  split
  · exact hs
  · exact hu _

theorem ifLive_keeps (P : Session → Prop) (hs : P s) (use : Answer × Session)
    (hu : s.service.isLive = true → P use.2) : P (s.ifLive use).2 := by
  unfold ifLive
  split
  · exact hu (by assumption)
  · exact hs

theorem acquire_keeps (P : Session → Prop) (hs : P s) (name : String) (manner : Manner)
    (hu : ∀ form, s.form? manner = some form → s.service.isLive = true →
      P (s.attempt name form)) :
    P (s.acquire name manner).2 := by
  rw [acquire_eq]
  split
  · exact hs
  · rename_i hlive
    split
    · exact hs
    · cases hf : s.form? manner with
      | none => exact hs
      | some form => exact hu form hf (by simpa using hlive)

def Operated (st : Step) (s after : Session) : Prop :=
  after.service = s.service ∨ ∃ op : Op (Faulty Scripted),
    (st.keepsLogin = true → op.KeepsLogin) ∧ after.service = Service.step op s.service

theorem perform_operated (st : Step) (s : Session) : Operated st s (s.perform st).2 := by
  have hmeddle (f : Faulty Scripted → Faulty Scripted) :
      Operated st s { s with service := s.service.meddle f } :=
    Or.inr ⟨.meddle f, fun _ => trivial, rfl⟩
  have hact (a : Scripted.Act) : Operated st s (s.act a) :=
    hmeddle fun d => { d with behind := d.behind.act a }
  have hself : Operated st s s := Or.inl rfl
  cases st with
  | acquire name manner =>
    apply acquire_keeps (Operated _ s) hself
    intro form hf hl
    refine Or.inr ⟨.acquire form, fun hst => ?_, (if_pos hl).symm⟩
    cases form with
    | plain | interruptible token => trivial
    | signedIn credentials =>
      rw [manner_of_signedIn hf] at hst
      exact Bool.noConfusion hst
  | call name c =>
    apply withHandle_keeps (Operated _ s) hself
    exact fun i _ => Or.inr ⟨.call i c, fun _ => trivial, rfl⟩
  | drop name =>
    apply withHandle_keeps (Operated _ s) hself
    exact fun i _ => Or.inr ⟨.release i, fun _ => trivial, rfl⟩
  | inspect name | showHandle name =>
    exact withHandle_keeps (Operated _ s) hself name _ fun _ _ => hself
  | advance span => exact Or.inr ⟨.advance span, fun _ => trivial, rfl⟩
  | issueToken name =>
    apply ifLive_keeps (Operated _ s) hself
    exact fun hl => Or.inr ⟨.issueToken, fun _ => trivial, (if_pos hl).symm⟩
  | cancel name =>
    apply withToken_keeps (Operated _ s) hself
    exact fun token => Or.inr ⟨.cancel token, fun _ => trivial, rfl⟩
  | inspectToken name => exact withToken_keeps (Operated _ s) hself name _ fun _ => hself
  | reset =>
    apply ifLive_keeps (Operated _ s) hself
    exact fun hl => Or.inr ⟨.reset, fun _ => trivial, (if_pos hl).symm⟩
  | reconfigure changes =>
    apply ifLive_keeps (Operated _ s) hself
    intro hl
    refine Or.inr ⟨.reconfigure fun c => c.changeAll changes, fun hst c => ?_, ?_⟩
    · exact (Config.changeAll_frame changes (Step.not_isOfLogin hst) c).2
    · simp only [Service.step, if_pos hl]
      split <;> rename_i heq <;> rw [heq]
  | query q => exact ifLive_keeps (Operated _ s) hself _ fun _ => hself
  | driver => exact hself
  | refuse on | openBroken on | manualCommit on => exact hact _
  | sever channel | failStatements channel on =>
    exact withConnection_keeps (Operated _ s) hself channel _ fun _ => hact _
  | connection channel => exact withConnection_keeps (Operated _ s) hself channel _ fun _ => hself
  | plant spot fault =>
    show Operated _ s (s.plant spot fault).2
    unfold plant
    cases spot with
    | connect | fresh method =>
      dsimp only
      split
      · exact hmeddle _
      · exact hself
    | channel channel method =>
      dsimp only
      split
      · split
        · exact hmeddle _
        · exact hself
      · exact hself
  | shutDown =>
    apply ifLive_keeps (Operated _ s) hself
    intro hl
    split
    · rename_i hw
      refine Or.inr ⟨.shutDown, fun _ => trivial, ?_⟩
      simp only [Service.step, hl, hw, Bool.and_self, if_true]
    · exact hself

theorem perform_uniform {login : Login} (u : Service.Uniform login s.service) (st : Step)
    (hst : st.keepsLogin = true) : Service.Uniform login (s.perform st).2.service := by
  rcases perform_operated st s with h | ⟨op, hk, h⟩
  · rw [h]
    exact u
  · rw [h]
    exact u.step op (hk hst)

theorem newEvents_redact (before after : List Event) :
    (newEvents before after).map Event.redact =
      newEvents (before.map Event.redact) (after.map Event.redact) := by
  simp [newEvents, List.map_take, List.map_reverse]

theorem wokenIn_redact (callers : Nat) (s : Session) (events : List Event) :
    (s.wokenIn callers events).map Woken.redact =
      s.wokenIn callers (events.map Event.redact) := by
  unfold wokenIn
  rw [List.map_filterMap, List.filterMap_map]
  congr 1
  funext event
  cases event with
  | settled caller instant result =>
    simp only [Function.comp_apply, Event.redact]
    split <;> rfl
  | _ => rfl

theorem line_alike {event event' : Event} (h : event.redact = event'.redact) :
    (event.driverLine? = none ∧ event'.driverLine? = none) ∨
      ∃ line line', event.driverLine? = some line ∧ event'.driverLine? = some line' ∧
        LineAlike line line' := by
  cases event with
  | connect login result =>
    cases event' with
    | connect login' result' =>
      have hlogin : login.redact = login'.redact := (Event.connect.inj h).1
      exact Or.inr ⟨_, _, rfl, rfl, .connect login login' hlogin⟩
    | _ => exact absurd h (by simp [Event.redact])
  | call channel c reply =>
    cases event' with
    | call channel' c' reply' =>
      obtain ⟨rfl, rfl, -⟩ := Event.call.inj h
      exact Or.inr ⟨_, _, rfl, rfl, .same _⟩
    | _ => exact absurd h (by simp [Event.redact])
  | _ =>
    cases event' with
    | connect login' result' => exact absurd h (by simp [Event.redact])
    | call channel' c' reply' => exact absurd h (by simp [Event.redact])
    | _ => exact Or.inl ⟨rfl, rfl⟩

theorem lines_alike (events events' : List Event)
    (h : events.map Event.redact = events'.map Event.redact) :
    List.Forall₂ LineAlike (events.filterMap Event.driverLine?)
      (events'.filterMap Event.driverLine?) := by
  induction events generalizing events' with
  | nil =>
    obtain rfl : events' = [] := List.map_eq_nil_iff.mp h.symm
    exact .nil
  | cons event rest ih =>
    cases events' with
    | nil => exact absurd h (by simp)
    | cons event' rest' =>
      obtain ⟨hevent, hrest⟩ := List.cons.inj h
      rcases line_alike hevent with ⟨hn, hn'⟩ | ⟨line, line', hl, hl', halike⟩
      · rw [List.filterMap_cons_none hn, List.filterMap_cons_none hn']
        exact ih rest' hrest
      · rw [List.filterMap_cons_some hl, List.filterMap_cons_some hl']
        exact .cons halike (ih rest' hrest)

def reportOf (s : Session) (x : Answer × Session) : Report :=
  let events := newEvents s.service.pool.backend.journal x.2.service.pool.backend.journal
  { answer := x.1
    woken := x.2.wokenIn s.service.callers events
    driverLog := if s.isTraced then events.filterMap Event.driverLine? else []
    metrics :=
      if x.2.service.isLive then some (x.2.service.pool.metrics x.2.service.now) else none }

theorem step_eq (st : Step) (s : Session) :
    s.step st = (reportOf s (s.perform st), (s.perform st).2) := rfl

theorem reportOf_alike {x y : Answer × Session} (h : s.Alike t) (hxy : Agree x y)
    (hx : x.2.service.pool.config.password ≠ "") (hy : y.2.service.pool.config.password ≠ "") :
    (reportOf s x).Alike (reportOf t y) := by
  obtain ⟨hanswer, hafter⟩ := hxy
  have hevents : (newEvents s.service.pool.backend.journal
        x.2.service.pool.backend.journal).map Event.redact =
      (newEvents t.service.pool.backend.journal
        y.2.service.pool.backend.journal).map Event.redact := by
    rw [newEvents_redact, newEvents_redact, h.service.journal, hafter.service.journal]
  have hmetrics := metrics_alike hafter
  have hreport := Metrics.report_alike hmetrics hx hy
  unfold reportOf
  constructor
  case answer => exact hanswer
  case woken =>
    dsimp only
    rw [wokenIn_redact, wokenIn_redact, hevents, h.service.callers]
    simp only [wokenIn, nameOf, hafter.names]
  case driverLog =>
    dsimp only
    rw [h.isTraced]
    split
    · exact lines_alike _ _ hevents
    · exact .nil
  case metrics =>
    dsimp only
    rw [hafter.service.isLive]
    split
    · exact congrArg some hmetrics
    · rfl
  case report =>
    dsimp only
    rw [hafter.service.isLive]
    split
    · exact congrArg some hreport
    · rfl

theorem run_alike {login login' : Login} (h : s.Alike t) (u : Service.Uniform login s.service)
    (u' : Service.Uniform login' t.service) (hl : login.credentials.password ≠ "")
    (hl' : login'.credentials.password ≠ "") (steps : List Step)
    (hs : ∀ st ∈ steps, st.keepsLogin = true) :
    List.Forall₂ Report.Alike (run steps s) (run steps t) := by
  induction steps generalizing s t with
  | nil => exact .nil
  | cons st rest ih =>
    have hst := hs st List.mem_cons_self
    have hagree := perform_agree h u u' hl hl' st hst
    have v := perform_uniform u st hst
    have v' := perform_uniform u' st hst
    show List.Forall₂ Report.Alike ((s.step st).1 :: run rest (s.step st).2)
      ((t.step st).1 :: run rest (t.step st).2)
    rw [step_eq, step_eq]
    constructor
    · apply reportOf_alike h hagree
      · rw [v.password]
        exact hl
      · rw [v'.password]
        exact hl'
    · exact ih hagree.2 v v' fun x hx => hs x (List.mem_cons_of_mem st hx)

theorem start_alike (driver : Faulty Scripted) (config config' : Config)
    (h : config.redact = config'.redact) (isTraced : Bool) :
    (start (Pool.unused driver config) isTraced).Alike
      (start (Pool.unused driver config') isTraced) := by
  refine ⟨?_, rfl, rfl, rfl⟩
  have hpool : (Pool.unused driver config).redact = (Pool.unused driver config').redact := by
    simp only [Pool.redact, Pool.unused, h]
  exact congrArg (fun pool => (Service.start pool)) hpool

/-- Whatever is done to two pools whose configurations differ in their passwords only, they are
created alike, and what every step shows of them is alike; neither the text of a configuration nor a
report shows which password it is. -/
theorem secrecy_run (driver : Faulty Scripted) (config config' : Config)
    (h : { config with password := "" } = { config' with password := "" })
    (hp : config.password ≠ "") (hp' : config'.password ≠ "") (isTraced : Bool)
    (steps : List Step) (hs : ∀ st ∈ steps, st.keepsLogin = true) :
    config.text = config'.text ∧
      (∀ m : Metrics, { m with config }.report = { m with config := config' }.report) ∧
      ((∃ error, Pool.create driver config = .error error ∧
          Pool.create driver config' = .error error) ∨
        ∃ pool pool', Pool.create driver config = .ok pool ∧
          Pool.create driver config' = .ok pool' ∧
          List.Forall₂ Report.Alike (run steps (start pool isTraced))
            (run steps (start pool' isTraced))) := by
  have hredact : config.redact = config'.redact := h
  have hvalidate : config.validate = config'.validate := by
    rw [← Config.validate_redact config, hredact, Config.validate_redact]
  have htext : config.text = config'.text := by
    rw [← Config.text_redact config, hredact, Config.text_redact]
  refine ⟨htext, fun m => ?_, ?_⟩
  · apply Metrics.report_alike _ hp hp'
    simp only [Metrics.redact, hredact]
  cases hv : config.validate with
  | error error =>
    left
    refine ⟨error, ?_, ?_⟩
    · simp only [Pool.create, hv, Except.map]
    · simp only [Pool.create, ← hvalidate, hv, Except.map]
  | ok _ =>
    right
    have hc : Pool.create driver config = .ok (Pool.unused driver config) := by
      simp only [Pool.create, hv, Except.map, Pool.unused]
    have hc' : Pool.create driver config' = .ok (Pool.unused driver config') := by
      simp only [Pool.create, ← hvalidate, hv, Except.map, Pool.unused]
    refine ⟨_, _, hc, hc', ?_⟩
    exact run_alike (start_alike driver config config' hredact isTraced)
      (Service.Uniform.start driver config _ hc) (Service.Uniform.start driver config' _ hc')
      hp hp' steps hs

/-- One connection for two callers, the second of whom sleeps until the first one is done; then all
that there is to see is looked at, and a reset follows. -/
def fullInspection : List Step :=
  [.acquire "first" .plain, .showHandle "first", .acquire "second" .plain, .drop "first",
    .inspect "second", .query .config, .query .metrics, .driver, .reset, .drop "second"]

theorem secrecy_fullInspection :
    (∀ st ∈ fullInspection, st.keepsLogin = true) ∧
      { Config.single with password := "alpha" }.expectedTypeCode ≠
        { Config.single with password := "beta" }.expectedTypeCode ∧
      List.Forall₂ Report.Alike
        (run fullInspection (start (Pool.unused { behind := {} }
          { Config.single with password := "alpha" }) true))
        (run fullInspection (start (Pool.unused { behind := {} }
          { Config.single with password := "beta" }) true)) ∧
      (run fullInspection (start (Pool.unused { behind := {} }
        { Config.single with password := "alpha" }) true)).map (fun r => r.woken.length) =
          [0, 0, 0, 1, 0, 0, 0, 0, 0, 0] := by
  have hs : ∀ st ∈ fullInspection, st.keepsLogin = true := by decide
  obtain ⟨-, -, ⟨error, he, -⟩ | ⟨pool, pool', hc, hc', hrun⟩⟩ := secrecy_run { behind := {} }
    { Config.single with password := "alpha" } { Config.single with password := "beta" } rfl
    (by decide) (by decide) true fullInspection hs
  · have hvalid : { Config.single with password := "alpha" }.validate = .ok () := by decide
    simp [Pool.create, hvalid, Except.map] at he
  · obtain rfl := Pool.of_create _ _ pool hc
    obtain rfl := Pool.of_create _ _ pool' hc'
    exact ⟨hs, by decide +kernel, hrun, by decide +kernel⟩

end Session

end Script

end ConnectionPool
