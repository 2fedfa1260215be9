import ConnectionPool.Proofs.Attribution
import ConnectionPool.Proofs.Redaction

/-!
# Indifference to secrets

Two services are alike if they are the same once passwords and type codes have been blotted out.
Whatever is done to both of them alike leaves them alike: callers seek, sleep and wake in the same
order and fare the same, and time passes. The one comparison of type codes is made when a handle is
returned. As long as nobody brings credentials of his own and the login stays, every lease has the
type code that is expected, so the comparison has the same outcome in both.
-/

set_option autoImplicit false

namespace ConnectionPool

def Sleeper.redact (x : Sleeper) : Sleeper := { x with request := x.request.redact }

def Handle.redact (h : Handle) : Handle := { h with entry := h.entry.redact }

theorem Sleeper.deadline_eq {x y : Sleeper} (h : x.redact = y.redact) :
    x.deadline = y.deadline := by
  have hd : x.redact.deadline = y.redact.deadline := by rw [h]
  exact hd

theorem Sleeper.earliest_redact (queue : List Sleeper) :
    earliest (queue.map redact) = (earliest queue).map (Prod.map redact (List.map redact)) := by
  induction queue with
  | nil => rfl
  | cons x rest ih =>
    have hdeadline (y : Sleeper) : y.redact.deadline = y.deadline := rfl
    rw [List.map_cons, earliest, ih, earliest]
    cases earliest rest with
    | none => rfl
    | some found =>
      obtain ⟨y, others⟩ := found
      dsimp only [Option.map, Prod.map]
      rw [hdeadline, hdeadline]
      split <;> rfl

def Op.KeepsLogin {σ : Type} : Op σ → Prop
  | .acquire (.signedIn _) => False
  | .reconfigure update => ∀ c, (update c).login = c.login
  | _ => True

namespace Service

variable {σ : Type} [Driver σ]

structure Uniform (login : Login) (s : Service σ) : Prop where
  ledger : HasLedger none s
  attributed : Attributed (fun _ credentials => credentials = login.credentials) s
  configured : s.pool.config.login = login
  expected : s.pool.expectedTypeCode = login.typeCode

namespace Uniform

variable {login : Login} {s : Service σ}

omit [Driver σ] in
theorem typeCode_eq (u : Uniform login s) {handle : Handle} (hm : handle ∈ s.handles)
    (hv : s.pool.status handle.entry.id = .valid) :
    handle.entry.typeCode = s.pool.expectedTypeCode := by
  have ha : handle.entry ∈ s.pool.active := u.ledger.running handle hm hv
  obtain ⟨other, -, -, credentials, hc, htype⟩ := u.attributed.lent handle.entry ha
  have hurl : s.pool.config.url = login.url := congrArg Login.url u.configured
  rw [htype, u.expected, hurl, hc]

omit [Driver σ] in
theorem password (u : Uniform login s) : s.pool.config.password = login.credentials.password :=
  congrArg (fun l => l.credentials.password) u.configured

omit [Driver σ] in
theorem start (driver : σ) (config : Config) (pool : Pool σ)
    (h : Pool.create driver config = .ok pool) : Uniform config.login (start pool) := by
  have hp := Pool.of_create driver config pool h
  refine ⟨ledger_start driver config pool h, ?_, ?_, ?_⟩ <;> rw [hp]
  · constructor
    · exact fun x hx => absurd hx List.not_mem_nil
    · exact fun e he => absurd he List.not_mem_nil
  · rfl
  · rfl

theorem login_command {s' : Service σ} (u : Uniform login s) {op : Op σ} (h : Command op s s')
    (hk : op.KeepsLogin) :
    s'.pool.config.login = login ∧ s'.pool.expectedTypeCode = login.typeCode := by
  have hreset (config : Config) (hc : config.login = login) :
      { s.pool with config }.reset.config.login = login ∧
        { s.pool with config }.reset.expectedTypeCode = login.typeCode := by
    rw [(Pool.reset_frame { s.pool with config }).1, (Pool.reset_rest { s.pool with config }).1]
    exact ⟨hc, congrArg Login.typeCode hc⟩
  cases h with
  | meddle s f | issueToken s hl => exact ⟨u.configured, u.expected⟩
  | reset s hl | shutDown s hl hw => exact hreset s.pool.config u.configured
  | reconfigure s update hl =>
    refine s.pool.reconfigure_cases update (motive := fun q =>
      q.config.login = login ∧ q.expectedTypeCode = login.typeCode) ⟨u.configured, u.expected⟩ ?_
    exact hreset _ ((hk s.pool.config).trans u.configured)

theorem login_step (u : Uniform login s) (op : Op σ) (hk : op.KeepsLogin) :
    (Service.step op s).pool.config.login = login ∧
      (Service.step op s).pool.expectedTypeCode = login.typeCode := by
  rcases step_moves s op with h | h | ⟨i, c, rfl, -, h⟩
  · obtain ⟨hc, hx⟩ := config_moves h
    rw [hc, hx]
    exact ⟨u.configured, u.expected⟩
  · exact u.login_command h hk
  · show (s.call i c).2.pool.config.login = login ∧ (s.call i c).2.pool.expectedTypeCode = _
    obtain ⟨hc, hx⟩ := config_forward s i c
    rw [h, hc, hx]
    exact ⟨u.configured, u.expected⟩

theorem step (u : Uniform login s) (op : Op σ) (hk : op.KeepsLogin) :
    Uniform login (step op s) := by
  obtain ⟨hc, hx⟩ := u.login_step op hk
  refine ⟨ledger_run [op] s u.ledger, ?_, hc, hx⟩
  apply u.attributed.step op
  rintro form rfl -
  have hcredentials : s.pool.config.credentials = login.credentials :=
    congrArg Login.credentials u.configured
  cases form with
  | plain | interruptible token => exact hcredentials
  | signedIn credentials => exact absurd hk id

end Uniform

variable [Discreet σ]

def redact (s : Service σ) : Service σ :=
  { s with
    pool := s.pool.redact
    handles := s.handles.map Handle.redact
    waiting := s.waiting.map Sleeper.redact }

theorem redact_redact (s : Service σ) : s.redact.redact = s.redact := by
  simp [redact, Pool.redact_redact, Handle.redact, Sleeper.redact, Entry.redact, Request.redact,
    Credentials.redact]

/-- The services are the same but for passwords and type codes. -/
def Alike (s t : Service σ) : Prop := s.redact = t.redact

variable {s t : Service σ}

namespace Alike

theorem same {α : Type} (h : s.Alike t) (look : Service σ → α)
    (hl : ∀ u, look u.redact = look u) : look s = look t := by
  rw [← hl s, h, hl t]

theorem now (h : s.Alike t) : s.now = t.now := h.same Service.now fun _ => rfl

theorem isLive (h : s.Alike t) : s.isLive = t.isLive := h.same Service.isLive fun _ => rfl

theorem callers (h : s.Alike t) : s.callers = t.callers := h.same Service.callers fun _ => rfl

theorem tokens (h : s.Alike t) : s.tokens = t.tokens := h.same Service.tokens fun _ => rfl

theorem isCancelled (h : s.Alike t) (token : Option Nat) :
    s.isCancelled token = t.isCancelled token := h.same (Service.isCancelled token) fun _ => rfl

theorem status (h : s.Alike t) (id : Nat) : s.pool.status id = t.pool.status id :=
  h.same (fun u => u.pool.status id) fun _ => rfl

theorem pool (h : s.Alike t) : s.pool.redact = t.pool.redact := congrArg Service.pool h

theorem config (h : s.Alike t) : s.pool.config.redact = t.pool.config.redact :=
  congrArg Pool.config h.pool

theorem journal (h : s.Alike t) :
    s.pool.backend.journal.map Event.redact = t.pool.backend.journal.map Event.redact :=
  congrArg (fun p => p.backend.journal) h.pool

theorem handles (h : s.Alike t) : s.handles.map Handle.redact = t.handles.map Handle.redact :=
  congrArg Service.handles h

theorem waiting (h : s.Alike t) : s.waiting.map Sleeper.redact = t.waiting.map Sleeper.redact :=
  congrArg Service.waiting h

end Alike

theorem settle_redact (r : Request) (result : Except PoolError Entry) (s : Service σ) :
    s.redact.settle r.redact (result.map Entry.redact) = (s.settle r result).redact := by
  cases result with
  | error error => rfl
  | ok entry =>
    simp [settle, redact, note, Pool.redact, Pool.note, Backend.note, Backend.redact, Event.redact,
      Handle.redact, Except.map, Request.redact]

theorem countWait_redact (r : Request) (s : Service σ) :
    s.redact.countWait r.redact = (s.countWait r).redact := by
  have hwaited : r.redact.hasWaited = r.hasWaited := rfl
  unfold countWait
  rw [hwaited]
  split <;> rfl

theorem sleep_redact (r : Request) (s : Service σ) :
    s.redact.sleep r.redact = (s.sleep r).redact := by
  simp [sleep, redact, note, Pool.redact, Pool.note, Backend.note, Backend.redact, Event.redact,
    Sleeper.redact, Sleeper.start, Request.redact, Config.redact]

theorem block_redact (r : Request) (s : Service σ) :
    s.redact.block r.redact = (s.block r).redact := by
  have hcancelled : (s.countWait r).redact.isCancelled r.redact.token =
      (s.countWait r).isCancelled r.token := rfl
  unfold block
  dsimp only
  rw [countWait_redact, hcancelled]
  split
  · exact settle_redact r (.error .interrupted) (s.countWait r)
  · exact sleep_redact { r with hasWaited := true } (s.countWait r)

def conclude (r : Request) (s : Service σ) : Outcome × Pool σ → Service σ
  | (.granted entry, pool) => { s with pool }.settle r (.ok entry)
  | (.failed error, pool) => { s with pool }.settle r (.error error)
  | (.saturated r, pool) => { s with pool }.block r

theorem takeFirst_redact (s : Service σ) :
    s.redact.takeFirst = Prod.map (List.map Sleeper.redact) redact s.takeFirst := by
  cases hw : s.waiting with
  | nil => simp [takeFirst, hw, redact]
  | cons x rest => simp [takeFirst, hw, redact]

theorem takeFirst_alike (h : s.Alike t) :
    s.takeFirst.1.map Sleeper.redact = t.takeFirst.1.map Sleeper.redact ∧
      s.takeFirst.2.Alike t.takeFirst.2 := by
  have hfirst := takeFirst_redact s
  rw [h, takeFirst_redact] at hfirst
  obtain ⟨hwoken, hrest⟩ := Prod.mk.inj hfirst
  exact ⟨hwoken.symm, hrest.symm⟩

theorem settle_alike (h : s.Alike t) {r r' : Request} (hr : r.redact = r'.redact)
    {x x' : Except PoolError Entry} (hx : x.map Entry.redact = x'.map Entry.redact) :
    (s.settle r x).Alike (t.settle r' x') := by
  unfold Alike at h ⊢
  rw [← settle_redact, ← settle_redact, h, hr, hx]

omit [Discreet σ] in
theorem pursue_eq (r : Request) (s : Service σ) :
    s.pursue r = s.conclude r (s.pool.seek s.now r) := by
  unfold pursue conclude
  rfl

theorem conclude_redact (r : Request) (x : Outcome × Pool σ) (s : Service σ) :
    s.redact.conclude r.redact (Prod.map Outcome.redact Pool.redact x) =
      (s.conclude r x).redact := by
  obtain ⟨outcome, q⟩ := x
  cases outcome with
  | granted e => exact settle_redact r (.ok e) { s with pool := q }
  | failed error => exact settle_redact r (.error error) { s with pool := q }
  | saturated r' => exact block_redact r' { s with pool := q }

theorem pursue_redact (r : Request) (s : Service σ) :
    (s.redact.pursue r.redact).Alike (s.pursue r) := by
  have hseek := Pool.seek_redact s.now r s.pool
  unfold Alike
  rw [pursue_eq, pursue_eq, ← conclude_redact, ← conclude_redact, redact_redact, ← hseek]
  rfl

theorem pursue_alike (h : s.Alike t) {r r' : Request} (hr : r.redact = r'.redact) :
    (s.pursue r).Alike (t.pursue r') := by
  have hs := pursue_redact r s
  rw [h, hr] at hs
  exact hs.symm.trans (pursue_redact r' t)

theorem resume_alike (h : s.Alike t) {x y : Sleeper} (hx : x.redact = y.redact) :
    (s.resume x).1.map Sleeper.redact = (t.resume y).1.map Sleeper.redact ∧
      (s.resume x).2.Alike (t.resume y).2 := by
  have hrequest : x.request.redact = y.request.redact := congrArg Sleeper.request hx
  have hawake : (s.awake x).Alike (t.awake y) := by
    show (s.redact.awake x.redact) = t.redact.awake y.redact
    rw [h, hx]
  have hcancelled : (s.awake x).isCancelled x.request.token =
      (t.awake y).isCancelled y.request.token := by
    show (s.awake x).isCancelled x.request.redact.token =
      (t.awake y).isCancelled y.request.redact.token
    rw [hrequest, hawake.isCancelled]
  obtain ⟨hwoken, hrest⟩ := takeFirst_alike hawake
  rw [resume_eq, resume_eq, hcancelled]
  split
  · exact ⟨hwoken, settle_alike hrest hrequest rfl⟩
  · exact ⟨rfl, pursue_alike hawake hrequest⟩

theorem rouse_alike (woken : List Sleeper) (s : Service σ) (woken' : List Sleeper) (t : Service σ)
    (hw : woken.map Sleeper.redact = woken'.map Sleeper.redact) (h : s.Alike t) :
    (s.rouse woken).Alike (t.rouse woken') := by
  -- along the recursion of the first; of the second, the callers awake are taken one by one
  fun_induction rouse woken s generalizing woken' t with
  | case1 s =>
    obtain rfl : woken' = [] := List.map_eq_nil_iff.mp hw.symm
    rwa [rouse]
  | case2 s x rest ih =>
    cases woken' with
    | nil => exact absurd hw (by simp)
    | cons y rest' =>
      obtain ⟨hx, hrest⟩ := List.cons.inj hw
      obtain ⟨hmore, hresume⟩ := resume_alike h hx
      rw [rouse]
      apply ih
      · rw [List.map_append, List.map_append, hrest, hmore]
      · exact hresume

theorem timeOut_alike (h : s.Alike t) {x y : Sleeper} (hx : x.redact = y.redact)
    {others others' : List Sleeper}
    (ho : others.map Sleeper.redact = others'.map Sleeper.redact) :
    (s.timeOut x others).Alike (t.timeOut y others') := by
  rw [timeOut_eq, timeOut_eq, h.now, Sleeper.deadline_eq hx]
  apply rouse_alike
  · rw [List.map_singleton, List.map_singleton, hx]
  · have hq := congrArg (fun u => { u with
      waiting := others.map Sleeper.redact
      now := max t.now y.deadline }) h
    unfold Alike redact at hq ⊢
    rw [ho] at hq ⊢
    exact hq

omit [Discreet σ] in
theorem elapse_of_earliest (target : Nat) (s : Service σ) (x : Sleeper) (others : List Sleeper)
    (he : Sleeper.earliest s.waiting = some (x, others)) :
    s.elapse target =
      if x.deadline ≤ target then (s.timeOut x others).elapse target
      else { s with now := target } := by
  rw [elapse]
  split
  · rename_i hn
    rw [he] at hn
    exact absurd hn (by simp)
  · rename_i y ys hs
    rw [he] at hs
    obtain ⟨rfl, rfl⟩ := Prod.mk.inj (Option.some.inj hs)
    by_cases hd : x.deadline ≤ target
    · rw [dif_pos hd, if_pos hd]
    · rw [dif_neg hd, if_neg hd]

theorem elapse_alike (target : Nat) (s t : Service σ) (h : s.Alike t) :
    (s.elapse target).Alike (t.elapse target) := by
  have hat {u v : Service σ} (huv : u.Alike v) :
      Alike { u with now := target } { v with now := target } := by
    have hn := congrArg (fun w => { w with now := target }) huv
    exact hn
  have hfirst {u v : Service σ} (huv : u.Alike v) :
      (Sleeper.earliest u.waiting).map (Prod.map Sleeper.redact (List.map Sleeper.redact)) =
        (Sleeper.earliest v.waiting).map (Prod.map Sleeper.redact (List.map Sleeper.redact)) := by
    rw [← Sleeper.earliest_redact, ← Sleeper.earliest_redact, huv.waiting]
  -- the earliest sleeper is the same in both, so both stop or go on
  fun_induction elapse target s generalizing t with
  | case1 s he =>
    have hnone := hfirst h
    rw [he] at hnone
    rw [elapse_unwaited target t (Sleeper.earliest_none _ (Option.map_eq_none_iff.mp hnone.symm))]
    exact hat h
  | case2 s x others he hd ih =>
    have hsome := hfirst h
    rw [he] at hsome
    obtain ⟨⟨y, others'⟩, hy, hxy⟩ := Option.map_eq_some_iff.mp hsome.symm
    obtain ⟨hx, ho⟩ := Prod.mk.inj hxy
    rw [← Sleeper.deadline_eq hx] at hd
    rw [elapse_of_earliest target t y others' hy, if_pos hd]
    exact ih _ (timeOut_alike h hx.symm ho.symm)
  | case3 s x others he hd =>
    have hsome := hfirst h
    rw [he] at hsome
    obtain ⟨⟨y, others'⟩, hy, hxy⟩ := Option.map_eq_some_iff.mp hsome.symm
    obtain ⟨hx, -⟩ := Prod.mk.inj hxy
    rw [← Sleeper.deadline_eq hx] at hd
    rw [elapse_of_earliest target t y others' hy, if_neg hd]
    exact hat h

theorem acquire_alike (h : s.Alike t) (form : Form)
    (hf : ∀ credentials, form ≠ .signedIn credentials) :
    (s.acquire form).Alike (t.acquire form) := by
  have hown (config : Config) :
      (form.credentials config).redact = form.credentials config.redact := by
    cases form with
    | plain | interruptible token => rfl
    | signedIn credentials => exact absurd rfl (hf credentials)
  apply pursue_alike
  · have hc := congrArg (fun u => { u with callers := u.callers + 1 }) h
    exact hc
  · simp only [Request.redact, hown, h.config, h.callers, h.now]

theorem forward_redact (i : Nat) (c : Call) (s : Service σ) :
    s.redact.forward i c = Prod.map id redact (s.forward i c) := by
  have hhandle : s.redact.handles[i]? = s.handles[i]?.map Handle.redact := List.getElem?_map
  unfold forward
  rw [hhandle]
  cases s.handles[i]? with
  | none => rfl
  | some handle =>
    have hvalid : s.redact.isValid handle.redact = s.isValid handle := rfl
    have hcall : s.redact.pool.backend.call handle.redact.entry.channel c =
        Prod.map id Backend.redact (s.pool.backend.call handle.entry.channel c) :=
      Backend.call_redact _ _ _
    dsimp only [Option.map]
    rw [hvalid, hcall]
    split
    · cases s.pool.backend.call handle.entry.channel c with
      | mk reply b =>
        cases reply with
        | ok value => rfl
        | error error =>
          dsimp only [Prod.map, id]
          split
          · have hretire := Pool.retire_redact handle.entry.id .invalidated
              { s.pool with backend := b }
            exact congrArg (fun q => (_, { s.redact with pool := q })) hretire
          · rfl
    · rfl

theorem wakeFirst_alike (h : s.Alike t) : s.wakeFirst.Alike t.wakeFirst := by
  obtain ⟨hwoken, hrest⟩ := takeFirst_alike h
  exact rouse_alike _ _ _ _ hwoken hrest

/-- The comparison of type codes decides nothing if it is known how it ends. -/
theorem release_redact (i : Nat) (s : Service σ)
    (hcode : ∀ handle ∈ s.handles, s.pool.status handle.entry.id = .valid →
      handle.entry.typeCode = s.pool.expectedTypeCode) :
    (s.redact.release i).Alike (s.release i) := by
  have hhandle : s.redact.handles[i]? = s.handles[i]?.map Handle.redact := List.getElem?_map
  unfold release
  rw [hhandle]
  cases hh : s.handles[i]? with
  | none => exact redact_redact s
  | some handle =>
    have hreleased : handle.redact.released = handle.released := rfl
    have hback : s.redact.pool.takeBack s.redact.now handle.redact.entry =
        Prod.map id Pool.redact (s.pool.takeBack s.now handle.entry) :=
      Pool.takeBack_redact s.now handle.entry s.pool
        (hcode handle (List.mem_of_getElem? hh))
    have hset : (s.handles.set i { handle with released := true }).map Handle.redact =
        s.redact.handles.set i { handle.redact with released := true } := List.map_set
    dsimp only [Option.map]
    rw [hreleased, hback, ← hset]
    split
    · exact redact_redact s
    · cases s.pool.takeBack s.now handle.entry with
      | mk kept q =>
        have hrest : Alike { s.redact with
              pool := q.redact
              handles := (s.handles.set i { handle with released := true }).map Handle.redact }
            { s with pool := q, handles := s.handles.set i { handle with released := true } } :=
          redact_redact { s with
            pool := q
            handles := s.handles.set i { handle with released := true } }
        cases kept with
        | true => exact wakeFirst_alike hrest
        | false => exact hrest

theorem release_alike {login login' : Login} (h : s.Alike t) (u : Uniform login s)
    (u' : Uniform login' t) (i : Nat) : (s.release i).Alike (t.release i) := by
  have hs := release_redact i s fun handle hm => u.typeCode_eq hm
  rw [h] at hs
  exact hs.symm.trans (release_redact i t fun handle hm => u'.typeCode_eq hm)

theorem call_alike {login login' : Login} (h : s.Alike t) (u : Uniform login s)
    (u' : Uniform login' t) (i : Nat) (c : Call) :
    (s.call i c).1 = (t.call i c).1 ∧ (s.call i c).2.Alike (t.call i c).2 := by
  by_cases hc : c = .close
  · subst hc
    exact ⟨rfl, release_alike h u u' i⟩
  · have hs := forward_redact i c s
    rw [h, forward_redact] at hs
    obtain ⟨hreply, hrest⟩ := Prod.mk.inj hs
    rw [call_eq_forward s i c hc, call_eq_forward t i c hc]
    exact ⟨hreply.symm, hrest.symm⟩

theorem advance_alike (h : s.Alike t) (span : Nat) : (s.advance span).Alike (t.advance span) := by
  unfold advance
  rw [h.now]
  exact elapse_alike _ s t h

theorem issueToken_alike (h : s.Alike t) : s.issueToken.Alike t.issueToken := by
  have hs := congrArg issueToken h
  exact hs

theorem cancel_alike (h : s.Alike t) (token : Nat) : (s.cancel token).Alike (t.cancel token) := by
  have hs := congrArg (fun u => { u with tokens := u.tokens.set token true, waiting := [] }) h
  exact rouse_alike _ _ _ _ h.waiting hs

theorem reset_alike (h : s.Alike t) : s.reset.Alike t.reset := by
  have hreset : s.pool.reset.redact = t.pool.reset.redact := by
    rw [← Pool.reset_redact, h.pool, Pool.reset_redact]
  have hs := congrArg (fun u => { u with pool := t.pool.reset.redact }) h
  unfold Alike redact reset at *
  rw [hreset]
  exact hs

theorem reconfigure_alike (h : s.Alike t) (update : Config → Config)
    (hu : ∀ c, (update c).redact = update c.redact) :
    (s.reconfigure update).1 = (t.reconfigure update).1 ∧
      (s.reconfigure update).2.Alike (t.reconfigure update).2 := by
  have hupdate : (update s.pool.config).redact = (update t.pool.config).redact := by
    rw [hu, hu, h.config]
  have hvalidate : (update s.pool.config).validate = (update t.pool.config).validate := by
    show (update s.pool.config).redact.validate = (update t.pool.config).redact.validate
    rw [hupdate]
  unfold reconfigure
  cases hv : (update t.pool.config).validate with
  | error error =>
    rw [Pool.reconfigure_of_error update t.pool error hv,
      Pool.reconfigure_of_error update s.pool error (hvalidate.trans hv)]
    exact ⟨rfl, h⟩
  | ok _ =>
    rw [Pool.reconfigure_of_ok update t.pool hv,
      Pool.reconfigure_of_ok update s.pool (hvalidate.trans hv)]
    refine ⟨rfl, ?_⟩
    have hnew : Alike { s with pool := { s.pool with config := update s.pool.config } }
        { t with pool := { t.pool with config := update t.pool.config } } := by
      have hs := congrArg (fun u => { u with
        pool := { u.pool with config := (update t.pool.config).redact } }) h
      unfold Alike redact Pool.redact at *
      dsimp only at hs ⊢
      rw [hupdate]
      exact hs
    exact reset_alike hnew

theorem shutDown_alike (h : s.Alike t) : s.shutDown.Alike t.shutDown := by
  have hs := congrArg (fun u => { u with isLive := false }) (reset_alike h)
  exact hs

theorem meddle_alike (h : s.Alike t) (f : σ → σ)
    (hf : ∀ d, Discreet.redact (f d) = f (Discreet.redact d)) :
    (s.meddle f).Alike (t.meddle f) := by
  have hm (u : Service σ) : (u.meddle f).redact = u.redact.meddle f := by
    simp [meddle, redact, Pool.redact, Backend.redact, hf]
  unfold Alike
  rw [hm, hm, h]

end Service

end ConnectionPool
