import ConnectionPool.Proofs.Conformity
import ConnectionPool.Proofs.Leases
import ConnectionPool.Proofs.Stretches

/-!
# Stamps

When a connection is lent, its lease is stamped with a type code: that of the address in force at
this moment, and of the credentials that the acquisition came with. Whoever brings none takes the
configured ones, but takes them when it comes. So the stamp is the pool's own unless the configured
credentials have changed while the caller was waiting. In that case the connection that it is lent,
though opened under the configuration in force, is given up when it is returned.
-/

set_option autoImplicit false

namespace ConnectionPool

def Form.isDefault : Form → Bool
  | signedIn _ => false
  | plain | interruptible _ => true

theorem Form.credentials_of_isDefault {form : Form} (h : form.isDefault = true) (config : Config) :
    form.credentials config = config.credentials := by
  cases form with
  | plain | interruptible token => rfl
  | signedIn credentials => exact absurd h (by simp [isDefault])

/-- The last lease that `q` has granted, to a caller that came in this form when the configuration
was `former`. -/
structure Pool.Stamped {σ : Type} (form : Form) (former : Config) (e : Entry) (q : Pool σ) :
    Prop where
  last : q.active.getLast? = some e
  code : e.typeCode = Login.typeCode ⟨q.config.url, form.credentials former⟩
  expected : q.expectedTypeCode = q.config.expectedTypeCode
  /-- The stamp is the expected one unless the configured credentials have changed. -/
  own : form.isDefault = true → former.credentials = q.config.credentials →
    e.typeCode = q.expectedTypeCode

theorem Pool.stamped_of_code {σ : Type} {form : Form} {former : Config} {e : Entry} {q : Pool σ}
    (last : q.active.getLast? = some e)
    (code : e.typeCode = Login.typeCode ⟨q.config.url, form.credentials former⟩)
    (expected : q.expectedTypeCode = q.config.expectedTypeCode) : q.Stamped form former e where
  last := last
  code := code
  expected := expected
  own hd hc := by
    rw [code, expected, form.credentials_of_isDefault hd, hc]
    rfl

namespace Pool

variable {σ : Type} [Driver σ] {now : Nat} {r : Request} {p q : Pool σ} {e : Entry}

theorem config_turns {caller : Nat} {m m' : Option Entry × Pool σ} (h : Turns now caller m m') :
    m'.2.config = m.2.config ∧ m'.2.expectedTypeCode = m.2.expectedTypeCode := by
  induction h with
  | refl => exact ⟨rfl, rfl⟩
  | tail _ ht ih =>
    obtain ⟨hc, hx⟩ := (turn_books ht).config
    exact ⟨hc.trans ih.1, hx.trans ih.2⟩

theorem stamp_seek (h : p.seek now r = (.granted e, q)) :
    q.config = p.config ∧ q.expectedTypeCode = p.expectedTypeCode ∧
      q.active.getLast? = some e ∧ e.typeCode = Login.typeCode ⟨q.config.url, r.credentials⟩ := by
  have he := seek_ends now r p
  generalize p.seek now r = found at h he
  subst h
  obtain ⟨candidate, p₁, p₂, ht, hx, hg⟩ := he
  obtain ⟨hc, hcode⟩ := config_turns ht
  obtain ⟨hc', hcode', -, ha⟩ := grant_frame (r := r) hx
  rw [← hg] at hc' hcode' ha
  refine ⟨hc'.trans hc, hcode'.trans hcode, ?_, ?_⟩
  · rw [ha]
    exact List.getLast?_concat
  · have hurl : p₂.config = q.config :=
      (congrArg Books.config (examine_books now r.caller candidate true p₁ p₂ hx)).trans hc'.symm
    have he : e = (p₂.grant now r candidate).1 := congrArg Prod.fst hg
    rw [← hurl, he]
    rfl

end Pool

namespace Service

variable {σ : Type} [Driver σ] {s t u : Service σ} {r : Request}

def Unreset : List (Op σ) → Service σ → Prop
  | [], _ => True
  | op :: rest, s => ¬ Resets op s ∧ Unreset rest (step op s)

theorem expected_step (op : Op σ) (s : Service σ) (h : ¬ Resets op s) :
    (step op s).pool.config = s.pool.config ∧
      (step op s).pool.expectedTypeCode = s.pool.expectedTypeCode := by
  rcases step_moves s op with hm | hm | ⟨i, c, rfl, -, hm⟩
  · exact config_moves hm
  · generalize step op s = s' at hm
    cases hm with
    | meddle s f | issueToken s hl => exact ⟨rfl, rfl⟩
    | reset s hl => exact absurd hl h
    | shutDown s hl hw => exact absurd ⟨hl, hw⟩ h
    | reconfigure s update hl =>
      cases hv : (update s.pool.config).validate with
      | ok _ => exact absurd ⟨hl, hv⟩ h
      | error error =>
        show (s.pool.reconfigure update).2.config = _ ∧
          (s.pool.reconfigure update).2.expectedTypeCode = _
        rw [Pool.reconfigure_of_error update s.pool error hv]
        exact ⟨rfl, rfl⟩
  · show (s.call i c).2.pool.config = _ ∧ (s.call i c).2.pool.expectedTypeCode = _
    rw [hm]
    exact config_forward s i c

theorem expected_run (ops : List (Op σ)) (s : Service σ) (h : Unreset ops s) :
    (run ops s).pool.expectedTypeCode = s.pool.expectedTypeCode := by
  induction ops generalizing s with
  | nil => rfl
  | cons op rest ih => exact (ih _ h.2).trans (expected_step op s h.1).2

/-- As long as the pool is not reset, the return of the entry recycles its connection, provided that
it is untouched and there is a place for it. -/
def Recyclable (e : Entry) (u : Service σ) : Prop :=
  ∀ later, Unreset later u → (run later u).pool.status e.id = .valid →
    (((run later u).pool.takeBack (run later u).now e).1 = true ↔
      (run later u).pool.idle.length < (run later u).pool.config.maxIdle.toNat)

theorem recyclable_of_code {e : Entry} (h : e.typeCode = u.pool.expectedTypeCode) :
    Recyclable e u := by
  intro later hl hv
  have hcode : e.typeCode = (run later u).pool.expectedTypeCode :=
    h.trans (expected_run later u hl).symm
  by_cases hroom : (run later u).pool.idle.length < (run later u).pool.config.maxIdle.toNat
  · have hk := ((run later u).pool.takeBack_kept (run later u).now e hv ⟨hroom, hcode⟩).1
    exact iff_of_true hk hroom
  · have hk := ((run later u).pool.takeBack_closed (run later u).now e hv fun h => hroom h.1).1
    exact iff_of_false (by rw [hk]; exact Bool.false_ne_true) hroom

structure Traced (asked : Nat → Credentials → Prop) (pending : List Request) (u : Service σ) :
    Prop where
  attributed : Attributed asked u
  pending : ∀ r ∈ pending, asked r.caller r.credentials

theorem Traced.kept {asked : Nat → Credentials → Prop} (op : Op σ) (k : Attributed asked s)
    (hcome : ∀ form, op = .acquire form → s.isLive = true →
      asked s.callers (form.credentials s.pool.config)) : KeptThrough op s (Traced asked) where
  perm hp k := ⟨k.attributed, fun r hr => k.pending r (hp.symm.subset hr)⟩
  rise {pending s x others} hw k := by
    have hx := k.attributed.waiting x (hw.symm.subset List.mem_cons_self)
    have ho (y : Sleeper) (hy : y ∈ others) :=
      k.attributed.waiting y (hw.symm.subset (List.mem_cons_of_mem x hy))
    exact ⟨⟨ho, k.attributed.lent⟩, List.forall_mem_cons.mpr ⟨hx, k.pending⟩⟩
  pass _ k := ⟨⟨k.attributed.waiting, k.attributed.lent⟩, k.pending⟩
  awake k := ⟨⟨k.attributed.waiting, k.attributed.lent⟩, k.pending⟩
  interrupt {r pending s} k :=
    ⟨k.attributed.settle_error r .interrupted, fun x hx => k.pending x (List.mem_cons_of_mem r hx)⟩
  pursue {r pending s} _ _ k :=
    ⟨k.attributed.pursue (k.pending r List.mem_cons_self),
      fun x hx => k.pending x (List.mem_cons_of_mem r hx)⟩
  first := ⟨k, fun _ h => absurd h List.not_mem_nil⟩
  come form ho hl :=
    ⟨⟨k.waiting, k.lent⟩, fun r hr => List.mem_singleton.mp hr ▸ hcome form ho hl⟩
  takeBack hh _ := ⟨k.takeBack hh, fun _ h => absurd h List.not_mem_nil⟩
  mark _ := ⟨⟨k.waiting, k.lent⟩, fun _ h => absurd h List.not_mem_nil⟩
  forward i c _ := ⟨k.forward i c, fun _ h => absurd h List.not_mem_nil⟩
  command _ h := ⟨k.command h, fun _ h => absurd h List.not_mem_nil⟩

theorem asked_of_begins (ops : List (Op σ)) (op : Op σ) (hw : s.waiting = [])
    (ha : s.pool.active = []) (ho : (run ops s).Steady) (h : Begins r t op (run ops s)) :
    Asked (ops ++ [op]) s r.caller r.credentials := by
  have k : Attributed (Asked (ops ++ [op]) s) (run ops s) :=
    (attributed_run ops s hw ha).mono fun caller credentials hasked => asked_append hasked [op]
  have hk : KeptThrough op (run ops s) (Traced (Asked (ops ++ [op]) s)) := by
    refine Traced.kept op k fun form hop hl => ?_
    exact ⟨ops, form, [], by rw [hop], hl, rfl, rfl⟩
  obtain ⟨others, kt⟩ := hk.begins ho h
  exact kt.pending r List.mem_cons_self

theorem not_resets_of_begins {op : Op σ} (h : Begins r t op s) : ¬ Resets op s := by
  cases h <;> exact id

/-- In every run of every pool, a lease is stamped in the operation in which its handle is given
out, with the credentials that its acquisition came with. If those are configured still, it has the
expected type code, and its connection is recyclable. -/
theorem stamps_run (driver : σ) (config : Config) (pool : Pool σ)
    (h : Pool.create driver config = .ok pool) (ops : List (Op σ)) (op : Op σ) (i : Nat)
    (handle : Handle) (hi : (run ops (start pool)).handles.length ≤ i)
    (hh : (run (ops ++ [op]) (start pool)).handles[i]? = some handle) :
    ∃ before form after, ops ++ [op] = before ++ .acquire form :: after ∧
      (run before (start pool)).isLive = true ∧
      (run before (start pool)).callers = handle.caller ∧
      ∃ r t q, Begins r t op (run ops (start pool)) ∧ r.caller = handle.caller ∧
        t.pool.seek t.now r = (.granted handle.entry, q) ∧
        q.config = (run ops (start pool)).pool.config ∧
        q.Stamped form (run before (start pool)).pool.config handle.entry ∧
        (handle.entry.typeCode = q.expectedTypeCode →
          Recyclable handle.entry (run (ops ++ [op]) (start pool))) := by
  have hp := Pool.of_create driver config pool h
  have ho : (run ops (start pool)).Steady := fit_run driver config pool h ops
  rw [run_append] at hh ⊢
  rcases (stems_step op ho).held i handle hh with hl | ⟨r, t, hb, hc, hg⟩
  · exact absurd hl (Nat.not_lt.mpr hi)
  obtain ⟨before, form, after, heq, hlive, hcaller, hcredentials⟩ :=
    asked_of_begins ops op (s := start pool) (by rw [hp]; rfl) (by rw [hp]; rfl) ho hb
  have hseek : t.pool.seek t.now r = (.granted handle.entry, (t.pool.seek t.now r).2) :=
    Prod.ext hg rfl
  -- in this operation the configuration stays the same, before the stretch and in it
  obtain ⟨hqt, hxqt, hlast, hcode⟩ := Pool.stamp_seek hseek
  obtain ⟨hts, hxts⟩ := config_moves (begins_moves hb)
  have hq := hqt.trans hts
  have hxq := hxqt.trans hxts
  have hcurrent := current_run ops _ (provenance_start driver config pool h)
    (current_start driver config pool h)
  refine ⟨before, form, after, heq, hlive, hcaller.trans hc, r, t, (t.pool.seek t.now r).2, hb, hc,
    hseek, hq, Pool.stamped_of_code hlast (hcredentials ▸ hcode) ?_, fun hown => ?_⟩
  · rw [hxq, hcurrent.expected, hq]
  · refine recyclable_of_code (hown.trans ?_)
    show _ = (step op (run ops (start pool))).pool.expectedTypeCode
    rw [hxq, (expected_step op _ (not_resets_of_begins hb)).2]

def passwordRestored : List (Op Scripted) :=
  [.acquire .plain, .issueToken, .acquire .plain,
    .reconfigure fun c => { c with password := "changed" },
    .reconfigure fun c => { c with password := Config.single.password }]

theorem stamps_passwordRestored :
    let s := run passwordRestored (start (Pool.unused ({} : Scripted) Config.single))
    let u := run (passwordRestored ++ [.cancel 0])
      (start (Pool.unused ({} : Scripted) Config.single))
    Pool.create ({} : Scripted) Config.single = .ok (Pool.unused {} Config.single) ∧
      s.handles.length ≤ 1 ∧ ∃ handle, u.handles[1]? = some handle ∧ handle.caller = 1 ∧
        handle.entry.typeCode = u.pool.expectedTypeCode ∧ Recyclable handle.entry u := by
  intro s u
  have hcount : s.handles.length ≤ 1 := by decide +kernel
  have hnew : (u.handles[1]?.any fun handle => handle.caller == 1 &&
      (handle.entry.typeCode == u.pool.expectedTypeCode &&
        handle.entry.typeCode == s.pool.config.expectedTypeCode)) = true := by decide +kernel
  obtain ⟨handle, hh, hv⟩ := (Option.any_eq_true _ _).mp hnew
  simp only [Bool.and_eq_true, beq_iff_eq] at hv
  obtain ⟨hcaller, hcode, hconfigured⟩ := hv
  obtain ⟨before, form, after, -, -, -, r, t, q, -, -, -, hq, k, hrecyclable⟩ :=
    stamps_run ({} : Scripted) Config.single (Pool.unused {} Config.single) rfl passwordRestored
      (.cancel 0) 1 handle hcount hh
  refine ⟨rfl, hcount, handle, hh, hcaller, hcode, hrecyclable ?_⟩
  rw [k.expected, hq]
  exact hconfigured

def loginChangeWhileWaiting : List (Op Scripted) :=
  [.acquire .plain, .issueToken, .acquire .plain,
    .reconfigure fun c => { c with url := "mock://localhost/other", password := "changed" },
    .cancel 0]

/-- The caller brought no credentials, and its connection is opened under the configured login. But
the stamp is neither the one that is expected now nor the one that was expected before, so there is
a place for the connection and yet it is not recycled. -/
theorem misfit_loginChangeWhileWaiting :
    let s := run loginChangeWhileWaiting (start (Pool.unused ({} : Scripted) Config.single))
    ∃ handle ∈ s.handles, handle.caller = 1 ∧
      .connect s.pool.config.login (.ok handle.entry.channel) ∈ s.pool.backend.journal ∧
      handle.entry.typeCode ≠ s.pool.expectedTypeCode ∧
      handle.entry.typeCode ≠ Config.single.expectedTypeCode ∧
      s.pool.status handle.entry.id = .valid ∧
      s.pool.idle.length < s.pool.config.maxIdle.toNat ∧
      (s.pool.takeBack s.now handle.entry).1 = false := by
  intro s
  have hmisfit : ∃ handle ∈ s.handles, handle.entry ∈ s.pool.active ∧ handle.caller = 1 ∧
      handle.entry.typeCode ≠ s.pool.expectedTypeCode ∧
      handle.entry.typeCode ≠ Config.single.expectedTypeCode ∧
      s.pool.status handle.entry.id = .valid ∧
      s.pool.idle.length < s.pool.config.maxIdle.toNat ∧
      (s.pool.takeBack s.now handle.entry).1 = false := by decide +kernel
  obtain ⟨handle, hm, ha, hcaller, hrest⟩ := hmisfit
  have k := current_run loginChangeWhileWaiting _
    (provenance_start ({} : Scripted) Config.single (Pool.unused {} Config.single) rfl)
    (current_start ({} : Scripted) Config.single (Pool.unused {} Config.single) rfl)
  exact ⟨handle, hm, hcaller, k.opened handle.entry (List.mem_append_right s.pool.idle ha), hrest⟩

end Service

end ConnectionPool
