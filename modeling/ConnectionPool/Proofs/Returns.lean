import ConnectionPool.Proofs.Capacity
import ConnectionPool.Proofs.Leases
import Mathlib.Data.List.Perm.Subperm

/-!
# Returns in any order

While nobody waits, a return wakes no one, and returns that follow one another come to the same in
any order. Each ends the lease of its own handle, is tallied by whether its entry is still valid,
and adds an idle connection if its own can be used again and there is a place for it. Which
connections stay depends on the order; how many stay does not, and neither depends on what the
driver answers.
-/

set_option autoImplicit false

namespace ConnectionPool

theorem Tally.addCheckout_comm (held held' : Nat) (t : Tally) :
    (t.addCheckout held).addCheckout held' = (t.addCheckout held').addCheckout held := by
  simp only [addCheckout, Nat.add_right_comm]

namespace Pool

variable {σ : Type} [Driver σ]

theorem takeBack_sums (now : Nat) (e : Entry) (p : Pool σ) :
    let q := (p.takeBack now e).2
    q.config = p.config ∧ q.expectedTypeCode = p.expectedTypeCode ∧
      q.idle.length = p.idle.length + (if p.status e.id = .valid ∧ p.keeps e then 1 else 0) ∧
      q.tally = (if p.status e.id = .valid then p.tally.addCheckout (e.heldFor now)
        else p.tally.addBad) ∧
      ∀ id, id ≠ e.id → q.status id = p.status id := by
  refine p.takeBack_cases now e (motive := fun _ b =>
    b.config = p.config ∧ b.expectedTypeCode = p.expectedTypeCode ∧
      b.idle.length = p.idle.length + (if p.status e.id = .valid ∧ p.keeps e then 1 else 0) ∧
      b.tally = (if p.status e.id = .valid then p.tally.addCheckout (e.heldFor now)
        else p.tally.addBad) ∧
      ∀ id, id ≠ e.id → b.status id = p.status id) ?retired ?kept ?closed
  case retired =>
    intro hv
    rw [if_neg hv, if_neg fun h => hv h.1]
    exact ⟨rfl, rfl, rfl, rfl, fun _ _ => rfl⟩
  case kept =>
    intro hv hk
    rw [if_pos hv, if_pos ⟨hv, hk⟩]
    exact ⟨rfl, rfl, List.length_append, rfl,
      fun id hi => Books.status_retire_ne e.id .superseded (p.books.takeOut e) id hi⟩
  case closed =>
    intro hv hk
    rw [if_pos hv, if_neg fun h => hk h.2]
    exact ⟨rfl, rfl, rfl, rfl,
      fun id hi => Books.status_retire_ne e.id .invalidated (p.books.takeOut e) id hi⟩

end Pool

namespace Service

variable {σ : Type}

def IsOut (i : Nat) (s : Service σ) : Prop :=
  ∃ handle, s.handles[i]? = some handle ∧ handle.released = false

instance (i : Nat) (s : Service σ) : Decidable (s.IsOut i) :=
  decidable_of_iff (s.handles[i]?.any fun h => !h.released) <| by
    rw [Option.any_eq_true]
    simp only [Bool.not_eq_true']
    exact Iff.rfl

def handlesAt (numbers : List Nat) (s : Service σ) : List Handle :=
  numbers.filterMap fun i => s.handles[i]?

/-- The connection of the handle may be lent again under the expected type code. -/
def isReusable (s : Service σ) (h : Handle) : Bool :=
  s.isValid h && h.entry.typeCode == s.pool.expectedTypeCode

def tallied (s : Service σ) (t : Tally) (h : Handle) : Tally :=
  if s.isValid h then t.addCheckout (h.entry.heldFor s.now) else t.addBad

theorem tallied_comm (s : Service σ) (t : Tally) (h h' : Handle) :
    s.tallied (s.tallied t h) h' = s.tallied (s.tallied t h') h := by
  unfold tallied
  split <;> split
  · exact Tally.addCheckout_comm _ _ t
  · rfl
  · rfl
  · rfl

structure Returned (s : Service σ) (hands : List Handle) (t : Service σ) : Prop where
  active : t.pool.active = s.pool.active.diff (hands.map Handle.entry)
  idle : t.pool.idle.length =
    min s.pool.config.maxIdle.toNat (s.pool.idle.length + hands.countP s.isReusable)
  tally : t.pool.tally = hands.foldl s.tallied s.pool.tally

theorem Returned.perm {s t : Service σ} {hands hands' : List Handle} (h : s.Returned hands t)
    (hp : hands.Perm hands') : s.Returned hands' t where
  active := h.active.trans (List.Perm.diff_left _ (hp.map Handle.entry))
  idle := by rw [h.idle, hp.countP_eq]
  tally := h.tally.trans (hp.foldl_eq' (fun x _ y _ t => tallied_comm s t x y) _)

theorem Returned.of_meddle {s t : Service σ} {hands : List Handle} {f : σ → σ}
    (h : (s.meddle f).Returned hands t) : s.Returned hands t :=
  ⟨h.active, h.idle, h.tally⟩

variable [Driver σ]

theorem release_unwaited (s : Service σ) (i : Nat) (handle : Handle)
    (hh : s.handles[i]? = some handle) (hr : handle.released = false) (hw : s.waiting = []) :
    s.release i = s.takeBack i handle := by
  have hwake : (s.takeBack i handle).wakeFirst = s.takeBack i handle := by
    have ht : (s.takeBack i handle).waiting = [] := hw
    rw [wakeFirst, takeFirst, ht]
    exact rouse.eq_1 _
  rw [release_eq s i handle hh hr, hwake]
  exact ite_self _

variable {s : Service σ} {i : Nat} {handle : Handle}

omit [Driver σ] in
theorem isValid_of_out (hr : handle.released = false) :
    s.isValid handle = (s.pool.status handle.entry.id == .valid) := by
  rw [isValid, hr, Bool.not_false, Bool.true_and]

theorem isValid_takeBack (l : s.HasLedger none) (hh : s.handles[i]? = some handle) {j : Nat}
    {other : Handle} (hj : s.handles[j]? = some other) (hij : i ≠ j) :
    (s.takeBack i handle).isValid other = s.isValid other := by
  have hne : other.entry.id ≠ handle.entry.id := fun he => hij (index_unique l hh hj he.symm)
  obtain ⟨-, -, -, -, hs⟩ := s.pool.takeBack_sums s.now handle.entry
  unfold isValid
  rw [← hs _ hne]
  rfl

theorem handlesAt_takeBack {numbers : List Nat} (hn : i ∉ numbers) :
    (s.takeBack i handle).handlesAt numbers = s.handlesAt numbers := by
  apply List.filterMap_congr
  intro j hj
  refine List.getElem?_set_ne ?_
  rintro rfl
  exact hn hj

theorem isValid_of_handlesAt (l : s.HasLedger none) (hh : s.handles[i]? = some handle)
    {numbers : List Nat} (hn : i ∉ numbers) :
    ∀ other ∈ s.handlesAt numbers, (s.takeBack i handle).isValid other = s.isValid other := by
  intro other hother
  obtain ⟨j, hj, hother⟩ := List.mem_filterMap.mp hother
  refine isValid_takeBack l hh hother ?_
  rintro rfl
  exact hn hj

theorem min_idle_takeBack (hm : s.pool.idle.length ≤ s.pool.config.maxIdle.toNat)
    (hr : handle.released = false) (more : Nat) :
    min s.pool.config.maxIdle.toNat ((s.takeBack i handle).pool.idle.length + more) =
      min s.pool.config.maxIdle.toNat
        (s.pool.idle.length + (more + if s.isReusable handle then 1 else 0)) := by
  obtain ⟨-, -, hi, -, -⟩ := s.pool.takeBack_sums s.now handle.entry
  have hreusable : s.isReusable handle = true ↔ s.pool.status handle.entry.id = .valid ∧
      handle.entry.typeCode = s.pool.expectedTypeCode := by
    rw [isReusable, isValid_of_out hr, Bool.and_eq_true, beq_iff_eq, beq_iff_eq]
  change min _ ((s.pool.takeBack s.now handle.entry).2.idle.length + more) = _
  rw [hi]
  by_cases hu : s.isReusable handle = true
  · obtain ⟨hv, he⟩ := hreusable.mp hu
    rw [if_pos hu]
    by_cases hp : s.pool.idle.length < s.pool.config.maxIdle.toNat
    · rw [if_pos ⟨hv, hp, he⟩]
      omega
    · -- there are as many idle connections as may be, before and after
      rw [if_neg fun hk => hp hk.2.1]
      omega
  · rw [if_neg hu, if_neg fun hk => hu (hreusable.mpr ⟨hk.1, hk.2.2⟩)]
    omega

theorem Returned.cons {numbers : List Nat} {t : Service σ} (l : s.HasLedger none)
    (hm : s.pool.idle.length ≤ s.pool.config.maxIdle.toNat) (hh : s.handles[i]? = some handle)
    (hr : handle.released = false) (hn : i ∉ numbers)
    (h : (s.takeBack i handle).Returned ((s.takeBack i handle).handlesAt numbers) t) :
    s.Returned (s.handlesAt (i :: numbers)) t := by
  obtain ⟨hc, hx, -, ht, -⟩ := s.pool.takeBack_sums s.now handle.entry
  have hvalid := isValid_of_handlesAt l hh hn
  have hlimit : (s.takeBack i handle).pool.config.maxIdle = s.pool.config.maxIdle :=
    congrArg Config.maxIdle hc
  have hcode : (s.takeBack i handle).pool.expectedTypeCode = s.pool.expectedTypeCode := hx
  have hall : s.handlesAt (i :: numbers) = handle :: s.handlesAt numbers := by
    rw [handlesAt, List.filterMap_cons, hh]
    rfl
  rw [handlesAt_takeBack hn] at h
  rw [hall]
  constructor
  case active =>
    have ha : (s.takeBack i handle).pool.active = s.pool.active.erase handle.entry :=
      (Pool.takeBack_frame s.now handle.entry s.pool).2.trans
        (l.erase_lease (List.mem_of_getElem? hh))
    rw [h.active, ha, List.map_cons, List.diff_cons]
  case idle =>
    have hcount : (s.handlesAt numbers).countP (s.takeBack i handle).isReusable =
        (s.handlesAt numbers).countP s.isReusable := by
      apply List.countP_congr
      intro other hother
      rw [isReusable, isReusable, hvalid other hother, hcode]
    rw [h.idle, hcount, hlimit, min_idle_takeBack hm hr, List.countP_cons]
  case tally =>
    have hone : (s.takeBack i handle).pool.tally = s.tallied s.pool.tally handle := by
      rw [tallied, isValid_of_out hr]
      simp only [beq_iff_eq]
      exact ht
    rw [h.tally, hone, List.foldl_cons]
    apply List.foldl_ext
    intro t other hother
    rw [tallied, tallied, hvalid other hother]
    rfl

theorem returned_releases (numbers : List Nat) (s : Service σ) (l : s.HasLedger none)
    (f : s.pool.books.Fit none) (hw : s.waiting = []) (hn : numbers.Nodup)
    (ho : ∀ i ∈ numbers, s.IsOut i) :
    s.Returned (s.handlesAt numbers) (run (numbers.map Op.release) s) := by
  induction numbers generalizing s with
  | nil => exact ⟨rfl, (Nat.min_eq_right f.idle_le).symm, rfl⟩
  | cons i numbers ih =>
    obtain ⟨hi, hrest⟩ := List.nodup_cons.mp hn
    obtain ⟨handle, hh, hr⟩ := ho i List.mem_cons_self
    rw [List.map_cons, run, step, release_unwaited s i handle hh hr hw]
    have hout : ∀ j ∈ numbers, (s.takeBack i handle).IsOut j := by
      intro j hj
      obtain ⟨other, hother, hor⟩ := ho j (List.mem_cons_of_mem i hj)
      refine ⟨other, (List.getElem?_set_ne ?_).trans hother, hor⟩
      rintro rfl
      exact hi hj
    have hl := fit_move _ _ (.takeBack s i handle hh hr) ⟨l, f⟩
    exact (ih (s.takeBack i handle) hl.1 hl.2 hw hrest hout).cons l f.idle_le hh hr hi

/-- The order of returns does not show: whatever the driver answers, the leases that run on, the
number of idle connections and the whole tally are the same. As many connections stay idle as can be
used again and find a place. -/
theorem releases_run (driver : σ) (config : Config) (pool : Pool σ)
    (h : Pool.create driver config = .ok pool) (ops : List (Op σ)) (numbers numbers' : List Nat)
    (f : σ → σ) (hw : (run ops (start pool)).waiting = []) (hn : numbers.Nodup)
    (ho : ∀ i ∈ numbers, (run ops (start pool)).IsOut i) (hp : numbers.Perm numbers') :
    let s := run ops (start pool)
    let t := run (numbers.map Op.release) s
    let t' := run (numbers'.map Op.release) (s.meddle f)
    t.pool.active = t'.pool.active ∧ t.pool.idle.length = t'.pool.idle.length ∧
      t.pool.tally = t'.pool.tally ∧
      t.pool.idle.length = min s.pool.config.maxIdle.toNat
        (s.pool.idle.length + (s.handlesAt numbers).countP s.isReusable) ∧
      s.pool.idle.length ≤ t.pool.idle.length := by
  intro s t t'
  obtain ⟨l, fit⟩ := fit_run driver config pool h ops
  have hone : s.Returned (s.handlesAt numbers) t := returned_releases numbers s l fit hw hn ho
  have hother : s.Returned (s.handlesAt numbers') t' := by
    have hc := fit_command (.meddle f) s (s.meddle f) (.meddle s f) ⟨l, fit⟩
    exact (returned_releases numbers' (s.meddle f) hc.1 hc.2 hw (hp.nodup_iff.mp hn)
      fun i hi => ho i (hp.mem_iff.mpr hi)).of_meddle
  have htwo := hother.perm (hp.symm.filterMap _)
  refine ⟨hone.active.trans htwo.active.symm, hone.idle.trans htwo.idle.symm,
    hone.tally.trans htwo.tally.symm, hone.idle, ?_⟩
  have hle := fit.idle_le
  rw [hone.idle]
  exact Nat.le_min.mpr ⟨hle, Nat.le_add_right _ _⟩

/-- One connection may be idle. A lease is given up by the change, two could be used again, and one
is another user's. -/
def fourLeasesOneIdlePlace : List (Op Scripted) :=
  [.acquire .plain, .reconfigure fun c => { c with maxIdle := 1 }, .acquire .plain, .acquire .plain,
    .acquire (.signedIn ⟨"guest", ""⟩)]

theorem releases_fourLeasesOneIdlePlace :
    let s := run fourLeasesOneIdlePlace (start (Pool.unused {} Config.trial))
    let t := run ([0, 1, 2, 3].map Op.release) s
    let t' := run ([3, 2, 0, 1].map Op.release) (s.meddle fun _ => {})
    Pool.create ({} : Scripted) Config.trial = .ok (Pool.unused {} Config.trial) ∧
      s.waiting = [] ∧ (∀ i ∈ [0, 1, 2, 3], s.IsOut i) ∧ t.pool.tally = t'.pool.tally ∧
      t.pool.active = t'.pool.active ∧ t.pool.idle.length = t'.pool.idle.length ∧
      s.pool.idle.length ≤ t.pool.idle.length ∧ t.pool.idle ≠ t'.pool.idle := by
  intro s t t'
  have hw : s.waiting = [] := by decide +kernel
  have ho : ∀ i ∈ [0, 1, 2, 3], s.IsOut i := by decide +kernel
  obtain ⟨ha, hi, ht, -, hle⟩ := releases_run ({} : Scripted) Config.trial
    (Pool.unused {} Config.trial) rfl fourLeasesOneIdlePlace [0, 1, 2, 3] [3, 2, 0, 1]
    (fun _ => {}) hw (by decide) ho (by decide)
  exact ⟨rfl, hw, ho, ht, ha, hi, hle, by decide +kernel⟩

end Service

end ConnectionPool
