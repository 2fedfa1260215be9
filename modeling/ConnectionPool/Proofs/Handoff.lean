import ConnectionPool.Proofs.Relay
import ConnectionPool.Proofs.Search

/-!
# Handing a connection over

No connection is idle while a caller sleeps. So a holder that returns a connection worth keeping to
a pool with sleepers hands it over to the first of them: the return serves this caller and no other,
with that very connection if it is sound, and with a new one or an error if it is not.
-/

set_option autoImplicit false

namespace ConnectionPool

namespace Pool

variable {σ : Type} [Driver σ]

theorem examinations_takeBack (now : Nat) (e : Entry) (p : Pool σ) :
    (p.takeBack now e).2.examinations = p.examinations := by
  rw [examinations_books, examinations_books]
  exact p.takeBack_cases now e (motive := fun _ b => b.examinations = p.books.examinations)
    (fun _ => rfl) (fun _ _ => rfl) (fun _ _ => rfl)

theorem opened_takeBack (now : Nat) (e : Entry) (p : Pool σ) :
    (p.takeBack now e).2.backend.opened = p.backend.opened :=
  p.takeBack_cases now e (motive := fun _ b => b.record.opened = p.backend.opened)
    (fun _ => rfl) (fun _ _ => rfl) (fun _ _ => rfl)

theorem idle_takeBack (now : Nat) (e : Entry) (p : Pool σ) :
    (p.takeBack now e).2.idle =
      if (p.takeBack now e).1 then p.idle ++ [e.successor p.nextEntry] else p.idle :=
  p.takeBack_cases now e (motive := fun kept b =>
      b.idle = if kept then p.idle ++ [e.successor p.nextEntry] else p.idle)
    (fun _ => rfl) (fun _ _ => rfl) (fun _ _ => rfl)

end Pool

namespace Service

variable {σ : Type}

def Tidy (s : Service σ) : Prop := s.waiting = [] ∨ s.pool.idle = []

/-- At most one is, which the caller that runs takes. -/
def Offered (s : Service σ) : Prop := s.waiting = [] ∨ s.pool.idle.length ≤ 1

theorem idle_block (r : Request) (s : Service σ) : (s.block r).pool.idle = s.pool.idle := by
  unfold block countWait
  dsimp only
  split <;> split <;> rfl

theorem Tidy.offered {s : Service σ} (h : Tidy s) : Offered s := by
  refine h.imp_right fun hi => ?_
  rw [hi]
  exact Nat.zero_le 1

def Undisturbed (s : Service σ) : Prop :=
  ∀ x ∈ s.waiting, s.isCancelled x.request.token = false

theorem isCancelled_issueToken (token : Option Nat) (s : Service σ) :
    s.issueToken.isCancelled token = s.isCancelled token := by
  cases token with
  | none => rfl
  | some t =>
    show ((s.tokens ++ [false])[t]?).getD false = (s.tokens[t]?).getD false
    rw [List.getElem?_append]
    split
    · rfl
    · rename_i hl
      rw [List.getElem?_eq_none (Nat.le_of_not_lt hl)]
      cases t - s.tokens.length <;> rfl

/-- From one service to the other the request is settled and no other one, and the sleepers are
those of the queue. The caller was offered a connection on the link first. If it was sound the
caller was lent it, or else it was lent one that was opened only meanwhile, or it failed. -/
structure Served (s s' : Service σ) (r : Request) (queue : List Sleeper) (link : Link)
    (result : Except PoolError Entry) (first : Examination) (later : List Examination) : Prop where
  waiting : s'.waiting = queue
  settled : s'.settlements = ⟨r.caller, s.now, result⟩ :: s.settlements
  examined : s'.pool.examinations = later ++ first :: s.pool.examinations
  examiner : first.caller = r.caller
  offered : first.entry.link = link
  sound : first.sound = true → ∃ lent, result = .ok lent ∧ lent.link = link
  unsound : first.sound = false →
    (∃ lent, result = .ok lent ∧ s.pool.backend.opened ≤ lent.channel) ∨
      ∃ error, result = .error error ∧ error ≠ .interrupted
  handed : ∀ lent, result = .ok lent →
    s'.handles.getLast? = some { caller := r.caller, entry := lent }

theorem Served.congr {s t s' : Service σ} {r : Request} {queue : List Sleeper} {link : Link}
    {result : Except PoolError Entry} {first : Examination} {later : List Examination}
    (h : Served t s' r queue link result first later) (hn : t.now = s.now)
    (hs : t.settlements = s.settlements) (he : t.pool.examinations = s.pool.examinations)
    (ho : t.pool.backend.opened = s.pool.backend.opened) :
    Served s s' r queue link result first later where
  waiting := h.waiting
  settled := by rw [← hn, ← hs, h.settled]
  examined := by rw [← he, h.examined]
  examiner := h.examiner
  offered := h.offered
  sound := h.sound
  unsound := by
    rw [← ho]
    exact h.unsound
  handed := h.handed

variable [Driver σ]

theorem tidy_pursue (s : Service σ) (r : Request) (h : Offered s) : Tidy (s.pursue r) := by
  have hend := Pool.seek_ends s.now r s.pool
  have hi : (s.pool.seek s.now r).2.idle <:+ s.pool.idle.tail :=
    Pool.idle_seekWithin s.now _ r s.pool
  unfold pursue
  generalize s.pool.seek s.now r = found at hend hi
  obtain ⟨outcome, q⟩ := found
  have hq (hl : s.pool.idle.length ≤ 1) : q.idle = [] := by
    have ht : s.pool.idle.tail = [] := List.eq_nil_of_length_eq_zero (by
      rw [List.length_tail]
      omega)
    rw [ht] at hi
    exact List.suffix_nil.mp hi
  cases outcome with
  | granted lent => exact h.imp_right hq
  | failed error => exact h.imp_right hq
  | saturated r' => exact Or.inr ((idle_block r' { s with pool := q }).trans hend.2.1.1)

theorem tidy_relay : Relay (σ := σ) Tidy Offered where
  due _ := Tidy.offered
  alone _ hw _ := Or.inl hw
  pursue := tidy_pursue
  pass _ _ h := h
  frame s s' hi _ _ _ hw h := by
    unfold Offered
    rw [hi]
    exact h.imp_left hw

theorem tidy_release (s : Service σ) (i : Nat) (h : Tidy s) : Tidy (s.release i) := by
  rcases release_cases s i with hs | ⟨handle, hh, hr, hs⟩
  · rw [hs]
    exact h
  · have hi := Pool.idle_takeBack s.now handle.entry s.pool
    rw [hs]
    split
    · rename_i hk
      refine tidy_relay.wakeFirst _ (h.imp_right fun he => ?_)
      rw [hk, he] at hi
      exact Nat.le_of_eq (congrArg List.length hi)
    · rename_i hk
      rw [if_neg hk] at hi
      exact h.imp_right hi.trans

theorem tidy_reconfigure (s : Service σ) (update : Config → Config) (h : Tidy s) :
    Tidy (s.reconfigure update).2 :=
  s.pool.reconfigure_cases update (motive := fun q => Tidy { s with pool := q }) h
    (Or.inr (Pool.reset_frame _).2.1)

theorem tidy_step (s : Service σ) (op : Op σ) (h : Tidy s) : Tidy (step op s) := by
  cases op with
  | acquire form =>
    simp only [step]
    split
    · exact tidy_pursue _ _ h.offered
    · exact h
  | call i c =>
    cases c with
    | close => exact tidy_release s i h
    | isClosed | autoCommit | setAutoCommit enabled | commit | rollback | execute sql =>
      obtain ⟨hw, hi, -, -⟩ := forward_frame s i _
      exact h.imp hw.trans hi.trans
  | release i => exact tidy_release s i h
  | advance span => exact tidy_relay.elapse _ s h
  | cancel token =>
    exact tidy_relay.rouse _ { s with tokens := s.tokens.set token true, waiting := [] }
      (Or.inl (Or.inl rfl))
  | issueToken =>
    simp only [step]
    split <;> exact h
  | reset | shutDown =>
    simp only [step]
    split
    · exact Or.inr (Pool.reset_frame _).2.1
    · exact h
  | reconfigure update =>
    simp only [step]
    split
    · exact tidy_reconfigure s update h
    · exact h
  | meddle f => exact h

theorem tidy_run (ops : List (Op σ)) (s : Service σ) (h : Tidy s) : Tidy (run ops s) := by
  induction ops generalizing s with
  | nil => exact h
  | cons op rest ih => exact ih _ (tidy_step s op h)

theorem undisturbed_move (m m' : Option Entry × Service σ) (h : Move m m')
    (hu : m.2.Undisturbed) : m'.2.Undisturbed := by
  cases h with
  | mark s token hw =>
    intro x hx
    change x ∈ s.waiting at hx
    rw [hw] at hx
    exact absurd hx List.not_mem_nil
  | leave s waiting hs => exact fun x hx => hu x (hs.subset hx)
  | sleep s r hs hc =>
    intro x hx
    rcases List.mem_append.mp hx with hx | hx
    · exact hu x hx
    · rw [List.mem_singleton.mp hx]
      exact hc
  | countWait s r =>
    unfold countWait
    split <;> exact hu
  | come s | pass s | awake s x | fail s r error | turn s caller hand hand' q h => exact hu
  | grant s r e q h | takeBack s i handle hh hr => exact hu

theorem undisturbed_command (op : Op σ) (s s' : Service σ) (h : Command op s s')
    (hu : s.Undisturbed) : s'.Undisturbed := by
  cases h with
  | issueToken s hl =>
    intro x hx
    rw [isCancelled_issueToken]
    exact hu x hx
  | meddle s f | reset s hl | reconfigure s update hl | shutDown s hl hw => exact hu

theorem undisturbed_run (ops : List (Op σ)) (s : Service σ) (h : s.Undisturbed) :
    (run ops s).Undisturbed := by
  refine run_keeps (fun _ s => s.Undisturbed) undisturbed_move ?_ ops
    (fun op _ => undisturbed_command op) s h
  intro s i c _ hu
  rw [(forward_cases s i c).1]
  exact hu

theorem wakeFirst_eq (s : Service σ) (x : Sleeper) (rest : List Sleeper)
    (hw : s.waiting = x :: rest) (hc : s.isCancelled x.request.token = false) :
    s.wakeFirst = ({ s with waiting := rest }.awake x).pursue x.request := by
  have hn : ¬ ({ s with waiting := rest }.awake x).isCancelled x.request.token = true := by
    show ¬ s.isCancelled x.request.token = true
    rw [hc]
    decide
  unfold wakeFirst takeFirst
  rw [hw]
  dsimp only
  rw [rouse, resume_eq, if_neg hn]
  show rouse [] _ = _
  rw [rouse]

theorem settlements_seek (s : Service σ) (r : Request) :
    { s with pool := (s.pool.seek s.now r).2 }.settlements = s.settlements := by
  rw [settlements_books, settlements_books]
  exact Pool.settlements_seek s.now r s.pool

theorem pursue_served (s : Service σ) (r : Request) (kept : Entry) (hi : s.pool.idle = [kept])
    (hr : s.pool.hasRoom = true) :
    ∃ result first later, Served s (s.pursue r) r s.waiting kept.link result first later := by
  obtain ⟨first, later, he, hf, hk, hs, hu⟩ :=
    Pool.seekWithin_single s.now _ r s.pool kept hi hr
  have hset := settlements_seek s r
  change (s.pool.seek s.now r).2.examinations = _ at he
  change first.sound = true → ∃ lent, (s.pool.seek s.now r).1 = _ ∧ _ at hs
  change first.sound = false → (s.pool.seek s.now r).1.Fresh _ at hu
  unfold pursue
  generalize s.pool.seek s.now r = found at he hs hu hset
  obtain ⟨outcome, q⟩ := found
  cases outcome with
  | granted lent =>
    refine ⟨.ok lent, first, later, rfl, ?_, he, hf, by rw [hk], ?_, ?_, ?_⟩
    · rw [settlements_settle, hset]
    · intro h
      obtain ⟨lent', hl, hlink⟩ := hs h
      obtain rfl := Outcome.granted.inj hl
      exact ⟨lent, rfl, hlink⟩
    · exact fun h => Or.inl ⟨lent, rfl, hu h⟩
    · intro lent' hl
      obtain rfl := Except.ok.inj hl
      exact List.getLast?_concat
  | failed error =>
    have hf' : first.sound = false := by
      cases hsound : first.sound with
      | false => rfl
      | true =>
        obtain ⟨lent, hl, -⟩ := hs hsound
        exact Outcome.noConfusion hl
    refine ⟨.error error, first, later, rfl, ?_, he, hf, by rw [hk], ?_, ?_, ?_⟩
    · rw [settlements_settle, hset]
    · exact fun h => absurd (h.symm.trans hf') (by decide)
    · exact fun h => Or.inr ⟨error, rfl, hu h⟩
    · exact fun lent hl => absurd hl (by simp)
  | saturated r' =>
    cases hsound : first.sound with
    | false => exact absurd (hu hsound) id
    | true =>
      obtain ⟨lent, hl, -⟩ := hs hsound
      exact Outcome.noConfusion hl

theorem hasRoom_takeBack (s : Service σ) (f : s.pool.books.Fit none) (i : Nat) (handle : Handle)
    (ha : handle.entry ∈ s.pool.active) : (s.takeBack i handle).pool.hasRoom = true := by
  obtain ⟨hc, he⟩ := Pool.takeBack_frame s.now handle.entry s.pool
  have hle := (Pool.withinLimits_of_fit s.pool f).active_le
  have hpos := List.length_pos_of_mem ha
  apply decide_eq_true
  rw [takeBack, hc, he, List.length_eraseP_of_mem ha (beq_self_eq_true handle.entry.id)]
  omega

theorem release_served (s : Service σ) (l : HasLedger none s) (f : s.pool.books.Fit none)
    (ht : Tidy s) (hu : s.Undisturbed) (x : Sleeper) (rest : List Sleeper)
    (hw : s.waiting = x :: rest) (i : Nat) (handle : Handle) (hh : s.handles[i]? = some handle)
    (hv : s.isValid handle = true) (hk : s.pool.keeps handle.entry) :
    ∃ result first later,
      Served s (s.release i) x.request rest handle.entry.link result first later := by
  have hr : handle.released = false := by simpa using (Bool.and_eq_true_iff.mp hv).1
  have hs := status_of_isValid handle s hv
  have hb := (Pool.takeBack_kept s.now handle.entry s.pool hs hk).1
  have hx : s.isCancelled x.request.token = false := hu x (by rw [hw]; exact List.mem_cons_self)
  have hidle : s.pool.idle = [] := ht.resolve_left (by rw [hw]; exact List.cons_ne_nil _ _)
  have hrel : s.release i =
      ({ s.takeBack i handle with waiting := rest }.awake x).pursue x.request := by
    rw [release_eq s i handle hh hr, if_pos hb]
    exact wakeFirst_eq (s.takeBack i handle) x rest hw hx
  have hi : (s.takeBack i handle).pool.idle =
      [handle.entry.successor s.pool.nextEntry] := by
    have hi := Pool.idle_takeBack s.now handle.entry s.pool
    rw [hb, hidle] at hi
    exact hi
  have hroom := hasRoom_takeBack s f i handle (l.running handle (List.mem_of_getElem? hh) hs)
  obtain ⟨result, first, later, h⟩ :=
    pursue_served ({ s.takeBack i handle with waiting := rest }.awake x) x.request _ hi hroom
  refine ⟨result, first, later, ?_⟩
  rw [hrel]
  refine h.congr rfl ?_ ?_ ?_
  · rw [settlements_books, settlements_books]
    exact Pool.settlements_takeBack s.now handle.entry s.pool
  · exact Pool.examinations_takeBack s.now handle.entry s.pool
  · exact Pool.opened_takeBack s.now handle.entry s.pool

/-- After every run nothing is idle while a caller sleeps, and the return of a connection worth
keeping, be it by a drop or by a close, serves the first sleeper. -/
theorem handoff_run (driver : σ) (config : Config) (pool : Pool σ)
    (h : Pool.create driver config = .ok pool) (ops : List (Op σ)) :
    ((run ops (start pool)).waiting ≠ [] → (run ops (start pool)).pool.idle = []) ∧
      ∀ x rest i handle op, (run ops (start pool)).waiting = x :: rest →
        (run ops (start pool)).handles[i]? = some handle →
        (run ops (start pool)).isValid handle = true →
        handle.entry.typeCode = (run ops (start pool)).pool.expectedTypeCode →
        1 ≤ (run ops (start pool)).pool.config.maxIdle.toNat →
        op = .release i ∨ op = .call i .close →
        ∃ result first later, Served (run ops (start pool)) (step op (run ops (start pool)))
          x.request rest handle.entry.link result first later := by
  obtain ⟨l, f⟩ := fit_run driver config pool h ops
  have ht := tidy_run ops (start pool) (Or.inl rfl)
  have hu := undisturbed_run ops (start pool) (fun x hx => absurd hx List.not_mem_nil)
  constructor
  · exact ht.resolve_left
  · intro x rest i handle op hw hh hv hcode hm ho
    have hidle := ht.resolve_left (by rw [hw]; exact List.cons_ne_nil _ _)
    have hk : (run ops (start pool)).pool.keeps handle.entry := by
      refine ⟨?_, hcode⟩
      rw [hidle]
      exact hm
    have hs := release_served _ l f ht hu x rest hw i handle hh hv hk
    rcases ho with rfl | rfl
    · exact hs
    · exact hs

def secondCallerWaits : List (Op Scripted) := [.acquire .plain, .acquire .plain]

theorem handoff_secondCallerWaits :
    let s := run secondCallerWaits (start (Pool.unused ({} : Scripted) Config.single))
    Pool.create ({} : Scripted) Config.single = .ok (Pool.unused {} Config.single) ∧
      ∃ x handle result first later, s.waiting = [x] ∧ s.handles[0]? = some handle ∧
        Served s (step (.release 0) s) x.request [] handle.entry.link result first later := by
  intro s
  have hone : s.waiting.length = 1 := by decide +kernel
  have hready : (s.handles[0]?.any fun handle =>
      s.isValid handle && handle.entry.typeCode == s.pool.expectedTypeCode) = true := by
    decide +kernel
  obtain ⟨x, hx⟩ := List.length_eq_one_iff.mp hone
  obtain ⟨handle, hh, hv⟩ := (Option.any_eq_true _ _).mp hready
  obtain ⟨hvalid, hcode⟩ := Bool.and_eq_true_iff.mp hv
  obtain ⟨-, hs⟩ :=
    handoff_run ({} : Scripted) Config.single (Pool.unused {} Config.single) rfl secondCallerWaits
  obtain ⟨result, first, later, h⟩ := hs x [] 0 handle (.release 0) hx hh hvalid
    (by simpa using hcode) (by decide +kernel) (Or.inl rfl)
  exact ⟨rfl, x, handle, result, first, later, hx, hh, h⟩

end Service

end ConnectionPool
