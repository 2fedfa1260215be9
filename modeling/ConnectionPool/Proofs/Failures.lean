import ConnectionPool.Proofs.Dealings
import ConnectionPool.Proofs.Exhaustion
import ConnectionPool.Proofs.Probing
import ConnectionPool.Proofs.Reclamation
import ConnectionPool.Proofs.Staleness

/-!
# Failures

An acquisition that fails leaves nothing half-done. Whatever its last episode took out or opened
has been closed and is held by nobody, and no entry of it is valid. Besides, the idle set has lost
its first entries and the leases the oldest at most. If the acquisition was interrupted, not even
that: like an episode that ends asleep, it has changed nothing but how the waiting is counted.
Earlier episodes do not matter, because they ended asleep.
-/

set_option autoImplicit false

namespace ConnectionPool

namespace Books

variable {now caller : Nat} {m m' : Option Entry × Books}

theorem Turn.requests (h : Turn now caller m m') :
    m'.2.tally.requests = m.2.tally.requests ∧ m'.2.tally.requestTime = m.2.tally.requestTime := by
  cases h with
  | pick b e rest hi | connect b hi hr | refuse b | claim b oldest rest hi hf ha hv
  | drop b oldest rest hi hf ha hv | reject b e => exact ⟨rfl, rfl⟩

theorem Turn.rejected (h : Turn now caller m m') :
    ∃ added, m'.2.examinations = added ++ m.2.examinations ∧
      ∀ x ∈ added, m'.2.status x.entry.id ≠ .valid := by
  cases h with
  | pick b e rest hi | connect b hi hr | refuse b | claim b oldest rest hi hf ha hv
  | drop b oldest rest hi hf ha hv => exact ⟨[], rfl, fun _ hx => absurd hx List.not_mem_nil⟩
  | reject b e =>
    refine ⟨[_], rfl, fun x hx => ?_⟩
    rw [List.mem_singleton.mp hx]
    intro hv
    have hr := of_valid_retire e.id .invalidated
      (b.note (.examined caller e false (b.idle.length + b.active.length) b.config.maxActive.toNat))
      e.id (by decide) hv
    exact hr.1 rfl

end Books

namespace Backend

variable {σ : Type} {b b' b'' : Backend σ} {channel : Nat}

/-- Meanwhile the connection was told to close or answered that it is closed. -/
def EndedSince (b : Backend σ) (channel : Nat) (b' : Backend σ) : Prop :=
  ∃ newer, b'.journal = newer ++ b.journal ∧ ∃ event ∈ newer, event.ending? = some channel

theorem EndedSince.later (h : EndedSince b channel b') (hj : b'.journal <:+ b''.journal) :
    EndedSince b channel b'' := by
  obtain ⟨newer, hn, event, he, hx⟩ := h
  obtain ⟨more, hm⟩ := hj
  exact ⟨more ++ newer, by rw [← hm, hn, List.append_assoc], event, List.mem_append_right _ he, hx⟩

theorem EndedSince.sooner (h : EndedSince b' channel b'') (hj : b.journal <:+ b'.journal) :
    EndedSince b channel b'' := by
  obtain ⟨newer, hn, event, he, hx⟩ := h
  obtain ⟨more, hm⟩ := hj
  exact ⟨newer ++ more, by rw [hn, ← hm, List.append_assoc], event, List.mem_append_left _ he, hx⟩

theorem endedSince_close [Driver σ] (channel : Nat) (b : Backend σ) :
    EndedSince b channel (b.close channel) := by
  obtain ⟨talk, t, hx⟩ := talk_close channel b
  exact ⟨talk, t.journal, hx⟩

end Backend

namespace Pool

variable {σ : Type} [Driver σ] {now caller : Nat} {m m' : Option Entry × Pool σ}
  {handles : List Handle}

def channels (m : Option Entry × Pool σ) : List Nat := (m.2.books.held m.1).map Entry.channel

def Keeps (m m' : Option Entry × Pool σ) : Prop :=
  ∀ channel, channel ∈ channels m ∨ m.2.backend.opened ≤ channel ∧
      channel < m'.2.backend.opened →
    channel ∈ channels m' ∨ m.2.backend.EndedSince channel m'.2.backend

omit [Driver σ] in
theorem keeps_of_channels (ho : m'.2.backend.opened = m.2.backend.opened)
    (hc : ∀ channel ∈ channels m,
      channel ∈ channels m' ∨ m.2.backend.EndedSince channel m'.2.backend) : Keeps m m' := by
  rintro channel (h | ⟨hl, hu⟩)
  · exact hc channel h
  · rw [ho] at hu
    exact absurd hl (Nat.not_le_of_lt hu)

theorem Turn.journal (h : Turn now caller m m') (l : Ledger m.1 m.2.books handles) :
    m.2.backend.journal <:+ m'.2.backend.journal :=
  Backend.exchanges_keep _ (Backend.journal_grows m.2.backend.journal)
    (turn_exchanges h l.distinct.channel_lt) List.suffix_rfl

theorem Turn.keeps (h : Turn now caller m m') (l : Ledger m.1 m.2.books handles) : Keeps m m' := by
  cases h with
  | pick p e rest hi =>
    refine keeps_of_channels rfl fun channel hc => Or.inl ?_
    rw [channels, Books.held, show p.books.idle = e :: rest from hi] at hc
    exact hc
  | connect p q e hi hr h =>
    obtain ⟨he, hb⟩ := openLink_found now p q e h
    have ho : q.backend.opened = p.backend.opened + 1 :=
      congrArg (fun b : Books => b.record.opened) hb
    have hheld : channels (some e, q) = e.channel :: channels (none, p) := by
      rw [channels, hb]
      rfl
    intro channel hc
    rw [hheld]
    rcases hc with hc | ⟨hl, hu⟩
    · exact Or.inl (List.mem_cons_of_mem _ hc)
    · have heq : channel = e.channel := by
        rw [he]
        rw [ho] at hu
        exact Nat.le_antisymm (Nat.le_of_lt_succ hu) hl
      exact Or.inl (heq ▸ List.mem_cons_self)
  | refuse p q error hi hr h =>
    have hb := openLink_refused now p q error h
    have ho : q.backend.opened = p.backend.opened :=
      congrArg (fun b : Books => b.record.opened) hb
    refine keeps_of_channels ho fun channel hc => Or.inl ?_
    rw [channels, hb]
    exact hc
  | claim p oldest rest hi hr ha ho hv =>
    have hb := books_takeOver now caller oldest rest p
    refine keeps_of_channels (congrArg (fun b : Books => b.record.opened) hb)
      fun channel hc => Or.inl ?_
    -- the successor has the link of the lease
    rw [channels, hb]
    rw [channels, Books.held, show p.books.idle = [] from hi,
      show p.books.active = oldest :: rest from ha] at hc
    show channel ∈ oldest.channel :: (p.idle ++ rest).map Entry.channel
    rw [hi]
    exact hc
  | drop p oldest rest hi hr ha ho hv =>
    have hb : ((p.unlend now caller oldest rest).close oldest).books = _ :=
      (books_close oldest _).trans (books_unlend now caller oldest rest p)
    refine keeps_of_channels (congrArg (fun b : Books => b.record.opened) hb) fun channel hc => ?_
    rw [channels, Books.held, show p.books.idle = [] from hi,
      show p.books.active = oldest :: rest from ha] at hc
    rcases List.mem_cons.mp hc with rfl | hc
    · right
      exact (Backend.endedSince_close oldest.channel _).sooner (List.suffix_cons _ _)
    · left
      rw [channels, hb]
      show channel ∈ (p.idle ++ rest).map Entry.channel
      rw [hi]
      exact hc
  | reject p q e h =>
    have hq := books_reject e q
    rw [examine_books now caller e false p q h] at hq
    refine keeps_of_channels (congrArg (fun b : Books => b.record.opened) hq) fun channel hc => ?_
    rcases List.mem_cons.mp hc with rfl | hc
    · right
      have hr : (q.reject e).backend = q.backend.close e.channel := backend_discard e _
      obtain ⟨hx, -⟩ :=
        examine_exchanges now caller e false h (l.distinct.channel_lt e List.mem_cons_self)
      rw [hr]
      exact (Backend.endedSince_close e.channel q.backend).sooner
        (Backend.exchanges_keep _ (Backend.journal_grows p.backend.journal) hx List.suffix_rfl)
    · left
      rw [channels, hq]
      exact hc

structure Disposed (p : Pool σ) (handles : List Handle) (m : Option Entry × Pool σ) : Prop where
  ledger : Ledger m.1 m.2.books handles
  journal : p.backend.journal <:+ m.2.backend.journal
  requests : m.2.tally.requests = p.tally.requests ∧ m.2.tally.requestTime = p.tally.requestTime
  kept : Keeps (none, p) m
  rejected : ∃ added, m.2.examinations = added ++ p.examinations ∧
    ∀ x ∈ added, m.2.status x.entry.id ≠ .valid

theorem Disposed.turn {p : Pool σ} (k : Disposed p handles m) (h : Turn now caller m m') :
    Disposed p handles m' where
  ledger := (turn_books h).ledger k.ledger
  journal := k.journal.trans (h.journal k.ledger)
  requests := by
    obtain ⟨hn, ht⟩ := (turn_books h).requests
    exact ⟨hn.trans k.requests.1, ht.trans k.requests.2⟩
  kept channel hc := by
    have hj := h.journal k.ledger
    -- it was opened before this turn, or in it
    have hm : (channel ∈ channels (none, p) ∨ p.backend.opened ≤ channel ∧
          channel < m.2.backend.opened) ∨
        m.2.backend.opened ≤ channel ∧ channel < m'.2.backend.opened := by
      rcases hc with hc | ⟨hl, hu⟩
      · exact Or.inl (Or.inl hc)
      · rcases Nat.lt_or_ge channel m.2.backend.opened with hlt | hge
        · exact Or.inl (Or.inr ⟨hl, hlt⟩)
        · exact Or.inr ⟨hge, hu⟩
    have hturn (hc : channel ∈ channels m ∨ m.2.backend.opened ≤ channel ∧
        channel < m'.2.backend.opened) :
        channel ∈ channels m' ∨ p.backend.EndedSince channel m'.2.backend :=
      (h.keeps k.ledger channel hc).imp_right fun he => he.sooner k.journal
    rcases hm with hm | hm
    · rcases k.kept channel hm with hc | he
      · exact hturn (Or.inl hc)
      · exact Or.inr (he.later hj)
    · exact hturn (Or.inr hm)
  rejected := by
    obtain ⟨added, ha, hv⟩ := k.rejected
    obtain ⟨more, hm, hv'⟩ := (turn_books h).rejected
    refine ⟨more ++ added, ?_, fun x hx => ?_⟩
    · rw [examinations_books] at ha ⊢
      rw [hm, ha, List.append_assoc]
    · rcases List.mem_append.mp hx with hx | hx
      · exact hv' x hx
      · intro hst
        exact hv x hx (((turn_books h).lasting x.entry.id (hv x hx)).symm.trans hst)

theorem disposed_turns {p : Pool σ} (l : Ledger none p.books handles)
    (h : Turns now caller (none, p) m) : Disposed p handles m := by
  induction h with
  | refl =>
    refine ⟨l, List.suffix_rfl, ⟨rfl, rfl⟩, fun channel hc => ?_, [], rfl,
      fun _ hx => absurd hx List.not_mem_nil⟩
    rcases hc with hc | ⟨hl, hu⟩
    · exact Or.inl hc
    · exact absurd hl (Nat.not_le_of_lt hu)
  | tail _ ht ih => exact ih.turn ht

end Pool

namespace Service

variable {σ : Type} {s v u w : Service σ} {r : Request}

/-- Of all that the pool and its holders have, only how the waiting is counted is different, and the
journal says only how the caller fared. -/
structure Untouched (v u : Service σ) : Prop where
  pool : u.pool =
    { v.pool with
      tally :=
        { v.pool.tally with waits := u.pool.tally.waits, waitTime := u.pool.tally.waitTime }
      backend := { v.pool.backend with journal := u.pool.backend.journal } }
  journal : v.pool.backend.Adds (fun event => event.isTraffic = false ∧ event.isBooking = false)
    u.pool.backend
  handles : u.handles = v.handles

namespace Untouched

theorem trans (h : Untouched v u) (h' : Untouched u w) : Untouched v w where
  pool := by
    rw [h'.pool, h.pool]
  journal := h.journal.trans h'.journal
  handles := h'.handles.trans h.handles

theorem awake (x : Sleeper) (s : Service σ) : Untouched s (s.awake x) :=
  ⟨rfl, .single rfl ⟨rfl, rfl⟩, rfl⟩

theorem giveUp (r : Request) (s : Service σ) : Untouched s (s.settle r (.error .interrupted)) :=
  ⟨rfl, .single rfl ⟨rfl, rfl⟩, rfl⟩

theorem takeFirst (s : Service σ) : Untouched s s.takeFirst.2 := by
  rw [takeFirst_rest]
  exact ⟨rfl, .refl _ _, rfl⟩

theorem block (r : Request) (s : Service σ) : Untouched s (s.block r) := by
  have hc : Untouched s (s.countWait r) := by
    unfold countWait
    split <;> exact ⟨rfl, .refl _ _, rfl⟩
  unfold Service.block
  dsimp only
  split
  · exact hc.trans (giveUp r _)
  · exact hc.trans ⟨rfl, .single rfl ⟨rfl, rfl⟩, rfl⟩

end Untouched

theorem Event.examination_of_note (event : Event) (h : event.isBooking = false) :
    event.examination? = none := by
  cases event <;> simp_all [Event.isBooking, Event.examination?]

theorem Untouched.examinations (h : Untouched v u) :
    u.pool.examinations = v.pool.examinations := by
  obtain ⟨newer, hj, hn⟩ := h.journal
  have hnone : newer.filterMap Event.examination? = [] :=
    List.filterMap_eq_nil_iff.mpr fun event he => Event.examination_of_note event (hn event he).2
  unfold Pool.examinations
  rw [hj, List.filterMap_append, hnone, List.nil_append]

/-- The pool held the connection and does not hold it any more, or opened it meanwhile. -/
def GivenUp (channel : Nat) (v u : Service σ) : Prop :=
  (∃ e ∈ v.pool.idle ++ v.pool.active, e.channel = channel ∧ e ∉ u.pool.idle ++ u.pool.active) ∨
    v.pool.backend.opened ≤ channel ∧ channel < u.pool.backend.opened

/-- A failed acquisition has left nothing half-done. -/
structure Undone (v u : Service σ) : Prop where
  config : u.pool.config = v.pool.config
  requests : u.pool.tally.requests = v.pool.tally.requests
  requestTime : u.pool.tally.requestTime = v.pool.tally.requestTime
  handles : u.handles = v.handles
  idle : u.pool.idle <:+ v.pool.idle
  active : u.pool.active = v.pool.active ∨ ∃ oldest, v.pool.active = oldest :: u.pool.active ∧
    v.pool.config.maxCheckout < oldest.heldFor v.now
  closed : ∀ channel, GivenUp channel v u →
    v.pool.backend.EndedSince channel u.pool.backend ∧
      ∀ e ∈ u.entries, e.channel = channel → u.pool.status e.id ≠ .valid
  rejected : ∃ added, u.pool.examinations = added ++ v.pool.examinations ∧
    ∀ x ∈ added, u.pool.status x.entry.id ≠ .valid

namespace Untouched

theorem config (h : Untouched v u) : u.pool.config = v.pool.config := by rw [h.pool]

theorem idle (h : Untouched v u) : u.pool.idle = v.pool.idle := by rw [h.pool]

theorem active (h : Untouched v u) : u.pool.active = v.pool.active := by rw [h.pool]

theorem opened (h : Untouched v u) : u.pool.backend.opened = v.pool.backend.opened := by
  rw [h.pool]

theorem requests (h : Untouched v u) :
    u.pool.tally.requests = v.pool.tally.requests ∧
      u.pool.tally.requestTime = v.pool.tally.requestTime := by
  rw [h.pool]
  exact ⟨rfl, rfl⟩

theorem undone (h : Untouched v u) : Undone v u := by
  refine ⟨h.config, h.requests.1, h.requests.2, h.handles, by rw [h.idle], Or.inl h.active,
    fun channel hc => ?_, [], h.examinations, fun _ hx => absurd hx List.not_mem_nil⟩
  rw [GivenUp, h.idle, h.active, h.opened] at hc
  rcases hc with ⟨e, he, -, hn⟩ | ⟨hl, hu⟩
  · exact absurd he hn
  · exact absurd hl (Nat.not_le_of_lt hu)

end Untouched

theorem Undone.of_untouched (h : Untouched v w) (hn : w.now = v.now) (k : Undone w u) :
    Undone v u := by
  obtain ⟨newer, hj, -⟩ := h.journal
  refine ⟨k.config.trans h.config, k.requests.trans h.requests.1,
    k.requestTime.trans h.requests.2, k.handles.trans h.handles, h.idle ▸ k.idle, ?_,
    fun channel hg => ?_, ?_⟩
  · rw [← h.active, ← h.config, ← hn]
    exact k.active
  · rw [GivenUp, ← h.idle, ← h.active, ← h.opened] at hg
    obtain ⟨he, hv⟩ := k.closed channel hg
    exact ⟨he.sooner ⟨newer, hj.symm⟩, hv⟩
  · rw [← h.examinations]
    exact k.rejected

inductive Conclusion (r : Request) (v u : Service σ) : Prop
  | lent (e : Entry) (h : Settles r (.ok e) v u)
  | failed (error : PoolError) (hn : error ≠ .interrupted) (h : Settles r (.error error) v u)
      (k : Undone v u)
  | still (h : Settles r (.error .interrupted) v u ∨ FallsAsleep r v u) (k : Untouched v u)

variable [Driver σ] {op : Op σ}

theorem undone_of_failed {looks : List Look} {error : PoolError} {q : Pool σ} (hs : s.Steady)
    (hq : s.pool.seek s.now r = (.failed error, q))
    (h : s.pool.Loop s.now r looks (.failed error) q) :
    Undone s ({ s with pool := q }.settle r (.error error)) := by
  obtain ⟨l, f⟩ := hs
  have hend := Pool.seek_ends s.now r s.pool
  rw [hq] at hend
  have k := Pool.disposed_turns l hend.1
  have hidle : q.idle <:+ s.pool.idle := ⟨_, h.sums.idle.symm⟩
  have hactive : q.active = s.pool.active ∨ ∃ oldest, s.pool.active = oldest :: q.active ∧
      s.pool.config.maxCheckout < oldest.heldFor s.now := by
    cases h.relieves f with
    | spared ha hv => exact Or.inl (ha.trans (List.append_nil _))
    | taken oldest rest ho ha hv =>
      rw [show q.active = rest from ha.trans (List.append_nil _)]
      exact Or.inr ⟨oldest, ho.active, ho.overdue⟩
  have hheld (e : Entry) (he : e ∈ q.idle ++ q.active) : e ∈ s.pool.idle ++ s.pool.active := by
    rcases List.mem_append.mp he with he | he
    · exact List.mem_append_left _ (hidle.subset he)
    · refine List.mem_append_right _ ?_
      rcases hactive with ha | ⟨oldest, ha, -⟩
      · exact ha ▸ he
      · rw [ha]
        exact List.mem_cons_of_mem oldest he
  have hnot (channel : Nat) (hg : GivenUp channel s { s with pool := q }) :
      channel ∉ Pool.channels (none, q) := by
    intro hc
    obtain ⟨a, ha, hac⟩ := List.mem_map.mp hc
    have has := hheld a ha
    rcases hg with ⟨e, he, hec, hn⟩ | ⟨hl, -⟩
    · have heq : a = e := l.distinct.channel_inj has he (hac.trans hec.symm)
      exact hn (heq ▸ ha)
    · have hlt : a.channel < s.pool.backend.opened := l.distinct.channel_lt a has
      exact absurd hl (Nat.not_le_of_lt (hac ▸ hlt))
  refine ⟨(Pool.sets_turns hend.1).1, k.requests.1, k.requests.2, rfl, hidle, hactive,
    fun channel hg => ⟨?_, fun e he hc hv => ?_⟩, k.rejected⟩
  · have hk : channel ∈ Pool.channels (none, s.pool) ∨ s.pool.backend.opened ≤ channel ∧
        channel < q.backend.opened := by
      rcases hg with ⟨e, he, hec, -⟩ | hg
      · exact Or.inl (List.mem_map.mpr ⟨e, he, hec⟩)
      · exact Or.inr hg
    have hended := (k.kept channel hk).resolve_left (hnot channel hg)
    exact hended.later (List.suffix_cons _ _)
  · have he := held_of_valid { s with pool := q } k.ledger e he hv
    exact hnot channel hg (List.mem_map.mpr ⟨e, he, hc⟩)

theorem Pursuit.conclusion {u : Service σ} (h : Pursuit r s u) (hs : s.Steady) :
    Conclusion r s u := by
  cases h with
  | settled looks outcome result q hq h hr =>
    have hsettles := settles_seek r result hq
    cases outcome with
    | granted e =>
      obtain rfl := Option.some.inj hr
      exact .lent e hsettles
    | failed error =>
      obtain rfl := Option.some.inj hr
      have hn := Pool.seek_ends s.now r s.pool
      rw [hq] at hn
      exact .failed error hn.2 hsettles (undone_of_failed hs hq h)
    | saturated r' => exact absurd hr (by simp [Outcome.result?])
  | blocked h => exact .still (block_ends r s) (.block r s)

omit [Driver σ] in
theorem Conclusion.of_awake {u : Service σ} (x : Sleeper) (h : Conclusion r (v.awake x) u) :
    Conclusion r v u := by
  cases h with
  | lent e h => exact .lent e ⟨h.settlements, h.waiting⟩
  | failed error hn h k =>
    exact .failed error hn ⟨h.settlements, h.waiting⟩ (k.of_untouched (.awake x v) rfl)
  | still h k =>
    refine .still ?_ ((Untouched.awake x v).trans k)
    exact h.imp (fun h => ⟨h.settlements, h.waiting⟩) fun h => ⟨h.settlements, h.waiting⟩

theorem Episode.conclusion {u : Service σ} (h : Episode op s r v u) (hv : v.Steady) :
    Conclusion r v u := by
  cases h.course with
  | came _ hb => exact (pursuit_pursue r hv.2).conclusion hv
  | woke x _ hr hb =>
    have ha := steady_moves (.single (.awake v x)) hv
    exact ((pursuit_pursue r ha.2).conclusion ha).of_awake
  | gaveUp x _ hr hc =>
    exact .still (.inl (gaveUp_ends r x v))
      (((Untouched.awake x v).trans (.takeFirst _)).trans (.giveUp r _))

/-- In every run of every pool, whatever was returned to a caller was returned in an episode, and an
episode that ends with an error has left nothing half-done. One that was interrupted, like one that
ends asleep, has changed nothing but how the waiting is counted. -/
theorem failures_run (driver : σ) (config : Config) (pool : Pool σ)
    (h : Pool.create driver config = .ok pool) (ops : List (Op σ)) :
    (∀ x ∈ (run ops (start pool)).settlements, ∃ before op after, ops = before ++ op :: after ∧
        SettledIn op (run before (start pool)) x) ∧
      ∀ op r v u, Episode op (run ops (start pool)) r v u →
        (∀ x error, u.settlements = x :: v.settlements → x.result = .error error →
          Undone v u ∧ (error = .interrupted → Untouched v u)) ∧
        ∀ y, u.waiting = v.waiting ++ [y] → Untouched v u := by
  constructor
  · intro x hx
    refine (settledIn_run ops (steady_start driver config pool h) hx).resolve_left fun hn => ?_
    rw [Pool.of_create driver config pool h] at hn
    exact absurd hn List.not_mem_nil
  · intro op r v u he
    have hc := he.conclusion (he.steady (fit_run driver config pool h ops))
    constructor
    · intro x error hx hr
      cases hc with
      | lent e hs =>
        obtain rfl := (List.cons.inj (hs.settlements.symm.trans hx)).1
        exact absurd hr (by simp)
      | failed error' hn hs k =>
        obtain rfl := (List.cons.inj (hs.settlements.symm.trans hx)).1
        obtain rfl := Except.error.inj hr
        exact ⟨k, fun hi => absurd hi hn⟩
      | still hs k => exact ⟨k.undone, fun _ => k⟩
    · intro y hy
      cases hc with
      | lent e hs => exact absurd hy (hs.not_asleep y)
      | failed error hn hs k => exact absurd hy (hs.not_asleep y)
      | still hs k => exact k

def brokenIdleThenRefusal : List (Op Scripted) :=
  [.acquire .plain, .acquire .plain, .release 0, .meddle (Scripted.act (.sever 0)),
    .meddle (Scripted.act (.refuse true)), .acquire .plain]

theorem failures_brokenIdleThenRefusal :
    Pool.create ({} : Scripted) Config.trial = .ok (Pool.unused {} Config.trial) ∧
      ∃ x error before op after r v u, x.caller = 2 ∧ x.result = .error (.create error) ∧
        brokenIdleThenRefusal = before ++ op :: after ∧
        Episode op (run before (start (Pool.unused ({} : Scripted) Config.trial))) r v u ∧
        u.settlements = x :: v.settlements ∧ Undone v u := by
  have hfail := failures_run ({} : Scripted) Config.trial (Pool.unused {} Config.trial) rfl
  have hx : ⟨2, 0, .error (.create (.connect (Config.trial.url ++ ": connection refused")))⟩ ∈
      (run brokenIdleThenRefusal
        (start (Pool.unused ({} : Scripted) Config.trial))).settlements := by
    decide +kernel
  obtain ⟨before, op, after, hops, r, v, u, he, -, -, hs⟩ := (hfail brokenIdleThenRefusal).1 _ hx
  exact ⟨rfl, _, _, before, op, after, r, v, u, rfl, rfl, hops, he, hs,
    (((hfail before).2 op r v u he).1 _ _ hs rfl).1⟩

end Service

end ConnectionPool
