import ConnectionPool.Pool.Seek

/-!
# The books of a pool

The books are all that a pool holds apart from its driver and the traffic with it. Calls to the
driver leave the books alone, whatever the driver answers; what each operation of a pool does to
them is stated here once, and later modules reason about the books only.
-/

set_option autoImplicit false

namespace ConnectionPool

/-- An exchange with the driver, as against a decision of the pool. -/
def Event.isTraffic : Event → Bool
  | connect _ _ | call _ _ _ => true
  | examined _ _ _ _ _ | claimed _ _ _ | granted _ _ | returned _ _ _ | shelved _ => false
  | drained _ _ | slept _ | woke _ _ | settled _ _ _ => false

/-- How many connections were opened, and what was decided, newest first. -/
structure Record where
  opened : Nat
  decisions : List Event

def Record.note (event : Event) (r : Record) : Record :=
  { r with decisions := event :: r.decisions }

structure Books where
  config : Config
  expectedTypeCode : UInt64
  idle : List Entry
  active : List Entry
  retired : List (Nat × Status)
  nextEntry : Nat
  nextLink : Nat
  tally : Tally
  record : Record

namespace Backend

variable {σ : Type}

def record (b : Backend σ) : Record where
  opened := b.opened
  decisions := b.journal.filter fun event => !event.isTraffic

theorem filterMap_journal {α : Type} (view : Event → Option α)
    (hv : ∀ event, event.isTraffic = true → view event = none) (b : Backend σ) :
    b.journal.filterMap view = b.record.decisions.filterMap view := by
  unfold record
  induction b.journal with
  | nil => rfl
  | cons event rest ih =>
    cases ht : event.isTraffic with
    | true => simp [ht, hv event ht, ih]
    | false => simp [ht, List.filterMap_cons, ih]

theorem record_note (event : Event) (h : event.isTraffic = false) (b : Backend σ) :
    (b.note event).record = b.record.note event := by
  simp [record, note, Record.note, h]

variable [Driver σ]

theorem record_connect_ok (login : Login) (b b' : Backend σ) (channel : Nat)
    (h : b.connect login = (.ok channel, b')) :
    channel = b.opened ∧ b'.record = { b.record with opened := b.opened + 1 } := by
  unfold connect at h
  split at h
  · obtain ⟨hc, rfl⟩ := Prod.mk.inj h
    constructor
    · exact (Except.ok.inj hc).symm
    · simp [record, Event.isTraffic]
  · simp at h

theorem record_connect_error (login : Login) (b b' : Backend σ) (error : DriverError)
    (h : b.connect login = (.error error, b')) : b'.record = b.record := by
  unfold connect at h
  split at h
  · simp at h
  · obtain ⟨-, rfl⟩ := Prod.mk.inj h
    simp [record, Event.isTraffic]

theorem record_call (channel : Nat) (c : Call) (b : Backend σ) :
    (b.call channel c).2.record = b.record := rfl

theorem record_of_call (channel : Nat) (c : Call) (b b' : Backend σ) (reply : Reply c)
    (h : b.call channel c = (reply, b')) : b'.record = b.record := by
  have hc := record_call channel c b
  rw [h] at hc
  exact hc

theorem keeps_undo (P : Backend σ → Prop) (channel : Nat)
    (hc : ∀ b c, c ≠ .close → P b → P (b.call channel c).2) (b : Backend σ) (h : P b) :
    P (b.undo channel) := by
  have h₁ := hc b .autoCommit (by decide) h
  unfold undo
  split
  · rename_i b₁ e
    rw [e] at h₁
    exact hc b₁ .rollback (by decide) h₁
  · rename_i e
    rw [e] at h₁
    exact h₁

theorem keeps_ping (P : Backend σ → Prop) (channel : Nat)
    (hc : ∀ b c, c ≠ .close → P b → P (b.call channel c).2) (query : String) (b : Backend σ)
    (h : P b) : P (b.ping channel query).2 := by
  have h₁ := hc b (.execute query) (by simp) h
  unfold ping
  split
  · rename_i e₁
    rw [e₁] at h₁
    exact h₁
  · rename_i b₁ e₁
    rw [e₁] at h₁
    have h₂ := hc b₁ .autoCommit (by decide) h₁
    split
    · rename_i e₂
      rw [e₂] at h₂
      exact h₂
    · rename_i e₂
      rw [e₂] at h₂
      exact h₂
    · rename_i b₂ e₂
      rw [e₂] at h₂
      have h₃ := hc b₂ .rollback (by decide) h₂
      split
      · rename_i e₃
        rw [e₃] at h₃
        exact h₃
      · rename_i e₃
        rw [e₃] at h₃
        exact h₃

theorem record_undo (channel : Nat) (b : Backend σ) : (b.undo channel).record = b.record :=
  keeps_undo (fun b' => b'.record = b.record) channel
    (fun b' c _ h => (record_call channel c b').trans h) b rfl

theorem record_close (channel : Nat) (b : Backend σ) : (b.close channel).record = b.record := by
  unfold close
  split
  · rename_i b₁ h
    exact (record_of_call _ _ _ _ _ h).trans (record_undo channel b)
  · rename_i b₁ _ h
    calc
      (b₁.call channel .close).2.record = b₁.record := record_call channel .close b₁
      _ = (b.undo channel).record := record_of_call _ _ _ _ _ h
      _ = b.record := record_undo channel b

theorem record_ping (channel : Nat) (query : String) (b : Backend σ) :
    (b.ping channel query).2.record = b.record :=
  keeps_ping (fun b' => b'.record = b.record) channel
    (fun b' c _ h => (record_call channel c b').trans h) query b rfl

theorem record_probe (channel : Nat) (query : Option String) (b : Backend σ) :
    (b.probe channel query).2.record = b.record := by
  unfold probe
  split
  · rename_i b₁ h₁
    have e₁ := record_of_call _ _ _ _ _ h₁
    split
    · exact e₁
    · rename_i query
      have hp := record_ping channel query b₁
      split
      · rename_i h₂
        rw [h₂] at hp
        exact hp.trans e₁
      · rename_i b₂ h₂
        rw [h₂] at hp
        exact (record_call channel .close b₂).trans (hp.trans e₁)
  · rename_i h
    exact record_of_call _ _ _ _ _ h

end Backend

namespace Books

def status (id : Nat) (b : Books) : Status := (b.retired.lookup id).getD .valid

def retire (id : Nat) (how : Status) (b : Books) : Books :=
  { b with retired := if b.status id = .valid then (id, how) :: b.retired else b.retired }

def note (event : Event) (b : Books) : Books := { b with record := b.record.note event }

def drain (lent : Bool) (e : Entry) (b : Books) : Books :=
  (b.note (.drained e lent)).retire e.id .invalidated

def takeOut (e : Entry) (b : Books) : Books :=
  { b.note (.returned e (b.active.any fun a => a.id == e.id) (b.status e.id)) with
    active := b.active.eraseP fun a => a.id == e.id }

/-- Retiring is for good, and no other entry takes notice. -/
theorem status_retire (id : Nat) (how : Status) (b : Books) (j : Nat) :
    (b.retire id how).status j =
      if j = id ∧ b.status id = .valid then how else b.status j := by
  by_cases hv : b.status id = .valid
  · by_cases hj : j = id
    · subst j
      rw [if_pos ⟨rfl, hv⟩]
      simp only [status, retire] at hv ⊢
      simp [hv]
    · have hb : (j == id) = false := by simpa using hj
      simp only [status, retire] at hv ⊢
      simp [hv, hj, List.lookup_cons, hb]
  · have hr : b.retire id how = b := by
      unfold retire
      rw [if_neg hv]
    rw [hr, if_neg (fun h => hv h.2)]

theorem status_retire_ne (id : Nat) (how : Status) (b : Books) (j : Nat) (h : j ≠ id) :
    (b.retire id how).status j = b.status j := by
  rw [status_retire, if_neg (fun hj => h hj.1)]

theorem of_valid_retire (id : Nat) (how : Status) (b : Books) (j : Nat) (hw : how ≠ .valid)
    (h : (b.retire id how).status j = .valid) : j ≠ id ∧ b.status j = .valid := by
  rw [status_retire] at h
  split at h
  · exact absurd h hw
  · rename_i hn
    exact ⟨fun hj => hn ⟨hj, hj ▸ h⟩, h⟩

theorem drainAll_frame (lent : Bool) (entries : List Entry) (b : Books) :
    let d := entries.foldr (drain lent) b
    d.config = b.config ∧ d.expectedTypeCode = b.expectedTypeCode ∧ d.idle = b.idle ∧
      d.active = b.active ∧ d.nextEntry = b.nextEntry ∧ d.nextLink = b.nextLink ∧
      d.tally = b.tally ∧ d.record.opened = b.record.opened := by
  induction entries with
  | nil => exact ⟨rfl, rfl, rfl, rfl, rfl, rfl, rfl, rfl⟩
  | cons e rest ih => exact ih

theorem status_drainAll (lent : Bool) (entries : List Entry) (b : Books) (j : Nat) :
    (entries.foldr (drain lent) b).status j =
      if j ∈ entries.map Entry.id ∧ b.status j = .valid then .invalidated else b.status j := by
  induction entries with
  | nil => simp
  | cons e rest ih =>
    have hs := status_retire e.id .invalidated
      ((rest.foldr (drain lent) b).note (.drained e lent)) j
    rw [List.foldr_cons, drain, hs]
    show (if j = e.id ∧ (rest.foldr (drain lent) b).status e.id = .valid then _
      else (rest.foldr (drain lent) b).status j) = _
    by_cases hj : j = e.id
    · subst j
      rw [ih]
      by_cases hv : b.status e.id = .valid <;> by_cases hr : e.id ∈ rest.map Entry.id <;>
        simp [hv, hr]
    · rw [if_neg (fun h => hj h.1), ih]
      simp [hj]

end Books

namespace Pool

variable {σ : Type}

def books (p : Pool σ) : Books where
  config := p.config
  expectedTypeCode := p.expectedTypeCode
  idle := p.idle
  active := p.active
  retired := p.retired
  nextEntry := p.nextEntry
  nextLink := p.nextLink
  tally := p.tally
  record := p.backend.record

def unused (driver : σ) (config : Config) : Pool σ where
  backend := { driver }
  config := config
  expectedTypeCode := config.expectedTypeCode

theorem of_create (driver : σ) (config : Config) (pool : Pool σ)
    (h : create driver config = .ok pool) : pool = unused driver config := by
  unfold create at h
  cases hv : config.validate with
  | error e =>
    rw [hv] at h
    exact absurd h (by simp [Except.map])
  | ok u =>
    rw [hv] at h
    exact (Except.ok.inj h).symm

theorem status_books (id : Nat) (p : Pool σ) : p.books.status id = p.status id := rfl

theorem books_note (event : Event) (h : event.isTraffic = false) (p : Pool σ) :
    (p.note event).books = p.books.note event := by
  simp [books, note, Books.note, Backend.record_note event h]

theorem books_retire (id : Nat) (how : Status) (p : Pool σ) :
    (p.retire id how).books = p.books.retire id how := by
  unfold retire Books.retire
  rw [status_books]
  split <;> rfl

variable [Driver σ]

theorem books_undo (e : Entry) (p : Pool σ) : (p.undo e).books = p.books := by
  simp [books, undo, Backend.record_undo]

theorem books_close (e : Entry) (p : Pool σ) : (p.close e).books = p.books := by
  simp [books, close, Backend.record_close]

theorem books_discard (e : Entry) (p : Pool σ) :
    (p.discard e).books = p.books.retire e.id .invalidated := by
  rw [discard, books_close, books_retire]

theorem books_drain (lent : Bool) (e : Entry) (p : Pool σ) :
    (p.drain lent e).books = p.books.drain lent e := by
  rw [drain, books_discard, books_note _ rfl, Books.drain]

theorem books_drainAll (lent : Bool) (entries : List Entry) (p : Pool σ) :
    (entries.foldr (drain lent) p).books = entries.foldr (Books.drain lent) p.books := by
  induction entries with
  | nil => rfl
  | cons e rest ih => rw [List.foldr_cons, books_drain, ih, List.foldr_cons]

theorem books_reset (p : Pool σ) :
    p.reset.books =
      p.idle.foldr (Books.drain false) (p.active.foldr (Books.drain true)
        { p.books with
          expectedTypeCode := p.config.expectedTypeCode
          active := []
          idle := [] }) := by
  rw [reset, books_drainAll, books_drainAll]
  rfl

theorem reset_frame (p : Pool σ) :
    p.reset.config = p.config ∧ p.reset.idle = [] ∧ p.reset.active = [] ∧
      p.reset.nextEntry = p.nextEntry ∧ p.reset.books.record.opened = p.books.record.opened := by
  have hb := books_reset p
  obtain ⟨hc, -, hi, ha, hn, -, -, ho⟩ := Books.drainAll_frame false p.idle
    (p.active.foldr (Books.drain true)
      { p.books with expectedTypeCode := p.config.expectedTypeCode, active := [], idle := [] })
  obtain ⟨hc', -, hi', ha', hn', -, -, ho'⟩ := Books.drainAll_frame true p.active
    { p.books with expectedTypeCode := p.config.expectedTypeCode, active := [], idle := [] }
  rw [← hb] at hc hi ha hn ho
  exact ⟨hc.trans hc', hi.trans hi', ha.trans ha', hn.trans hn', ho.trans ho'⟩

theorem reset_rest (p : Pool σ) :
    p.reset.expectedTypeCode = p.config.expectedTypeCode ∧ p.reset.nextLink = p.nextLink ∧
      p.reset.tally = p.tally := by
  have hb := books_reset p
  obtain ⟨-, hx, -, -, -, hn, ht, -⟩ := Books.drainAll_frame false p.idle
    (p.active.foldr (Books.drain true)
      { p.books with expectedTypeCode := p.config.expectedTypeCode, active := [], idle := [] })
  obtain ⟨-, hx', -, -, -, hn', ht', -⟩ := Books.drainAll_frame true p.active
    { p.books with expectedTypeCode := p.config.expectedTypeCode, active := [], idle := [] }
  rw [← hb] at hx hn ht
  exact ⟨hx.trans hx', hn.trans hn', ht.trans ht'⟩

theorem status_reset (p : Pool σ) (j : Nat) :
    p.reset.status j =
      if j ∈ (p.idle ++ p.active).map Entry.id ∧ p.status j = .valid then .invalidated
      else p.status j := by
  rw [← status_books, books_reset, Books.status_drainAll, Books.status_drainAll]
  show (if _ ∧ (if _ ∧ p.status j = .valid then _ else p.status j) = _ then _
    else (if _ ∧ p.status j = .valid then _ else p.status j)) = _
  rw [List.map_append]
  by_cases hv : p.status j = .valid <;> by_cases hi : j ∈ p.idle.map Entry.id <;>
    by_cases ha : j ∈ p.active.map Entry.id <;> simp [hv, hi, ha]

theorem reconfigure_of_error (update : Config → Config) (p : Pool σ) (error : ConfigError)
    (h : (update p.config).validate = .error error) :
    p.reconfigure update = (.error error, p) := by
  simp only [reconfigure, h]

theorem reconfigure_of_ok (update : Config → Config) (p : Pool σ)
    (h : (update p.config).validate = .ok ()) :
    p.reconfigure update = (.ok (), { p with config := update p.config }.reset) := by
  simp only [reconfigure, h]

theorem reconfigure_cases (update : Config → Config) (p : Pool σ) {motive : Pool σ → Prop}
    (refused : motive p) (taken : motive { p with config := update p.config }.reset) :
    motive (p.reconfigure update).2 := by
  cases h : (update p.config).validate with
  | error error => rwa [reconfigure_of_error update p error h]
  | ok _ => rwa [reconfigure_of_ok update p h]

def keeps (e : Entry) (p : Pool σ) : Prop :=
  p.idle.length < p.config.maxIdle.toNat ∧ e.typeCode = p.expectedTypeCode

instance (e : Entry) (p : Pool σ) : Decidable (p.keeps e) :=
  inferInstanceAs (Decidable (_ ∧ _))

def takeOut (e : Entry) (p : Pool σ) : Pool σ :=
  { p.note (.returned e (p.active.any fun a => a.id == e.id) (p.status e.id)) with
    active := p.active.eraseP fun a => a.id == e.id }

def shelve (e : Entry) (p : Pool σ) : Pool σ :=
  let p := (p.undo e).retire e.id .superseded
  let kept := e.successor p.nextEntry
  { p with idle := p.idle ++ [kept], nextEntry := p.nextEntry + 1 }.note (.shelved kept)

theorem takeBack_eq (now : Nat) (e : Entry) (p : Pool σ) :
    p.takeBack now e =
      match p.status e.id with
      | .superseded => (false, { p.takeOut e with tally := p.tally.addBad })
      | .invalidated => (false, { p.takeOut e with tally := p.tally.addBad }.close e)
      | .valid =>
        if p.keeps e then
          (true, { p.takeOut e with tally := p.tally.addCheckout (e.heldFor now) }.shelve e)
        else (false, { p.takeOut e with tally := p.tally.addCheckout (e.heldFor now) }.discard e) :=
  rfl

theorem books_shelve (e : Entry) (p : Pool σ) :
    (p.shelve e).books =
      { (p.books.retire e.id .superseded).note (.shelved (e.successor p.nextEntry)) with
        idle := p.idle ++ [e.successor p.nextEntry]
        nextEntry := p.nextEntry + 1 } := by
  have hb : ((p.undo e).retire e.id .superseded).books = p.books.retire e.id .superseded := by
    rw [books_retire, books_undo]
  unfold shelve
  dsimp only
  rw [books_note _ rfl]
  generalize (p.undo e).retire e.id .superseded = q at hb
  show { q.books with
    idle := q.books.idle ++ [e.successor q.books.nextEntry]
    nextEntry := q.books.nextEntry + 1 }.note (.shelved (e.successor q.books.nextEntry)) = _
  rw [hb]
  rfl

theorem takeBack_retired (now : Nat) (e : Entry) (p : Pool σ) (h : p.status e.id ≠ .valid) :
    (p.takeBack now e).1 = false ∧
      (p.takeBack now e).2.books = { p.books.takeOut e with tally := p.tally.addBad } := by
  rw [takeBack_eq]
  split
  · exact ⟨rfl, rfl⟩
  · constructor
    · rfl
    · rw [books_close]
      rfl
  · rename_i hv
    exact absurd hv h

theorem takeBack_kept (now : Nat) (e : Entry) (p : Pool σ) (hv : p.status e.id = .valid)
    (hk : p.keeps e) :
    (p.takeBack now e).1 = true ∧
      (p.takeBack now e).2.books =
        { ((p.books.takeOut e).retire e.id .superseded).note
            (.shelved (e.successor p.nextEntry)) with
          idle := p.idle ++ [e.successor p.nextEntry]
          nextEntry := p.nextEntry + 1
          tally := p.tally.addCheckout (e.heldFor now) } := by
  rw [takeBack_eq, hv]
  dsimp only
  rw [if_pos hk]
  constructor
  · rfl
  · rw [books_shelve]
    rfl

theorem takeBack_closed (now : Nat) (e : Entry) (p : Pool σ) (hv : p.status e.id = .valid)
    (hk : ¬ p.keeps e) :
    (p.takeBack now e).1 = false ∧
      (p.takeBack now e).2.books =
        { (p.books.takeOut e).retire e.id .invalidated with
          tally := p.tally.addCheckout (e.heldFor now) } := by
  rw [takeBack_eq, hv]
  dsimp only
  rw [if_neg hk]
  constructor
  · rfl
  · rw [books_discard]
    rfl

theorem takeBack_cases (now : Nat) (e : Entry) (p : Pool σ) {motive : Bool → Books → Prop}
    (retired : p.status e.id ≠ .valid →
      motive false { p.books.takeOut e with tally := p.tally.addBad })
    (kept : p.status e.id = .valid → p.keeps e → motive true
      { ((p.books.takeOut e).retire e.id .superseded).note (.shelved (e.successor p.nextEntry)) with
        idle := p.idle ++ [e.successor p.nextEntry]
        nextEntry := p.nextEntry + 1
        tally := p.tally.addCheckout (e.heldFor now) })
    (closed : p.status e.id = .valid → ¬ p.keeps e → motive false
      { (p.books.takeOut e).retire e.id .invalidated with
        tally := p.tally.addCheckout (e.heldFor now) }) :
    motive (p.takeBack now e).1 (p.takeBack now e).2.books := by
  by_cases hv : p.status e.id = .valid
  · by_cases hk : p.keeps e
    · obtain ⟨hb, hs⟩ := takeBack_kept now e p hv hk
      rw [hb, hs]
      exact kept hv hk
    · obtain ⟨hb, hs⟩ := takeBack_closed now e p hv hk
      rw [hb, hs]
      exact closed hv hk
  · obtain ⟨hb, hs⟩ := takeBack_retired now e p hv
    rw [hb, hs]
    exact retired hv

theorem takeBack_frame (now : Nat) (e : Entry) (p : Pool σ) :
    (p.takeBack now e).2.config = p.config ∧
      (p.takeBack now e).2.active = p.active.eraseP fun a => a.id == e.id :=
  p.takeBack_cases now e (motive := fun _ b => b.config = p.config ∧
      b.active = p.active.eraseP fun a => a.id == e.id)
    (fun _ => ⟨rfl, rfl⟩) (fun _ _ => ⟨rfl, rfl⟩) (fun _ _ => ⟨rfl, rfl⟩)

end Pool

end ConnectionPool
