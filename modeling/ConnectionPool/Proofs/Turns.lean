import ConnectionPool.Proofs.Books
import Mathlib.Logic.Relation

/-!
# Turns of an acquisition

An acquisition proceeds by turns: it takes a candidate from the idle set, from the driver or from
the oldest lease, drops a lease that nobody can use, or rejects its candidate. A turn leads from one
moment to the next, and a moment is a pool with the candidate that the caller has in hand. Whatever
one turn preserves, a whole search preserves; whether it ends in a grant, an error or a sleep.
-/

set_option autoImplicit false

namespace ConnectionPool

def Candidate.entry? : Candidate → Option Entry
  | found e => some e
  | refused _ | saturated => none

theorem Request.exhaustion_cases (r : Request) :
    r.exhaustion = .exhausted (r.strikes + 1) ∨ r.exhaustion = .overflow := by
  unfold exhaustion
  split
  · exact Or.inl rfl
  · exact Or.inr rfl

theorem Request.exhaustion_eq_exhausted {r : Request} {n : UInt64} :
    r.exhaustion = .exhausted n ↔ n.toNat = r.strikes.toNat + 1 := by
  have hadd : (r.strikes + 1).toNat = (r.strikes.toNat + 1) % UInt64.size := UInt64.toNat_add _ _
  have hn := n.toNat_lt_size
  unfold exhaustion
  split
  · rename_i h
    rw [Nat.mod_eq_of_lt h] at hadd
    rw [PoolError.exhausted.injEq, ← UInt64.toNat_inj, hadd]
    exact eq_comm
  · exact ⟨PoolError.noConfusion, fun h => by omega⟩

theorem Request.exhaustion_eq_overflow {r : Request} :
    r.exhaustion = .overflow ↔ UInt64.size ≤ r.strikes.toNat + 1 := by
  unfold exhaustion
  split
  · rename_i h
    exact ⟨PoolError.noConfusion, fun hn => absurd h (Nat.not_lt_of_le hn)⟩
  · rename_i h
    exact ⟨fun _ => Nat.le_of_not_lt h, fun _ => rfl⟩

theorem Request.exhaustion_ne_interrupted (r : Request) : r.exhaustion ≠ .interrupted := by
  rcases r.exhaustion_cases with h | h <;> rw [h] <;> exact PoolError.noConfusion

/-- A turn as the books show it. What the driver answers decides which one is taken, no more. -/
inductive Books.Turn (now caller : Nat) : Option Entry × Books → Option Entry × Books → Prop
  | pick (b : Books) (e : Entry) (rest : List Entry) (hi : b.idle = e :: rest) :
      Turn now caller (none, b) (some e, { b with idle := rest })
  | connect (b : Books) (hi : b.idle = []) (hr : b.active.length < b.config.maxActive.toNat) :
      Turn now caller (none, b)
        (some (Entry.fresh b.nextEntry ⟨b.nextLink, b.record.opened⟩ now),
          { b with
            nextEntry := b.nextEntry + 1
            nextLink := b.nextLink + 1
            record := { b.record with opened := b.record.opened + 1 } })
  | refuse (b : Books) : Turn now caller (none, b) (none, b)
  | claim (b : Books) (oldest : Entry) (rest : List Entry) (hi : b.idle = [])
      (hf : b.config.maxActive.toNat ≤ b.active.length) (ha : b.active = oldest :: rest)
      (hv : b.status oldest.id = .valid) :
      Turn now caller (none, b)
        (some (oldest.successor b.nextEntry),
          { (b.note (.claimed caller oldest (oldest.heldFor now))).retire oldest.id .superseded with
            active := rest
            nextEntry := b.nextEntry + 1
            tally := b.tally.addClaim (oldest.heldFor now) })
  | drop (b : Books) (oldest : Entry) (rest : List Entry) (hi : b.idle = [])
      (hf : b.config.maxActive.toNat ≤ b.active.length) (ha : b.active = oldest :: rest)
      (hv : b.status oldest.id ≠ .valid) :
      Turn now caller (none, b)
        (none,
          { b.note (.claimed caller oldest (oldest.heldFor now)) with
            active := rest
            tally := b.tally.addClaim (oldest.heldFor now) })
  | reject (b : Books) (e : Entry) :
      Turn now caller (some e, b)
        (none,
          { (b.note (.examined caller e false (b.idle.length + b.active.length)
              b.config.maxActive.toNat)).retire e.id .invalidated with
            tally := b.tally.addBad })

theorem Books.Turn.config {now caller : Nat} {m m' : Option Entry × Books}
    (h : Turn now caller m m') :
    m'.2.config = m.2.config ∧ m'.2.expectedTypeCode = m.2.expectedTypeCode := by
  cases h <;> exact ⟨rfl, rfl⟩

theorem Books.Turn.sets {now caller : Nat} {m m' : Option Entry × Books}
    (h : Turn now caller m m') : m'.2.idle ⊆ m.2.idle ∧ m'.2.active ⊆ m.2.active := by
  cases h with
  | pick b e rest hi =>
    refine ⟨?_, List.Subset.refl _⟩
    rw [hi]
    exact List.subset_cons_self e rest
  | connect b hi hr | refuse b | reject b e => exact ⟨List.Subset.refl _, List.Subset.refl _⟩
  | claim b oldest rest hi hf ha hv | drop b oldest rest hi hf ha hv =>
    refine ⟨List.Subset.refl _, ?_⟩
    rw [ha]
    exact List.subset_cons_self oldest rest

namespace Pool

variable {σ : Type}

theorem full_of_not_hasRoom (p : Pool σ) (h : p.hasRoom = false) :
    p.config.maxActive.toNat ≤ p.active.length :=
  Nat.le_of_not_lt (of_decide_eq_false h)

def unlend (now caller : Nat) (oldest : Entry) (rest : List Entry) (p : Pool σ) : Pool σ :=
  { p with active := rest, tally := p.tally.addClaim (oldest.heldFor now) }.note
    (.claimed caller oldest (oldest.heldFor now))

theorem books_unlend (now caller : Nat) (oldest : Entry) (rest : List Entry) (p : Pool σ) :
    (p.unlend now caller oldest rest).books =
      { p.books.note (.claimed caller oldest (oldest.heldFor now)) with
        active := rest
        tally := p.tally.addClaim (oldest.heldFor now) } := by
  rw [unlend, books_note _ rfl]
  rfl

variable [Driver σ]

theorem openLink_found (now : Nat) (p q : Pool σ) (e : Entry)
    (h : p.openLink now = (.found e, q)) :
    e = Entry.fresh p.nextEntry ⟨p.nextLink, p.backend.opened⟩ now ∧
      q.books =
        { p.books with
          nextEntry := p.nextEntry + 1
          nextLink := p.nextLink + 1
          record := { p.books.record with opened := p.backend.opened + 1 } } := by
  unfold openLink at h
  split at h
  · simp at h
  · rename_i channel backend hc
    obtain ⟨rfl, hr⟩ := Backend.record_connect_ok _ _ _ _ hc
    obtain ⟨he, rfl⟩ := Prod.mk.inj h
    constructor
    · exact (Candidate.found.inj he).symm
    · simp only [books, hr]

theorem openLink_refused (now : Nat) (p q : Pool σ) (error : DriverError)
    (h : p.openLink now = (.refused error, q)) : q.books = p.books := by
  unfold openLink at h
  split at h
  · rename_i hc
    obtain ⟨-, rfl⟩ := Prod.mk.inj h
    simp only [books, Backend.record_connect_error _ _ _ _ hc]
  · simp at h

theorem openLink_ne_saturated (now : Nat) (p : Pool σ) : (p.openLink now).1 ≠ .saturated := by
  unfold openLink
  split <;> simp

theorem examine_books (now caller : Nat) (e : Entry) (sound : Bool) (p q : Pool σ)
    (h : p.examine now caller e = (sound, q)) :
    q.books =
      p.books.note (.examined caller e sound (p.idle.length + p.active.length)
        p.config.maxActive.toNat) := by
  have hr := Backend.record_probe e.channel (pingQuery? (e.unusedFor now) p.config) p.backend
  unfold examine at h
  generalize p.backend.probe e.channel (pingQuery? (e.unusedFor now) p.config) = probed at h hr
  obtain ⟨sound', backend⟩ := probed
  obtain ⟨rfl, rfl⟩ := Prod.mk.inj h
  have hn := Backend.record_note (.examined caller e sound' (p.idle.length + p.active.length)
    p.config.maxActive.toNat) rfl backend
  rw [hr] at hn
  simp only [books, Books.note, hn]

theorem books_reject (e : Entry) (p : Pool σ) :
    (p.reject e).books =
      { p.books.retire e.id .invalidated with tally := p.tally.addBad } := by
  rw [reject, books_discard]
  rfl

theorem books_grant (now : Nat) (r : Request) (e : Entry) (p : Pool σ) :
    (p.grant now r e).2.books =
      { p.books.note (.granted r.caller (p.grant now r e).1) with
        active := p.active ++ [(p.grant now r e).1]
        tally := p.tally.addRequest (now - r.startedAt) } := by
  unfold grant
  dsimp only
  rw [books_note _ rfl]
  simp only [books, undo, Backend.record_undo, Books.note]

theorem grant_frame {now : Nat} {r : Request} {e : Entry} {sound : Bool} {p q : Pool σ}
    (h : p.examine now r.caller e = (sound, q)) :
    (q.grant now r e).2.config = p.config ∧
      (q.grant now r e).2.expectedTypeCode = p.expectedTypeCode ∧
      (q.grant now r e).2.idle = p.idle ∧
      (q.grant now r e).2.active = p.active ++ [(q.grant now r e).1] := by
  have hx := examine_books now r.caller e sound p q h
  have ha : (q.grant now r e).2.active = q.active ++ [(q.grant now r e).1] :=
    congrArg Books.active (books_grant now r e q)
  refine ⟨congrArg Books.config hx, congrArg Books.expectedTypeCode hx, congrArg Books.idle hx, ?_⟩
  rw [ha]
  exact congrArg (· ++ _) (congrArg Books.active hx)

def takeOver (now caller : Nat) (oldest : Entry) (rest : List Entry) (p : Pool σ) : Pool σ :=
  let p := ((p.unlend now caller oldest rest).retire oldest.id .superseded).undo oldest
  { p with nextEntry := p.nextEntry + 1 }

theorem books_takeOver (now caller : Nat) (oldest : Entry) (rest : List Entry) (p : Pool σ) :
    (p.takeOver now caller oldest rest).books =
      { (p.books.note (.claimed caller oldest (oldest.heldFor now))).retire oldest.id
          .superseded with
        active := rest
        nextEntry := p.nextEntry + 1
        tally := p.tally.addClaim (oldest.heldFor now) } := by
  have hb : (((p.unlend now caller oldest rest).retire oldest.id .superseded).undo oldest).books =
      (p.unlend now caller oldest rest).books.retire oldest.id .superseded := by
    rw [books_undo, books_retire]
  unfold takeOver
  generalize ((p.unlend now caller oldest rest).retire oldest.id .superseded).undo oldest = q at hb
  show { q.books with nextEntry := q.books.nextEntry + 1 } = _
  rw [hb, books_unlend]
  rfl

theorem claim_eq (now caller : Nat) (oldest : Entry) (rest : List Entry) (p : Pool σ)
    (h : p.active = oldest :: rest) :
    p.claim now caller =
      if oldest.heldFor now ≤ p.config.maxCheckout then (.saturated, p)
      else if p.status oldest.id = .valid then
        (.found (oldest.successor p.nextEntry), p.takeOver now caller oldest rest)
      else ((p.unlend now caller oldest rest).close oldest).openIfRoom now := by
  have hn : (((p.unlend now caller oldest rest).retire oldest.id .superseded).undo
      oldest).nextEntry = p.nextEntry := by
    have hb := books_undo oldest ((p.unlend now caller oldest rest).retire oldest.id .superseded)
    rw [books_retire, books_unlend] at hb
    exact congrArg Books.nextEntry hb
  unfold claim
  rw [h]
  show (if _ then _ else if p.status oldest.id = Status.valid then
    (Candidate.found (oldest.successor (((p.unlend now caller oldest rest).retire oldest.id
      .superseded).undo oldest).nextEntry), p.takeOver now caller oldest rest) else _) = _
  rw [hn]
  rfl

inductive Turn (now caller : Nat) : Option Entry × Pool σ → Option Entry × Pool σ → Prop
  | pick (p : Pool σ) (e : Entry) (rest : List Entry) (hi : p.idle = e :: rest) :
      Turn now caller (none, p) (some e, { p with idle := rest })
  | connect (p q : Pool σ) (e : Entry) (hi : p.idle = []) (hr : p.hasRoom = true)
      (h : p.openLink now = (.found e, q)) : Turn now caller (none, p) (some e, q)
  | refuse (p q : Pool σ) (error : DriverError) (hi : p.idle = []) (hr : p.hasRoom = true)
      (h : p.openLink now = (.refused error, q)) : Turn now caller (none, p) (none, q)
  | claim (p : Pool σ) (oldest : Entry) (rest : List Entry) (hi : p.idle = [])
      (hr : p.hasRoom = false) (ha : p.active = oldest :: rest)
      (ho : p.config.maxCheckout < oldest.heldFor now) (hv : p.status oldest.id = .valid) :
      Turn now caller (none, p)
        (some (oldest.successor p.nextEntry), p.takeOver now caller oldest rest)
  | drop (p : Pool σ) (oldest : Entry) (rest : List Entry) (hi : p.idle = [])
      (hr : p.hasRoom = false) (ha : p.active = oldest :: rest)
      (ho : p.config.maxCheckout < oldest.heldFor now) (hv : p.status oldest.id ≠ .valid) :
      Turn now caller (none, p) (none, (p.unlend now caller oldest rest).close oldest)
  | reject (p q : Pool σ) (e : Entry) (h : p.examine now caller e = (false, q)) :
      Turn now caller (some e, p) (none, q.reject e)

theorem turn_books {now caller : Nat} {m m' : Option Entry × Pool σ} (h : Turn now caller m m') :
    Books.Turn now caller (m.1, m.2.books) (m'.1, m'.2.books) := by
  cases h with
  | pick p e rest hi => exact .pick p.books e rest hi
  | connect p q e hi hr h =>
    obtain ⟨rfl, hb⟩ := openLink_found now p q e h
    rw [hb]
    exact .connect p.books hi (of_decide_eq_true hr)
  | refuse p q error hi hr h =>
    rw [openLink_refused now p q error h]
    exact .refuse p.books
  | claim p oldest rest hi hr ha ho hv =>
    rw [books_takeOver]
    exact .claim p.books oldest rest hi (full_of_not_hasRoom p hr) ha hv
  | drop p oldest rest hi hr ha ho hv =>
    rw [books_close, books_unlend]
    exact .drop p.books oldest rest hi (full_of_not_hasRoom p hr) ha hv
  | reject p q e h =>
    have hx := examine_books now caller e false p q h
    have ht : q.tally = p.tally := congrArg Books.tally hx
    rw [books_reject, hx, ht]
    exact .reject p.books e

abbrev Turns (now caller : Nat) : Option Entry × Pool σ → Option Entry × Pool σ → Prop :=
  Relation.ReflTransGen (Turn now caller)

theorem sets_turns {now caller : Nat} {m m' : Option Entry × Pool σ} (h : Turns now caller m m') :
    m'.2.config = m.2.config ∧ m'.2.active ⊆ m.2.active := by
  induction h with
  | refl => exact ⟨rfl, List.Subset.refl _⟩
  | tail _ ht ih =>
    exact ⟨(turn_books ht).config.1.trans ih.1, List.Subset.trans (turn_books ht).sets.2 ih.2⟩

def Saturated (p : Pool σ) : Prop := p.idle = [] ∧ p.hasRoom = false

theorem openLink_turns (now caller : Nat) (p q : Pool σ) (c : Candidate) (hi : p.idle = [])
    (hr : p.hasRoom = true) (h : p.openLink now = (c, q)) :
    Turns now caller (none, p) (c.entry?, q) ∧ c ≠ .saturated := by
  cases c with
  | found e => exact ⟨.single (.connect p q e hi hr h), by simp⟩
  | refused error => exact ⟨.single (.refuse p q error hi hr h), by simp⟩
  | saturated => exact absurd (congrArg Prod.fst h) (openLink_ne_saturated now p)

theorem claim_turns (now caller : Nat) (p q : Pool σ) (c : Candidate) (hs : p.Saturated)
    (h : p.claim now caller = (c, q)) :
    Turns now caller (none, p) (c.entry?, q) ∧ (c = .saturated → q.Saturated) := by
  obtain ⟨hi, hr⟩ := hs
  cases ha : p.active with
  | nil =>
    simp only [claim, ha] at h
    obtain ⟨rfl, rfl⟩ := Prod.mk.inj h
    exact ⟨.refl, fun _ => ⟨hi, hr⟩⟩
  | cons oldest rest =>
    rw [claim_eq now caller oldest rest p ha] at h
    split at h
    · obtain ⟨rfl, rfl⟩ := Prod.mk.inj h
      exact ⟨.refl, fun _ => ⟨hi, hr⟩⟩
    · rename_i ho
      have ho := Nat.lt_of_not_le ho
      split at h
      · rename_i hv
        obtain ⟨rfl, rfl⟩ := Prod.mk.inj h
        exact ⟨.single (.claim p oldest rest hi hr ha ho hv), by simp⟩
      · rename_i hv
        have hd : Turns now caller (none, p)
            (none, (p.unlend now caller oldest rest).close oldest) :=
          .single (.drop p oldest rest hi hr ha ho hv)
        unfold openIfRoom at h
        split at h
        · rename_i hr'
          obtain ⟨ht, hc⟩ := openLink_turns now caller
            ((p.unlend now caller oldest rest).close oldest) q c hi hr' h
          exact ⟨hd.trans ht, fun hs => absurd hs hc⟩
        · rename_i hr'
          obtain ⟨rfl, rfl⟩ := Prod.mk.inj h
          exact ⟨hd, fun _ => ⟨hi, by simpa using hr'⟩⟩

theorem nextCandidate_turns (now caller : Nat) (p q : Pool σ) (c : Candidate)
    (h : p.nextCandidate now caller = (c, q)) :
    Turns now caller (none, p) (c.entry?, q) ∧ (c = .saturated → q.Saturated) := by
  unfold nextCandidate at h
  split at h
  · rename_i e rest hi
    obtain ⟨rfl, rfl⟩ := Prod.mk.inj h
    exact ⟨.single (.pick p e rest hi), by simp⟩
  · rename_i hi
    split at h
    · rename_i hr
      obtain ⟨ht, hc⟩ := openLink_turns now caller p q c hi hr h
      exact ⟨ht, fun hs => absurd hs hc⟩
    · rename_i hr
      exact claim_turns now caller p q c ⟨hi, by simpa using hr⟩ h

/-- How a search ends, and after which turns. -/
def Ends (now : Nat) (r : Request) (p : Pool σ) : Outcome → Pool σ → Prop
  | .granted lent, q => ∃ e p₁ p₂, Turns now r.caller (none, p) (some e, p₁) ∧
      p₁.examine now r.caller e = (true, p₂) ∧ (lent, q) = p₂.grant now r e
  | .failed error, q => Turns now r.caller (none, p) (none, q) ∧ error ≠ .interrupted
  | .saturated r', q => Turns now r.caller (none, p) (none, q) ∧ q.Saturated ∧
      q.active ≠ [] ∧ ∃ strikes, r' = { r with strikes }

theorem Ends.after (now : Nat) (r : Request) (p p' : Pool σ) (strikes : UInt64) (outcome : Outcome)
    (q : Pool σ) (ht : Turns now r.caller (none, p) (none, p'))
    (he : Ends now { r with strikes } p' outcome q) : Ends now r p outcome q := by
  cases outcome with
  | granted lent =>
    obtain ⟨e, p₁, p₂, ht', hx, hg⟩ := he
    exact ⟨e, p₁, p₂, ht.trans ht', hx, hg⟩
  | failed error => exact ⟨ht.trans he.1, he.2⟩
  | saturated r' =>
    obtain ⟨ht', hs, hn, n, rfl⟩ := he
    exact ⟨ht.trans ht', hs, hn, n, rfl⟩

theorem seekWithin_ends (now left : Nat) (r : Request) (p : Pool σ) :
    Ends now r p (p.seekWithin now left r).1 (p.seekWithin now left r).2 := by
  fun_induction seekWithin now left r p with
  | case1 left r p error q hc =>
    exact ⟨(nextCandidate_turns now r.caller p q _ hc).1, by simp⟩
  | case2 left r p q hc hn =>
    exact ⟨(nextCandidate_turns now r.caller p q _ hc).1, by simp⟩
  | case3 left r p q hc hn =>
    obtain ⟨ht, hs⟩ := nextCandidate_turns now r.caller p q _ hc
    exact ⟨ht, hs rfl, by simpa using hn, r.strikes, rfl⟩
  | case4 left r p e p₁ hc p₂ hx lent q hg =>
    exact ⟨e, p₁, p₂, (nextCandidate_turns now r.caller p p₁ _ hc).1, hx, hg.symm⟩
  | case5 r p e p₁ hc p₂ hx =>
    have ht := (nextCandidate_turns now r.caller p p₁ _ hc).1
    exact ⟨ht.tail (.reject p₁ p₂ e hx), r.exhaustion_ne_interrupted⟩
  | case6 r p e p₁ hc p₂ hx _ left ih =>
    have ht := (nextCandidate_turns now r.caller p p₁ _ hc).1
    exact Ends.after now r p _ _ _ _ (ht.tail (.reject p₁ p₂ e hx)) ih

theorem seek_ends (now : Nat) (r : Request) (p : Pool σ) :
    Ends now r p (p.seek now r).1 (p.seek now r).2 :=
  seekWithin_ends now _ r p

end Pool

end ConnectionPool
