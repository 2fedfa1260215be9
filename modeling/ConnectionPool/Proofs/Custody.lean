import ConnectionPool.Proofs.Provenance
import ConnectionPool.Proofs.Traffic

/-!
# Custody

Who answers for each connection. Whatever was opened is held by the pool, as an idle entry, as a
lease or in a caller's hand, or has left it for good and was closed after it left. What was told to
close is not held, and is never taken in again. Both are read off the journal, and hold whatever the
driver answers; that errors are passed over on the way makes no difference.
-/

set_option autoImplicit false

namespace ConnectionPool

namespace Event

/-- The connection that the event takes in, as a lease or into the idle set. -/
def arrival? : Event → Option Nat
  | granted _ e | shelved e => some e.channel
  | _ => none

/-- The connection that leaves: a candidate is rejected, a lease is taken away or comes back, or a
reset gives the connection up. -/
def departure? : Event → Option Nat
  | examined _ e false _ _ => some e.channel
  | claimed _ e _ => some e.channel
  | returned e true _ => some e.channel
  | drained e _ => some e.channel
  | _ => none

theorem arrival_of_called (event : Event) (channel : Nat) (h : event.called? = some channel) :
    event.arrival? = none := by
  cases event <;> simp_all [called?, arrival?]

theorem of_departure (event : Event) (channel : Nat) (h : event.departure? = some channel) :
    event.arrival? = none ∧ event.closing? = none := by
  cases event <;> simp_all [departure?, arrival?, closing?]

theorem closing_of_arrival (event : Event) (channel : Nat) (h : event.arrival? = some channel) :
    event.closing? = none := by
  cases event <;> simp_all [arrival?, closing?]

end Event

/-- The connection left, has not been taken in since, and was told to close or answered that it is
closed after it left. -/
def Gone (channel : Nat) (journal : List Event) : Prop :=
  ∃ newer departure older, journal = newer ++ departure :: older ∧
    departure.departure? = some channel ∧ (∀ event ∈ newer, event.arrival? ≠ some channel) ∧
    ∃ event ∈ newer, event.ending? = some channel

theorem Gone.append {channel : Nat} {journal : List Event} (h : Gone channel journal)
    (more : List Event) (hm : ∀ event ∈ more, event.arrival? ≠ some channel) :
    Gone channel (more ++ journal) := by
  obtain ⟨newer, departure, older, rfl, hd, ha, event, he, hx⟩ := h
  refine ⟨more ++ newer, departure, older, ?_, hd, ?_, event, List.mem_append_right _ he, hx⟩
  · rw [List.append_assoc]
  · intro event he
    exact (List.mem_append.mp he).elim (hm event) (ha event)

namespace Backend.Talk

variable {σ : Type} {channel : Nat} {talk : List Event} {b b' : Backend σ}

theorem no_arrival (t : Talk channel talk b b') : ∀ event ∈ talk, event.arrival? = none :=
  fun event he => Event.arrival_of_called event channel (t.called event he)

theorem closing_eq (t : Talk channel talk b b') : ∀ i ∈ closings talk, i = channel := by
  intro i hi
  obtain ⟨event, he, hc⟩ := (mem_closings talk i).mp hi
  have hk := Event.called_of_closing event i hc
  rw [t.called event he] at hk
  exact (Option.some.inj hk).symm

end Backend.Talk

/-- The channels are those of the connections held, and the backend's journal accounts for all the
others. -/
structure Backend.Custody {σ : Type} (channels : List Nat) (b : Backend σ) : Prop where
  unclosed : ∀ i ∈ channels, i ∉ closings b.journal
  accounted : ∀ i < b.opened, i ∈ channels ∨ Gone i b.journal
  closed_lt : ∀ i ∈ closings b.journal, i < b.opened
  final : b.journal.Pairwise fun newer older =>
    ∀ i, newer.arrival? = some i → older.closing? ≠ some i

namespace Backend.Custody

variable {σ : Type} {channels channels' : List Nat} {b b' : Backend σ}

theorem congr (k : b.Custody channels) (hc : ∀ i, i ∈ channels' ↔ i ∈ channels) :
    b.Custody channels' where
  unclosed i hi := k.unclosed i ((hc i).mp hi)
  accounted i hi := (k.accounted i hi).imp_left (hc i).mpr
  closed_lt := k.closed_lt
  final := k.final

theorem extend (k : b.Custody channels) (newer : List Event)
    (hj : b'.journal = newer ++ b.journal) (ho : b'.opened = b.opened)
    (hn : ∀ event ∈ newer, event.arrival? = none)
    (hx : ∀ i ∈ closings newer, i < b.opened ∧ i ∉ channels')
    (hs : ∀ i ∈ channels', i ∈ channels)
    (hg : ∀ i ∈ channels, i ∈ channels' ∨ Gone i b'.journal) : b'.Custody channels' where
  unclosed i hi := by
    rw [hj, closings_append, List.mem_append]
    rintro (hc | hc)
    · exact (hx i hc).2 hi
    · exact k.unclosed i (hs i hi) hc
  accounted i hi := by
    rw [ho] at hi
    rcases k.accounted i hi with hm | hg'
    · exact hg i hm
    · rw [hj]
      exact Or.inr (hg'.append newer fun event he => by simp [hn event he])
  closed_lt i hi := by
    rw [hj, closings_append, List.mem_append] at hi
    rw [ho]
    exact hi.elim (fun hc => (hx i hc).1) (k.closed_lt i)
  final := by
    have hv : ∀ event ∈ newer, ∀ older : Event, ∀ i, event.arrival? = some i →
        older.closing? ≠ some i := by
      intro event he older i hi
      rw [hn event he] at hi
      exact absurd hi (by simp)
    rw [hj, List.pairwise_append]
    refine ⟨?_, k.final, fun event he older _ => hv event he older⟩
    exact List.pairwise_of_forall_mem_list fun event he older _ => hv event he older

theorem note (k : b.Custody channels) (event : Event) (ha : event.arrival? = none)
    (ht : event.isTraffic = false) : (b.note event).Custody channels := by
  refine k.extend [event] rfl rfl (by simpa using ha) ?_ (fun _ hi => hi) (fun _ hi => Or.inl hi)
  simp [closings, Event.closing_of_decision event ht]

theorem talk {channel : Nat} {talk : List Event} (k : b.Custody channels)
    (t : Talk channel talk b b')
    (hx : closings talk = [] ∨ channel < b.opened ∧ channel ∉ channels) :
    b'.Custody channels := by
  refine k.extend talk t.journal t.opened t.no_arrival ?_ (fun _ hi => hi) (fun _ hi => Or.inl hi)
  intro i hi
  rcases hx with hq | hx
  · simp [hq] at hi
  · exact t.closing_eq i hi ▸ hx

theorem leave {channel : Nat} {event : Event} {before talk : List Event} {b₁ b₂ : Backend σ}
    (k : b.Custody channels) (hl : channel < b.opened) (t₁ : Talk channel before b b₁)
    (he : event.departure? = some channel) (t₂ : Talk channel talk (b₁.note event) b₂)
    (hx : ∃ event ∈ talk, event.ending? = some channel)
    (hc : ∀ i, i ∈ channels' ↔ i ∈ channels ∧ i ≠ channel) : b₂.Custody channels' := by
  obtain ⟨hea, hec⟩ := Event.of_departure event channel he
  have hj : b₂.journal = talk ++ event :: (before ++ b.journal) := by
    rw [t₂.journal, Backend.note, t₁.journal]
  refine k.extend (talk ++ event :: before) ?_ (t₂.opened.trans t₁.opened) ?_ ?_
    (fun i hi => ((hc i).mp hi).1) ?_
  · rw [hj, List.append_assoc, List.cons_append]
  · intro x hx
    rcases List.mem_append.mp hx with hx | hx
    · exact t₂.no_arrival x hx
    · exact (List.mem_cons.mp hx).elim (fun h => h ▸ hea) (t₁.no_arrival x)
  · intro i hi
    have hi : i = channel := by
      rw [closings_append, closings_cons event hec, List.mem_append] at hi
      exact hi.elim (t₂.closing_eq i) (t₁.closing_eq i)
    subst hi
    exact ⟨hl, fun hm => ((hc i).mp hm).2 rfl⟩
  · intro i hi
    by_cases hic : i = channel
    · subst hic
      refine Or.inr ⟨talk, event, before ++ b.journal, hj, he, ?_, hx⟩
      intro x hm
      simp [t₂.no_arrival x hm]
    · exact Or.inl ((hc i).mpr ⟨hi, hic⟩)

theorem receive {channel : Nat} {event : Event} (k : b.Custody channels)
    (he : event.arrival? = some channel) (hm : channel ∈ channels) :
    (b.note event).Custody channels where
  unclosed i hi := by
    show i ∉ closings (event :: b.journal)
    rw [closings_cons event (Event.closing_of_arrival event channel he)]
    exact k.unclosed i hi
  accounted i hi := by
    by_cases hic : i = channel
    · exact Or.inl (hic ▸ hm)
    · refine (k.accounted i hi).imp_right fun hg => hg.append [event] ?_
      intro x hx
      rw [List.mem_singleton.mp hx, he]
      exact fun h => hic (Option.some.inj h).symm
  closed_lt i hi := by
    change i ∈ closings (event :: b.journal) at hi
    rw [closings_cons event (Event.closing_of_arrival event channel he)] at hi
    exact k.closed_lt i hi
  final := by
    refine List.pairwise_cons.mpr ⟨?_, k.final⟩
    intro older ho i hi hc
    rw [he] at hi
    obtain rfl := Option.some.inj hi
    exact k.unclosed channel hm ((mem_closings b.journal channel).mpr ⟨older, ho, hc⟩)

theorem connect [Driver σ] {login : Login} {channel : Nat} (k : b.Custody channels)
    (h : b.connect login = (.ok channel, b')) (hc : channel = b.opened) :
    b'.Custody (channel :: channels) := by
  obtain ⟨hj, ho⟩ := connect_ok login b b' channel h
  have hcl : closings b'.journal = closings b.journal := by
    rw [hj]
    exact closings_cons _ rfl b.journal
  refine ⟨?_, ?_, ?_, ?_⟩
  · intro i hi
    rw [hcl]
    rcases List.mem_cons.mp hi with rfl | hi
    · intro hm
      exact absurd (k.closed_lt i hm) (by omega)
    · exact k.unclosed i hi
  · intro i hi
    by_cases hic : i = channel
    · exact Or.inl (hic ▸ List.mem_cons_self)
    · rcases k.accounted i (by omega) with hm | hg
      · exact Or.inl (List.mem_cons_of_mem channel hm)
      · rw [hj]
        exact Or.inr (hg.append [_] (by simp [Event.arrival?]))
  · intro i hi
    rw [hcl] at hi
    have hl := k.closed_lt i hi
    omega
  · rw [hj]
    refine List.pairwise_cons.mpr ⟨?_, k.final⟩
    intro older _ i hi
    exact absurd hi (by simp [Event.arrival?])

theorem refuse [Driver σ] {login : Login} {error : DriverError} (k : b.Custody channels)
    (h : b.connect login = (.error error, b')) : b'.Custody channels := by
  obtain ⟨hj, ho⟩ := connect_error login b b' error h
  refine k.extend [_] hj ho (by simp [Event.arrival?]) ?_ (fun _ hi => hi) (fun _ hi => Or.inl hi)
  simp [closings, Event.closing?]

end Backend.Custody

end ConnectionPool
