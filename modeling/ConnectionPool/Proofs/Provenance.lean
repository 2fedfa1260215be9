import ConnectionPool.Proofs.Upkeep

/-!
# Provenance

Where the links behind entries come from. A link was made when its connection was opened, and its
number is one more than its channel. A link passes from a valid entry to its successor and in no
other way, so the connection of an entry that was invalidated is nobody else's: whoever returns such
an entry may close it. Like the ledger, of which this is a part, it is preserved by each move.
-/

set_option autoImplicit false

namespace ConnectionPool

structure Provenance (hand : Option Entry) (b : Books) (handles : List Handle) : Prop
    extends Ledger hand b handles where
  next_link : b.nextLink = b.record.opened + 1
  held_number : ∀ e ∈ b.held hand, e.link.number = e.channel + 1
  handle_number : ∀ h ∈ handles, h.entry.link.number = h.entry.channel + 1
  handle_channel_lt : ∀ h ∈ handles, h.entry.channel < b.record.opened
  /-- No other entry has the connection of an invalidated one. -/
  spent : ∀ h ∈ handles, b.status h.entry.id = .invalidated →
    ∀ e ∈ b.held hand, e.channel = h.entry.channel → e = h.entry

theorem Books.invalidated_of_retire (id : Nat) (how : Status) (b : Books) (j : Nat)
    (hw : how ≠ .invalidated) (h : (b.retire id how).status j = .invalidated) :
    b.status j = .invalidated := by
  rw [status_retire] at h
  split at h
  · exact absurd h hw
  · exact h

/-- An entry carries the link on if it has taken it over from one that was not invalidated. -/
def Books.Carries (hand : Option Entry) (b : Books) (e : Entry) : Prop :=
  ∃ a ∈ b.held hand, a.link = e.link ∧ b.status a.id ≠ .invalidated

namespace Provenance

variable {hand hand' : Option Entry} {b b' : Books} {handles handles' : List Handle}

theorem carry (v : Provenance hand b handles) (l : Ledger hand' b' handles')
    (hn : b'.nextLink = b.nextLink) (ho : b'.record.opened = b.record.opened)
    (he : ∀ e ∈ b'.held hand', e ∈ b.held hand ∨ b.Carries hand e)
    (hh : ∀ h ∈ handles', (∃ a ∈ handles, a.entry = h.entry) ∨
      b.Carries hand h.entry ∧ b'.status h.entry.id ≠ .invalidated)
    (hs : ∀ h ∈ handles, b'.status h.entry.id = .invalidated →
      b.status h.entry.id = .invalidated) :
    Provenance hand' b' handles' := by
  have hnumber (e : Entry) (h : b.Carries hand e) : e.link.number = e.channel + 1 := by
    obtain ⟨a, ha, hl, -⟩ := h
    have hk := v.held_number a ha
    rw [Entry.channel, hl] at hk
    exact hk
  refine ⟨l, ?_, ?_, ?_, ?_, ?_⟩
  · rw [hn, ho, v.next_link]
  · intro e hm
    exact (he e hm).elim (v.held_number e) (hnumber e)
  · intro h hm
    rcases hh h hm with ⟨a, ha, hk⟩ | ⟨hc, -⟩
    · rw [← hk]
      exact v.handle_number a ha
    · exact hnumber h.entry hc
  · intro h hm
    rw [ho]
    rcases hh h hm with ⟨a, ha, hk⟩ | ⟨⟨a, ha, hk, -⟩, -⟩
    · rw [← hk]
      exact v.handle_channel_lt a ha
    · have hl := v.distinct.channel_lt a ha
      rw [Entry.channel, hk] at hl
      exact hl
  · intro h hm hi e hem hk
    rcases hh h hm with ⟨a, ha, hah⟩ | ⟨-, hn⟩
    · rw [← hah] at hi hk ⊢
      have hi := hs a ha hi
      rcases he e hem with hold | ⟨c, hc, hl, hv⟩
      · exact v.spent a ha hi e hold hk
      · -- the link would come from the invalidated entry itself
        have hca := v.spent a ha hi c hc (by rw [Entry.channel, hl]; exact hk)
        exact absurd (hca ▸ hi) hv
    · exact absurd hi hn

theorem congr (v : Provenance hand b handles) (hi : b'.idle = b.idle) (ha : b'.active = b.active)
    (hr : b'.retired = b.retired) (hn : b'.nextEntry = b.nextEntry)
    (hl : b'.nextLink = b.nextLink) (ho : b'.record.opened = b.record.opened) :
    Provenance hand b' handles := by
  have hh : b'.held hand = b.held hand := by simp [Books.held, hi, ha]
  refine v.carry (v.toLedger.congr hi ha hr hn ho) hl ho ?_ ?_ ?_
  · intro e he
    exact Or.inl (hh ▸ he)
  · exact fun h hm => Or.inl ⟨h, hm, rfl⟩
  · intro h hm hs
    simpa [Books.status, hr] using hs

theorem connect (v : Provenance none b handles) (now : Nat) :
    Provenance (some (Entry.fresh b.nextEntry ⟨b.nextLink, b.record.opened⟩ now))
      { b with
        nextEntry := b.nextEntry + 1
        nextLink := b.nextLink + 1
        record := { b.record with opened := b.record.opened + 1 } } handles where
  toLedger := (v.adopt rfl (v.distinct.add b.nextLink now)).congr rfl rfl rfl rfl rfl
  next_link := congrArg (· + 1) v.next_link
  held_number e he := by
    rcases List.mem_cons.mp he with rfl | he
    · exact v.next_link
    · exact v.held_number e he
  handle_number := v.handle_number
  handle_channel_lt h hm := Nat.lt_succ_of_lt (v.handle_channel_lt h hm)
  spent h hm hi e he hk := by
    rcases List.mem_cons.mp he with rfl | he
    · have hl := v.handle_channel_lt h hm
      rw [← hk] at hl
      exact absurd hl (Nat.lt_irrefl _)
    · exact v.spent h hm hi e he hk

theorem spoil {handle : Handle} (v : Provenance none b handles) (hm : handle ∈ handles)
    (ha : handle.entry ∈ b.active) :
    Provenance none (b.retire handle.entry.id .invalidated) handles where
  toLedger := v.toLedger.spoil ha
  next_link := v.next_link
  held_number := v.held_number
  handle_number := v.handle_number
  handle_channel_lt := v.handle_channel_lt
  spent h hh hi e he hk := by
    by_cases hid : h.entry.id = handle.entry.id
    · have hhh : h = handle := List.inj_on_of_nodup_map v.handle_ids_nodup hh hm hid
      subst hhh
      exact v.distinct.channel_inj he (List.mem_append_right b.idle ha) hk
    · rw [Books.status_retire_ne _ _ _ _ hid] at hi
      exact v.spent h hh hi e he hk

end Provenance

theorem Books.mem_held_of_rest {b : Books} {oldest a : Entry} {rest : List Entry}
    (ha : b.active = oldest :: rest) (hm : a ∈ b.idle ++ rest) : a ∈ b.held none := by
  rw [held, ha]
  exact (List.sublist_cons_self oldest rest).append_left b.idle |>.subset hm

theorem Books.Turn.provenance {now caller : Nat} {m m' : Option Entry × Books}
    {handles : List Handle} (h : Turn now caller m m') (v : Provenance m.1 m.2 handles) :
    Provenance m'.1 m'.2 handles := by
  have l := h.ledger v.toLedger
  have hh : ∀ h ∈ handles, (∃ a ∈ handles, a.entry = h.entry) ∨
      m.2.Carries m.1 h.entry ∧ m'.2.status h.entry.id ≠ .invalidated :=
    fun h hm => Or.inl ⟨h, hm, rfl⟩
  cases h with
  | pick b e rest hi =>
    refine v.carry l rfl rfl (fun a ha => Or.inl ?_) hh (fun _ _ hs => hs)
    simpa [Books.held, hi] using ha
  | connect b hi hr => exact v.connect now
  | refuse b => exact v
  | claim b oldest rest hi hf ha hv =>
    refine v.carry l rfl rfl ?_ hh ?_
    · intro a hm
      rcases List.mem_cons.mp hm with rfl | hm
      · right
        refine ⟨oldest, ?_, rfl, ?_⟩
        · simp [Books.held, ha]
        · show b.status oldest.id ≠ .invalidated
          rw [hv]
          decide
      · exact Or.inl (mem_held_of_rest ha hm)
    · intro h hm hs
      exact Books.invalidated_of_retire oldest.id .superseded b h.entry.id (by decide) hs
  | drop b oldest rest hi hf ha hv =>
    exact v.carry l rfl rfl (fun a hm => Or.inl (mem_held_of_rest ha hm)) hh (fun _ _ hs => hs)
  | reject b e =>
    refine v.carry l rfl rfl (fun a hm => Or.inl (List.mem_cons_of_mem e hm)) hh ?_
    intro h hm hs
    have hne := v.toLedger.handle_id_ne h hm
    change (b.retire e.id .invalidated).status h.entry.id = .invalidated at hs
    rw [Books.status_retire_ne _ _ _ _ hne] at hs
    exact hs

namespace Pool

variable {σ : Type} [Driver σ] {p : Pool σ} {handles : List Handle}

theorem provenance_grant {now : Nat} {r : Request} {e : Entry} {sound : Bool} {q : Pool σ}
    (h : p.examine now r.caller e = (sound, q)) (v : Provenance (some e) p.books handles) :
    Provenance none (q.grant now r e).2.books
      (handles ++ [{ caller := r.caller, entry := (q.grant now r e).1 }]) := by
  have hx := examine_books now r.caller e sound p q h
  have hb := books_grant now r e q
  have hs (id : Nat) : (q.grant now r e).2.books.status id = p.books.status id := by
    rw [hb, hx]
    rfl
  have hc : p.books.Carries (some e) (q.grant now r e).1 :=
    ⟨e, List.mem_cons_self, rfl, by rw [v.ready e List.mem_cons_self]; decide⟩
  refine v.carry (ledger_grant h v.toLedger) ?_ ?_ ?_ ?_ (fun h _ hi => hs h.entry.id ▸ hi)
  · rw [hb, hx]
    rfl
  · rw [hb, hx]
    rfl
  · obtain ⟨-, -, hi, ha⟩ := grant_frame h
    intro a hm
    change a ∈ (q.grant now r e).2.idle ++ (q.grant now r e).2.active at hm
    rw [hi, ha, List.mem_append, List.mem_append, List.mem_singleton] at hm
    rcases hm with hm | hm | rfl
    · exact Or.inl (List.mem_cons_of_mem e (List.mem_append_left p.active hm))
    · exact Or.inl (List.mem_cons_of_mem e (List.mem_append_right p.idle hm))
    · exact Or.inr hc
  · intro h hm
    rcases List.mem_append.mp hm with hm | hm
    · exact Or.inl ⟨h, hm, rfl⟩
    · rw [List.mem_singleton.mp hm, hs]
      refine Or.inr ⟨hc, ?_⟩
      show p.books.status e.id ≠ .invalidated
      rw [v.ready e List.mem_cons_self]
      decide

theorem held_takeOut (e : Entry) (b : Books) : (b.takeOut e).held none ⊆ b.held none :=
  (List.eraseP_sublist.append_left b.idle).subset

theorem provenance_takeBack {now i : Nat} {handle : Handle} (hh : handles[i]? = some handle)
    (v : Provenance none p.books handles) :
    Provenance none (p.takeBack now handle.entry).2.books
      (handles.set i { handle with released := true }) := by
  have hm : handle ∈ handles := List.mem_of_getElem? hh
  have he : ∀ h ∈ handles.set i { handle with released := true },
      ∃ a ∈ handles, a.entry = h.entry := by
    intro h hk
    rcases List.mem_or_eq_of_mem_set hk with hk | rfl
    · exact ⟨h, hk, rfl⟩
    · exact ⟨handle, hm, rfl⟩
  have l : Ledger none (p.takeBack now handle.entry).2.books
      (handles.set i { handle with released := true }) := ledger_takeBack hh v.toLedger
  revert l
  refine p.takeBack_cases now handle.entry (motive := fun _ b =>
    Ledger none b (handles.set i { handle with released := true }) →
    Provenance none b (handles.set i { handle with released := true })) ?retired ?kept ?closed
  case retired =>
    intro hv l
    exact v.carry l rfl rfl (fun a ha => Or.inl (held_takeOut handle.entry p.books ha))
      (fun h hk => Or.inl (he h hk)) (fun _ _ hs => hs)
  case kept =>
    intro hv hk l
    refine v.carry l rfl rfl ?_ (fun h hk => Or.inl (he h hk)) ?_
    · intro a ha
      simp only [Books.held, Option.toList_none, List.nil_append, List.mem_append,
        List.mem_singleton] at ha
      rcases ha with (ha | rfl) | ha
      · exact Or.inl (List.mem_append_left p.active ha)
      · right
        refine ⟨handle.entry, List.mem_append_right p.idle (v.running handle hm hv), rfl, ?_⟩
        show p.status handle.entry.id ≠ .invalidated
        rw [hv]
        decide
      · exact Or.inl (List.mem_append_right p.idle (List.eraseP_subset ha))
    · intro h _ hs
      exact Books.invalidated_of_retire handle.entry.id .superseded p.books h.entry.id
        (by decide) hs
  case closed =>
    intro hv hk l
    have hs := v.spoil hm (v.running handle hm hv)
    exact hs.carry l rfl rfl (fun a ha => Or.inl (held_takeOut handle.entry p.books ha))
      (fun h hk => Or.inl (he h hk)) (fun _ _ hs => hs)

theorem provenance_reset (v : Provenance none p.books handles) :
    Provenance none p.reset.books handles := by
  have hl : p.reset.books.nextLink = p.books.nextLink := (reset_rest p).2.1
  obtain ⟨-, hi, ha, -, ho⟩ := reset_frame p
  have he : p.reset.books.held none = [] := by
    show p.reset.idle ++ p.reset.active = []
    rw [hi, ha]
    rfl
  refine ⟨ledger_reset v.toLedger, ?_, by simp [he], v.handle_number, ?_, by simp [he]⟩
  · rw [hl, ho]
    exact v.next_link
  · rw [ho]
    exact v.handle_channel_lt

theorem provenance_reconfigure (update : Config → Config) (v : Provenance none p.books handles) :
    Provenance none (p.reconfigure update).2.books handles := by
  have hc : Provenance none { p with config := update p.config }.books handles :=
    v.congr rfl rfl rfl rfl rfl rfl
  exact p.reconfigure_cases update (motive := fun q => Provenance none q.books handles) v
    (provenance_reset hc)

end Pool

namespace Service

variable {σ : Type}

def HasProvenance (hand : Option Entry) (s : Service σ) : Prop :=
  Provenance hand s.pool.books s.handles

theorem HasProvenance.ledger {hand : Option Entry} {s : Service σ} (v : s.HasProvenance hand) :
    s.HasLedger hand := v.toLedger

theorem provenance_start (driver : σ) (config : Config) (pool : Pool σ)
    (h : Pool.create driver config = .ok pool) : HasProvenance none (start pool) := by
  have l := ledger_start driver config pool h
  rw [Pool.of_create driver config pool h] at l ⊢
  have hh : (start (Pool.unused driver config)).handles = [] := rfl
  have he : (start (Pool.unused driver config)).pool.books.held none = [] := rfl
  refine ⟨l, rfl, ?_, ?_, ?_, ?_⟩ <;> simp [hh, he]

variable [Driver σ]

theorem provenance_move (m m' : Option Entry × Service σ) (h : Move m m')
    (v : HasProvenance m.1 m.2) : HasProvenance m'.1 m'.2 := by
  cases h with
  | mark s | come s | pass s | leave s => exact v
  | awake s x | sleep s r hs hc | fail s r error => exact v.congr rfl rfl rfl rfl rfl rfl
  | countWait s r =>
    unfold countWait
    split
    · exact v
    · exact v.congr rfl rfl rfl rfl rfl rfl
  | turn s caller hand hand' q h => exact (Pool.turn_books h).provenance v
  | grant s r e q h => exact (Pool.provenance_grant h v).congr rfl rfl rfl rfl rfl rfl
  | takeBack s i handle hh hr => exact Pool.provenance_takeBack hh v

theorem provenance_command (op : Op σ) (s s' : Service σ) (h : Command op s s')
    (v : HasProvenance none s) : HasProvenance none s' := by
  cases h with
  | meddle s f => exact v.congr rfl rfl rfl rfl rfl rfl
  | issueToken s hl => exact v
  | reset s hl | shutDown s hl hw => exact Pool.provenance_reset v
  | reconfigure s update hl => exact Pool.provenance_reconfigure update v

theorem provenance_forward (s : Service σ) (i : Nat) (c : Call) (v : HasProvenance none s) :
    HasProvenance none (s.forward i c).2 := by
  obtain ⟨hs, hb⟩ := forward_cases s i c
  have hm : (s.forward i c).2.handles = s.handles := by rw [hs]
  unfold HasProvenance
  rw [hm]
  rcases hb with hb | ⟨handle, error, hh, hv, -, -, hb⟩
  · rw [hb]
    exact v
  · have hk := List.mem_of_getElem? hh
    rw [hb]
    exact v.spoil hk (v.running handle hk (status_of_isValid handle s hv))

theorem provenance_run (ops : List (Op σ)) (s : Service σ) (v : HasProvenance none s) :
    HasProvenance none (run ops s) :=
  run_keeps HasProvenance provenance_move (fun s i c _ => provenance_forward s i c) ops
    (fun op _ => provenance_command op) s v

end Service

end ConnectionPool
