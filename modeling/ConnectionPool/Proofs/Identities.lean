import ConnectionPool.Proofs.Creations
import ConnectionPool.Proofs.Handoff
import ConnectionPool.Proofs.Stretches

/-!
# Identities

What an entry says of its connection, it has from the entry that it follows, back to the one that
was made when the connection was opened. So all handles of one connection bear the same number and
tell the same instant of its opening, which is that of the stretch in which it was opened. No entry
was lent before its connection was opened. Entries are told apart by 64-bit words; as long as fewer
entries than words have been created, no two have the same, so a return takes off the active ones
nothing but its own lease, and a caller is never lent what is active already.
-/

set_option autoImplicit false

namespace ConnectionPool

structure Entry.Descends (now : Nat) (a e : Entry) : Prop where
  link : e.link = a.link
  createdAt : e.createdAt = a.createdAt
  checkoutAt : e.checkoutAt = a.checkoutAt ∨ e.checkoutAt = now

structure Entry.Arises (now opened opened' : Nat) (e : Entry) : Prop where
  opened_le : opened ≤ e.channel
  lt_opened : e.channel < opened'
  createdAt : e.createdAt = now
  checkoutAt : e.checkoutAt = now

namespace Entry.Descends

variable {now : Nat} {a e f : Entry}

theorem refl (now : Nat) (e : Entry) : Descends now e e := ⟨rfl, rfl, Or.inl rfl⟩

theorem trans (h : Descends now a e) (h' : Descends now e f) : Descends now a f where
  link := h'.link.trans h.link
  createdAt := h'.createdAt.trans h.createdAt
  checkoutAt := by
    rcases h'.checkoutAt with hc | hc
    · rw [hc]
      exact h.checkoutAt
    · exact Or.inr hc

theorem channel (h : Descends now a e) : e.channel = a.channel := congrArg Link.channel h.link

end Entry.Descends

structure Descent (now : Nat) (known : List Entry) (opened : Nat) (known' : List Entry)
    (opened' : Nat) : Prop where
  grows : opened ≤ opened'
  origin : ∀ e ∈ known', (∃ a ∈ known, a.Descends now e) ∨ e.Arises now opened opened'

namespace Descent

variable {now opened opened' opened'' : Nat} {known known' known'' : List Entry}

theorem of_descends (h : ∀ e ∈ known', ∃ a ∈ known, a.Descends now e) :
    Descent now known opened known' opened :=
  ⟨Nat.le_refl _, fun e he => Or.inl (h e he)⟩

theorem of_subset (h : known' ⊆ known) : Descent now known opened known' opened :=
  of_descends fun e he => ⟨e, h he, .refl now e⟩

theorem refl (now : Nat) (known : List Entry) (opened : Nat) :
    Descent now known opened known opened :=
  of_subset (List.Subset.refl known)

theorem trans (h : Descent now known opened known' opened')
    (h' : Descent now known' opened' known'' opened'') :
    Descent now known opened known'' opened'' where
  grows := Nat.le_trans h.grows h'.grows
  origin e he := by
    rcases h'.origin e he with ⟨a, ha, hd⟩ | hn
    · rcases h.origin a ha with ⟨b, hb, hd'⟩ | hn
      · exact Or.inl ⟨b, hb, hd'.trans hd⟩
      · right
        have hc := hd.channel
        refine ⟨hc ▸ hn.opened_le, ?_, hd.createdAt.trans hn.createdAt, ?_⟩
        · rw [hc]
          exact Nat.lt_of_lt_of_le hn.lt_opened h'.grows
        · exact hd.checkoutAt.elim (fun h => h.trans hn.checkoutAt) id
    · exact Or.inr ⟨Nat.le_trans h.grows hn.opened_le, hn.lt_opened, hn.createdAt, hn.checkoutAt⟩

theorem append (h : Descent now known opened known' opened') (others : List Entry) :
    Descent now (known ++ others) opened (known' ++ others) opened' where
  grows := h.grows
  origin e he := by
    rcases List.mem_append.mp he with he | he
    · rcases h.origin e he with ⟨a, ha, hd⟩ | hn
      · exact Or.inl ⟨a, List.mem_append_left others ha, hd⟩
      · exact Or.inr hn
    · exact Or.inl ⟨e, List.mem_append_right known he, .refl now e⟩

end Descent

/-- No known entry was lent before its connection was opened, nor later than now, and those of one
connection tell the same instant of its opening. -/
structure Dated (now : Nat) (known : List Entry) (opened : Nat) : Prop where
  channel_lt : ∀ e ∈ known, e.channel < opened
  createdAt_le : ∀ e ∈ known, e.createdAt ≤ e.checkoutAt
  checkoutAt_le : ∀ e ∈ known, e.checkoutAt ≤ now
  createdAt_eq : ∀ a ∈ known, ∀ e ∈ known, a.channel = e.channel → a.createdAt = e.createdAt

namespace Dated

variable {now now' opened opened' : Nat} {known known' : List Entry}

theorem descend (k : Dated now known opened) (hn : now ≤ now')
    (h : Descent now' known opened known' opened') : Dated now' known' opened' where
  channel_lt e he := by
    rcases h.origin e he with ⟨a, ha, hd⟩ | hnew
    · rw [hd.channel]
      exact Nat.lt_of_lt_of_le (k.channel_lt a ha) h.grows
    · exact hnew.lt_opened
  createdAt_le e he := by
    rcases h.origin e he with ⟨a, ha, hd⟩ | hnew
    · have hle := k.createdAt_le a ha
      rw [hd.createdAt]
      rcases hd.checkoutAt with hc | hc
      · rw [hc]
        exact hle
      · rw [hc]
        exact Nat.le_trans hle (Nat.le_trans (k.checkoutAt_le a ha) hn)
    · rw [hnew.createdAt, hnew.checkoutAt]
  checkoutAt_le e he := by
    rcases h.origin e he with ⟨a, ha, hd⟩ | hnew
    · rcases hd.checkoutAt with hc | hc
      · rw [hc]
        exact Nat.le_trans (k.checkoutAt_le a ha) hn
      · exact Nat.le_of_eq hc
    · exact Nat.le_of_eq hnew.checkoutAt
  createdAt_eq a ha e he hc := by
    rcases h.origin a ha with ⟨b, hb, hd⟩ | hnew
    · rcases h.origin e he with ⟨f, hf, hd'⟩ | hnew
      · rw [hd.createdAt, hd'.createdAt]
        exact k.createdAt_eq b hb f hf (by rw [← hd.channel, ← hd'.channel, hc])
      · -- a connection that was known before cannot have been opened since
        have hlt := k.channel_lt b hb
        have hle := hnew.opened_le
        rw [← hd.channel, hc] at hlt
        exact absurd hlt (Nat.not_lt_of_le hle)
    · rcases h.origin e he with ⟨f, hf, hd'⟩ | hnew'
      · have hlt := k.channel_lt f hf
        have hle := hnew.opened_le
        rw [← hd'.channel, ← hc] at hlt
        exact absurd hlt (Nat.not_lt_of_le hle)
      · rw [hnew.createdAt, hnew'.createdAt]

end Dated

theorem Books.Turn.descent {now caller : Nat} {m m' : Option Entry × Books}
    (h : Turn now caller m m') :
    Descent now (m.2.held m.1) m.2.record.opened (m'.2.held m'.1) m'.2.record.opened := by
  cases h with
  | pick b e rest hi =>
    refine .of_subset fun a ha => ?_
    simpa [held, hi] using ha
  | connect b hi hr =>
    refine ⟨Nat.le_succ _, fun e he => ?_⟩
    rcases List.mem_cons.mp he with rfl | he
    · exact Or.inr ⟨Nat.le_refl _, Nat.lt_succ_self _, rfl, rfl⟩
    · exact Or.inl ⟨e, he, .refl now e⟩
  | refuse b => exact .refl _ _ _
  | claim b oldest rest hi hf ha hv =>
    refine .of_descends fun e he => ?_
    rcases List.mem_cons.mp he with rfl | he
    · refine ⟨oldest, ?_, rfl, rfl, Or.inl rfl⟩
      simp [held, ha]
    · exact ⟨e, mem_held_of_rest ha he, .refl now e⟩
  | drop b oldest rest hi hf ha hv => exact .of_subset fun a hm => mem_held_of_rest ha hm
  | reject b e => exact .of_subset fun a hm => List.mem_cons_of_mem e hm

namespace Pool

variable {σ : Type} [Driver σ] {p q : Pool σ} {now caller : Nat}

theorem descent_turns {m m' : Option Entry × Pool σ} (h : Turns now caller m m') :
    Descent now (m.2.books.held m.1) m.2.backend.opened (m'.2.books.held m'.1)
      m'.2.backend.opened := by
  induction h with
  | refl => exact .refl _ _ _
  | tail _ ht ih => exact ih.trans (turn_books ht).descent

theorem descent_grant {r : Request} {e : Entry} {sound : Bool}
    (h : p.examine now r.caller e = (sound, q)) (others : List Entry) :
    Descent now (p.books.held (some e) ++ others) p.backend.opened
      ((q.grant now r e).2.books.held none ++ (others ++ [(q.grant now r e).1]))
      (q.grant now r e).2.backend.opened := by
  obtain ⟨-, -, hi, ha⟩ := grant_frame h
  have hb := books_grant now r e q
  have ho : (q.grant now r e).2.backend.opened = p.backend.opened :=
    (congrArg (fun b : Books => b.record.opened) hb).trans (opened_examine h)
  rw [ho]
  have hheld : (q.grant now r e).2.books.held none =
      p.idle ++ (p.active ++ [(q.grant now r e).1]) := by
    show (q.grant now r e).2.idle ++ (q.grant now r e).2.active = _
    rw [hi, ha]
  have hsplit (a : Entry)
      (hm : a ∈ (q.grant now r e).2.books.held none ++ (others ++ [(q.grant now r e).1])) :
      a = (q.grant now r e).1 ∨ a ∈ p.idle ++ p.active ++ others := by
    rw [hheld] at hm
    simp only [List.mem_append, List.mem_singleton] at hm ⊢
    tauto
  apply Descent.of_descends
  intro a hm
  rcases hsplit a hm with rfl | hm
  · exact ⟨e, List.mem_cons_self, rfl, rfl, Or.inr rfl⟩
  · exact ⟨a, List.mem_cons_of_mem e hm, .refl now a⟩

theorem active_of_granted {r : Request} {lent : Entry}
    (h : p.seek now r = (.granted lent, q)) : ∃ others, q.active = others ++ [lent] := by
  have he := seek_ends now r p
  rw [h] at he
  obtain ⟨e, p₁, p₂, -, hx, hg⟩ := he
  have ha := (grant_frame hx).2.2.2
  rw [← hg] at ha
  exact ⟨p₁.active, ha⟩

theorem descent_takeBack {i : Nat} {handle : Handle} {handles : List Handle}
    (hh : handles[i]? = some handle) :
    Descent now (p.books.held none ++ handles.map Handle.entry) p.backend.opened
      ((p.takeBack now handle.entry).2.books.held none ++
        (handles.set i { handle with released := true }).map Handle.entry)
      (p.takeBack now handle.entry).2.backend.opened := by
  have hm : handle.entry ∈ p.books.held none ++ handles.map Handle.entry :=
    List.mem_append_right _ (List.mem_map_of_mem (List.mem_of_getElem? hh))
  rw [map_released Handle.entry hh rfl]
  have hout : Descent now (p.books.held none ++ handles.map Handle.entry) p.backend.opened
      ((p.books.takeOut handle.entry).held none ++ handles.map Handle.entry) p.backend.opened :=
    .append (.of_subset (held_takeOut handle.entry p.books)) _
  refine p.takeBack_cases now handle.entry (motive := fun _ b =>
    Descent now (p.books.held none ++ handles.map Handle.entry) p.backend.opened
      (b.held none ++ handles.map Handle.entry) b.record.opened) ?retired ?kept ?closed
  case retired => exact fun _ => hout
  case closed => exact fun _ _ => hout
  case kept =>
    intro hv hk
    apply Descent.of_descends
    intro a ha
    have hsplit : a = handle.entry.successor p.nextEntry ∨
        a ∈ (p.books.takeOut handle.entry).held none ++ handles.map Handle.entry := by
      change a ∈ (p.idle ++ [handle.entry.successor p.nextEntry]) ++
        (p.books.takeOut handle.entry).active ++ handles.map Handle.entry at ha
      show _ ∨ a ∈ p.idle ++ (p.books.takeOut handle.entry).active ++ handles.map Handle.entry
      simp only [List.mem_append, List.mem_singleton] at ha ⊢
      tauto
    rcases hsplit with rfl | ha
    · exact ⟨handle.entry, hm, rfl, rfl, Or.inl rfl⟩
    · obtain ⟨b, hb, hd⟩ | hn := hout.origin a ha
      · exact ⟨b, hb, hd⟩
      · exact absurd hn.lt_opened (Nat.not_lt_of_le hn.opened_le)

theorem descent_reset (p : Pool σ) (others : List Entry) :
    Descent now (p.books.held none ++ others) p.backend.opened
      (p.reset.books.held none ++ others) p.reset.backend.opened := by
  obtain ⟨-, hi, ha, -, ho⟩ := reset_frame p
  have hnone : p.reset.books.held none = [] := by
    show p.reset.idle ++ p.reset.active = []
    rw [hi, ha]
    rfl
  have ho : p.reset.backend.opened = p.backend.opened := ho
  rw [hnone, ho]
  exact .of_subset (List.subset_append_right _ _)

end Pool

namespace Service

variable {σ : Type}

def known (hand : Option Entry) (s : Service σ) : List Entry :=
  s.pool.books.held hand ++ s.handles.map Handle.entry

def Descended (m m' : Option Entry × Service σ) : Prop :=
  m.2.now ≤ m'.2.now ∧ Descent m'.2.now (m.2.known m.1) m.2.pool.backend.opened (m'.2.known m'.1)
    m'.2.pool.backend.opened

theorem descended_of_same {s s' : Service σ} {hand : Option Entry} (hn : s.now ≤ s'.now)
    (hb : s'.pool.books.held hand = s.pool.books.held hand)
    (hh : s'.handles = s.handles) (ho : s'.pool.backend.opened = s.pool.backend.opened) :
    Descended (hand, s) (hand, s') := by
  have hk : s'.known hand = s.known hand := by rw [known, known, hb, hh]
  refine ⟨hn, ?_⟩
  show Descent s'.now (s.known hand) s.pool.backend.opened (s'.known hand) s'.pool.backend.opened
  rw [hk, ho]
  exact .refl _ _ _

variable [Driver σ]

theorem descended_move {m m' : Option Entry × Service σ} (h : Move m m') : Descended m m' := by
  cases h with
  | mark s | come s | leave s | awake s x | sleep s r hs hc | fail s r error =>
    exact descended_of_same (Nat.le_refl _) rfl rfl rfl
  | pass s now h => exact descended_of_same h rfl rfl rfl
  | countWait s r =>
    unfold countWait
    split <;> exact descended_of_same (Nat.le_refl _) rfl rfl rfl
  | turn s caller hand hand' q h =>
    exact ⟨Nat.le_refl _, (Pool.turn_books h).descent.append _⟩
  | grant s r e q h =>
    refine ⟨Nat.le_refl _, ?_⟩
    show Descent s.now _ _ (_ ++ (s.handles ++ [_]).map Handle.entry) _
    rw [List.map_append]
    exact Pool.descent_grant h (s.handles.map Handle.entry)
  | takeBack s i handle hh hr => exact ⟨Nat.le_refl _, Pool.descent_takeBack hh⟩

theorem descended_command (op : Op σ) {s s' : Service σ} (h : Command op s s') :
    Descended (none, s) (none, s') := by
  cases h with
  | meddle s f | issueToken s hl => exact descended_of_same (Nat.le_refl _) rfl rfl rfl
  | reset s hl | shutDown s hl hw =>
    exact ⟨Nat.le_refl _, Pool.descent_reset s.pool (s.handles.map Handle.entry)⟩
  | reconfigure s update hl =>
    refine ⟨Nat.le_refl _, ?_⟩
    exact s.pool.reconfigure_cases update (motive := fun q =>
      Descent s.now (s.known none) s.pool.backend.opened
        (q.books.held none ++ s.handles.map Handle.entry) q.backend.opened)
      (.refl _ _ _) (Pool.descent_reset { s.pool with config := update s.pool.config } _)

theorem descended_forward (s : Service σ) (i : Nat) (c : Call) :
    Descended (none, s) (none, (s.forward i c).2) := by
  obtain ⟨hs, hb⟩ := forward_cases s i c
  have hn : s.now ≤ (s.forward i c).2.now := by
    rw [hs]
  have hh : (s.forward i c).2.handles = s.handles := by
    rw [hs]
  rcases hb with hb | ⟨handle, error, -, -, -, -, hb⟩
  · exact descended_of_same hn (congrArg (Books.held none) hb) hh
      (congrArg (fun b : Books => b.record.opened) hb)
  · refine descended_of_same hn ?_ hh (congrArg (fun b : Books => b.record.opened) hb)
    rw [hb]
    rfl

def HasDates (hand : Option Entry) (s : Service σ) : Prop :=
  Dated s.now (s.known hand) s.pool.backend.opened

theorem dates_run (ops : List (Op σ)) {s : Service σ} (k : s.HasDates none) :
    (run ops s).HasDates none :=
  run_keeps HasDates (fun _ _ h k => k.descend (descended_move h).1 (descended_move h).2)
    (fun s i c _ k => k.descend (descended_forward s i c).1 (descended_forward s i c).2) ops
    (fun op _ _ _ h k => k.descend (descended_command op h).1 (descended_command op h).2) s k

/-- In a stretch of the operation on `s` the connection was opened, at this instant. -/
def Opens (op : Op σ) (s : Service σ) (channel instant : Nat) : Prop :=
  ∃ r t, Begins r t op s ∧ t.pool.backend.opened ≤ channel ∧
    channel < (t.pursue r).pool.backend.opened ∧ t.now = instant

omit [Driver σ] in
theorem block_frame (r : Request) (s : Service σ) :
    (s.block r).known none = s.known none ∧
      (s.block r).pool.backend.opened = s.pool.backend.opened := by
  unfold block countWait
  dsimp only
  split <;> split <;> exact ⟨rfl, rfl⟩

theorem descended_pursue (r : Request) (t : Service σ) :
    Descended (none, t) (none, t.pursue r) := by
  have he := Pool.seek_ends t.now r t.pool
  have hturns {m : Option Entry × Pool σ} (h : Pool.Turns t.now r.caller (none, t.pool) m) :
      Descent t.now (t.known none) t.pool.backend.opened
        (m.2.books.held m.1 ++ t.handles.map Handle.entry) m.2.backend.opened :=
    (Pool.descent_turns h).append _
  have hn : t.now ≤ (t.pursue r).now := Nat.le_of_eq (now_pursue r t).symm
  refine ⟨hn, ?_⟩
  dsimp only
  rw [now_pursue]
  unfold pursue
  generalize t.pool.seek t.now r = found at he
  obtain ⟨outcome, q⟩ := found
  cases outcome with
  | granted lent =>
    obtain ⟨e, p₁, p₂, ht, hx, hg⟩ := he
    obtain ⟨rfl, rfl⟩ := Prod.mk.inj hg
    show Descent t.now _ _ (_ ++ (t.handles ++ [_]).map Handle.entry) _
    rw [List.map_append]
    exact (hturns ht).trans (Pool.descent_grant hx _)
  | failed error => exact hturns he.1
  | saturated r' =>
    obtain ⟨hk, ho⟩ := block_frame r' { t with pool := q }
    dsimp only
    rw [hk, ho]
    exact hturns he.1

/-- What is known in `u` stems from what is known in `s`, or from a stretch of the operation. -/
def Rooted (op : Op σ) (s u : Service σ) : Prop :=
  ∀ e ∈ u.known none, (∃ a ∈ s.known none, a.link = e.link ∧ a.createdAt = e.createdAt) ∨
    Opens op s e.channel e.createdAt

theorem rooted_refl (op : Op σ) (s : Service σ) : Rooted op s s :=
  fun e he => Or.inl ⟨e, he, rfl, rfl⟩

theorem Rooted.descend {op : Op σ} {s u u' : Service σ} (k : Rooted op s u)
    (h : Descended (none, u) (none, u'))
    (ho : ∀ e ∈ u'.known none,
      e.Arises u'.now u.pool.backend.opened u'.pool.backend.opened →
        Opens op s e.channel e.createdAt) : Rooted op s u' := by
  intro e he
  rcases h.2.origin e he with ⟨a, ha, hd⟩ | hnew
  · rcases k a ha with ⟨b, hb, hl, hc⟩ | hopens
    · exact Or.inl ⟨b, hb, hl.trans hd.link.symm, hc.trans hd.createdAt.symm⟩
    · right
      rw [hd.channel, hd.createdAt]
      exact hopens
  · exact Or.inr (ho e he hnew)

theorem Rooted.keep {op : Op σ} {s u u' : Service σ} (k : Rooted op s u)
    (h : Descended (none, u) (none, u'))
    (ho : u'.pool.backend.opened = u.pool.backend.opened) : Rooted op s u' :=
  k.descend h fun _ _ hnew =>
    absurd (Nat.lt_of_le_of_lt hnew.opened_le hnew.lt_opened) (by rw [ho]; exact Nat.lt_irrefl _)

theorem Rooted.pursue {op : Op σ} {s t : Service σ} {r : Request} (k : Rooted op s t)
    (hb : Begins r t op s) : Rooted op s (t.pursue r) := by
  apply k.descend (descended_pursue r t)
  intro e he hnew
  refine ⟨r, t, hb, hnew.opened_le, hnew.lt_opened, ?_⟩
  rw [hnew.createdAt, now_pursue]

theorem rooted_kept (op : Op σ) (s : Service σ) : KeptThrough op s fun _ u => Rooted op s u where
  perm _ k := k
  rise _ k := k
  pass _ k := k
  awake k := k
  interrupt k := k
  pursue hb _ k := k.pursue hb
  first := rooted_refl op s
  come _ _ _ := rooted_refl op s
  takeBack {i handle} hh hr :=
    (rooted_refl op s).keep (descended_move (.takeBack s i handle hh hr))
      (Pool.opened_takeBack s.now handle.entry s.pool)
  mark _ := rooted_refl op s
  forward i c _ := by
    apply (rooted_refl op s).keep (descended_forward s i c)
    rcases (forward_cases s i c).2 with hb | ⟨handle, error, -, -, -, -, hb⟩ <;>
      exact congrArg (fun b : Books => b.record.opened) hb
  command s' h := by
    apply (rooted_refl op s).keep (descended_command op h)
    cases h with
    | meddle s f | issueToken s hl => rfl
    | reset s hl | shutDown s hl hw => exact (Pool.reset_frame s.pool).2.2.2.2
    | reconfigure s update hl =>
      exact s.pool.reconfigure_cases update
        (motive := fun q => q.backend.opened = s.pool.backend.opened) rfl
        (Pool.reset_frame { s.pool with config := update s.pool.config }).2.2.2.2

/-- What is known after a run stems from what was known before it, or from one of its stretches. -/
theorem rooted_run (ops : List (Op σ)) {s : Service σ} (hs : s.Steady) {e : Entry}
    (he : e ∈ (run ops s).known none) :
    (∃ a ∈ s.known none, a.link = e.link ∧ a.createdAt = e.createdAt) ∨
      ∃ before op after, ops = before ++ op :: after ∧
        Opens op (run before s) e.channel e.createdAt := by
  induction ops generalizing s with
  | nil => exact Or.inl ⟨e, he, rfl, rfl⟩
  | cons op rest ih =>
    rcases ih (steady_step op hs) he with ⟨a, ha, hl, hc⟩ | ⟨before, op', after, rfl, ho⟩
    · rcases (rooted_kept op s).step hs a ha with ⟨b, hb, hl', hc'⟩ | ho
      · exact Or.inl ⟨b, hb, hl'.trans hl, hc'.trans hc⟩
      · refine Or.inr ⟨[], op, rest, rfl, ?_⟩
        have hchannel : e.channel = a.channel := congrArg Link.channel hl.symm
        rw [hchannel, ← hc]
        exact ho
    · exact Or.inr ⟨op :: before, op', after, rfl, ho⟩

end Service

def Entry.word (e : Entry) : UInt64 := UInt64.ofNat e.id

def Link.word (link : Link) : UInt64 := UInt64.ofNat link.number

theorem ofNat_eq_iff {m n : Nat} (hm : m < UInt64.size) (hn : n < UInt64.size) :
    UInt64.ofNat m = UInt64.ofNat n ↔ m = n := by
  rw [← UInt64.toNat_inj, UInt64.toNat_ofNat_of_lt' hm, UInt64.toNat_ofNat_of_lt' hn]

theorem nodup_words {numbers : List Nat} (hn : numbers.Nodup)
    (hlt : ∀ n ∈ numbers, n < UInt64.size) : (numbers.map UInt64.ofNat).Nodup :=
  hn.map_on fun m hm n hn h => (ofNat_eq_iff (hlt m hm) (hlt n hn)).mp h

namespace Service

variable {σ : Type} [Driver σ] {s : Service σ}

/-- The words of entries and of links tell apart what they are to tell apart. -/
structure Identified (s : Service σ) : Prop where
  words_nodup : ((creations s.pool.backend.journal).map fun x => x.2.word).Nodup
  known_created : (s.known none).map Entry.tag ⊆
    (creations s.pool.backend.journal).map fun x => x.2.tag
  /-- A return looks for its word, and takes off its own lease or nothing. -/
  returned : ∀ h ∈ s.handles,
    (s.pool.takeBack s.now h.entry).2.active =
        s.pool.active.eraseP (fun a => a.word == h.entry.word) ∧
      s.pool.active.eraseP (fun a => a.word == h.entry.word) = s.pool.active.erase h.entry
  /-- Links are numbered from one on in the order in which their connections were opened. -/
  links : (creations s.pool.backend.journal).filterMap openedLink? =
    (openings s.pool.backend.journal).map fun channel => ⟨channel + 1, channel⟩
  openings_eq : openings s.pool.backend.journal = (List.range s.pool.backend.opened).reverse
  link_word : ∀ h ∈ s.handles, h.entry.link.word.toNat = h.entry.channel + 1
  link_word_eq_iff : ∀ h ∈ s.handles, ∀ h' ∈ s.handles,
    h.entry.link.word = h'.entry.link.word ↔ h.entry.channel = h'.entry.channel
  createdAt_eq : ∀ h ∈ s.handles, ∀ h' ∈ s.handles, h.entry.channel = h'.entry.channel →
    h.entry.createdAt = h'.entry.createdAt
  createdAt_le : ∀ h ∈ s.handles, h.entry.createdAt ≤ h.entry.checkoutAt

omit [Driver σ] in
theorem HasNumbers.lt_size (k : HasNumbers none s)
    (hc : (creations s.pool.backend.journal).length < UInt64.size) {id : Nat}
    (h : id < s.pool.nextEntry) : id < UInt64.size := by
  have hn : s.pool.nextEntry = (creations s.pool.backend.journal).length + 1 := k.numbered.nextEntry
  rw [hn] at h
  exact Nat.lt_of_le_of_lt (Nat.le_of_lt_succ h) hc

omit [Driver σ] in
theorem HasNumbers.opened_le (k : HasNumbers none s) :
    s.pool.backend.opened ≤ (creations s.pool.backend.journal).length := by
  have hl : (creations s.pool.backend.journal).filterMap openedLink? = _ := k.numbered.links
  calc
    s.pool.backend.opened = ((creations s.pool.backend.journal).filterMap openedLink?).length := by
      rw [hl, List.length_reverse, List.length_map, List.length_range]
    _ ≤ (creations s.pool.backend.journal).length := List.length_filterMap_le _ _

theorem identified_of_numbers (k : HasNumbers none s) (hq : s.pool.backend.InSequence)
    (kd : s.HasDates none) (hc : (creations s.pool.backend.journal).length < UInt64.size) :
    s.Identified := by
  have v : Provenance none s.pool.books s.handles := k.provenance
  have hids : (creations s.pool.backend.journal).map (fun x => x.2.id) = _ := k.numbered.ids
  have hword : ∀ h ∈ s.handles, h.entry.link.word.toNat = h.entry.channel + 1 := by
    intro h hm
    have hlt : h.entry.channel < s.pool.backend.opened := v.handle_channel_lt h hm
    have hnumber := v.handle_number h hm
    rw [← hnumber]
    apply UInt64.toNat_ofNat_of_lt'
    rw [hnumber]
    exact Nat.lt_of_le_of_lt (Nat.le_trans hlt k.opened_le) hc
  have hknown {h : Handle} (hm : h ∈ s.handles) : h.entry ∈ s.known none :=
    List.mem_append_right _ (List.mem_map_of_mem hm)
  constructor
  case words_nodup =>
    show ((creations s.pool.backend.journal).map (UInt64.ofNat ∘ fun x => x.2.id)).Nodup
    rw [← List.map_map, hids]
    refine nodup_words (List.nodup_reverse.mpr List.nodup_range') fun id hm => ?_
    rw [List.mem_reverse, List.mem_range'_1] at hm
    exact k.lt_size hc (k.numbered.nextEntry ▸ Nat.add_comm 1 _ ▸ hm.2)
  case known_created =>
    rw [known, List.map_append, List.map_map]
    exact List.append_subset.mpr ⟨k.numbered.recorded, k.given⟩
  case returned =>
    intro h hm
    have hsame : s.pool.active.eraseP (fun a => a.word == h.entry.word) =
        s.pool.active.eraseP fun a => a.id == h.entry.id := by
      apply eraseP_congr_mem
      intro a ha
      have ha := k.lt_size hc (v.distinct.id_lt a (List.mem_append_right s.pool.idle ha))
      have hh := k.lt_size hc (v.handle_id_lt h hm)
      exact decide_eq_decide.mpr (ofNat_eq_iff ha hh)
    exact ⟨(Pool.takeBack_frame s.now h.entry s.pool).2.trans hsame.symm,
      hsame.trans (v.erase_lease hm)⟩
  case links =>
    rw [hq, List.map_reverse]
    exact k.numbered.links
  case openings_eq => exact hq
  case link_word => exact hword
  case link_word_eq_iff =>
    intro h hm h' hm'
    rw [← UInt64.toNat_inj, hword h hm, hword h' hm', Nat.add_right_cancel_iff]
  case createdAt_eq =>
    exact fun h hm h' hm' => kd.createdAt_eq h.entry (hknown hm) h'.entry (hknown hm')
  case createdAt_le => exact fun h hm => kd.createdAt_le h.entry (hknown hm)

/-- In a stretch of the operation on `s` the entry joins the active ones of `q`. -/
def Activates (op : Op σ) (s : Service σ) (lent : Entry) (q : Pool σ) : Prop :=
  ∃ r t, Begins r t op s ∧ t.pool.seek t.now r = (.granted lent, q)

theorem activates_new {op : Op σ} {lent : Entry} {q : Pool σ} (k : HasNumbers none s)
    (h : Activates op s lent q) (hc : (creations q.backend.journal).length < UInt64.size) :
    ∃ others, q.active = others ++ [lent] ∧ ∀ a ∈ others, a.word ≠ lent.word := by
  obtain ⟨r, t, hb, hg⟩ := h
  obtain ⟨others, hactive⟩ := Pool.active_of_granted hg
  refine ⟨others, hactive, fun a ha hw => ?_⟩
  -- when the stretch is over the ledger is in order again
  have hu : t.pursue r = { t with pool := q }.settle r (.ok lent) := by
    unfold pursue
    rw [hg]
  have ku := numbers_moves (pursue_moves t r) (numbers_moves (begins_moves hb) k)
  rw [hu] at ku
  have l := ku.provenance.ledger
  have hlt {x : Entry} (hm : x ∈ q.active) : x.id < UInt64.size :=
    ku.lt_size hc (l.distinct.id_lt x (List.mem_append_right q.idle hm))
  have hn : (q.active.map Entry.id).Nodup := l.active_ids_nodup
  rw [hactive, List.map_append] at hn
  rw [hactive] at hlt
  have hid : a.id = lent.id := (ofNat_eq_iff (hlt (List.mem_append_left _ ha))
    (hlt (List.mem_append_right _ List.mem_cons_self))).mp hw
  exact List.disjoint_of_nodup_append hn (List.mem_map_of_mem ha)
    (hid ▸ List.mem_map_of_mem List.mem_cons_self)

/-- After every run that created fewer entries than there are words, entries and connections are
told apart; every handle tells the instant at which its connection was opened in the run; and what
joins the active ones next is none of them. -/
theorem identities_run (driver : σ) (config : Config) (pool : Pool σ)
    (h : Pool.create driver config = .ok pool) (ops : List (Op σ))
    (hc : (creations (run ops (start pool)).pool.backend.journal).length < UInt64.size) :
    (run ops (start pool)).Identified ∧
      (∀ handle ∈ (run ops (start pool)).handles, ∃ before op after,
        ops = before ++ op :: after ∧
          Opens op (run before (start pool)) handle.entry.channel handle.entry.createdAt) ∧
      ∀ op lent q, Activates op (run ops (start pool)) lent q →
        (creations q.backend.journal).length < UInt64.size →
          ∃ others, q.active = others ++ [lent] ∧ ∀ a ∈ others, a.word ≠ lent.word := by
  have k := numbers_run ops (numbers_start driver config pool h)
  have hq := inSequence_run ops _ (provenance_start driver config pool h)
    (inSequence_start driver config pool h)
  have hnone : (start pool).known none = [] := by
    rw [Pool.of_create driver config pool h]
    rfl
  have kd : (run ops (start pool)).HasDates none := by
    apply dates_run
    unfold HasDates
    rw [hnone]
    exact ⟨by simp, by simp, by simp, by simp⟩
  refine ⟨identified_of_numbers k hq kd hc, fun handle hm => ?_, fun op lent q => activates_new k⟩
  have hknown : handle.entry ∈ (run ops (start pool)).known none :=
    List.mem_append_right _ (List.mem_map_of_mem hm)
  refine (rooted_run ops ?_ hknown).resolve_left ?_
  · exact fit_run driver config pool h []
  · rw [hnone]
    rintro ⟨a, ha, -⟩
    exact absurd ha List.not_mem_nil

def relentThenTakenOver : List (Op Scripted) :=
  [.acquire .plain, .release 0, .acquire .plain, .advance (Nanos.ofSeconds 21), .acquire .plain]

theorem run_relentThenTakenOver :
    run relentThenTakenOver (start (Pool.unused ({} : Scripted) Config.single)) =
      step (.acquire .plain)
        { run (relentThenTakenOver.take 3) (start (Pool.unused ({} : Scripted) Config.single)) with
          now := Nanos.ofSeconds 21 } :=
  run_advance_undue (relentThenTakenOver.take 3) [.acquire .plain] _ (Nanos.ofSeconds 21)
    (Nanos.ofSeconds 21) (by decide +kernel) (by decide +kernel)

/-- Its three holders have entries of their own, and the same connection of the same age. -/
theorem identities_relentThenTakenOver :
    let s := run relentThenTakenOver (start (Pool.unused ({} : Scripted) Config.single))
    Pool.create ({} : Scripted) Config.single = .ok (Pool.unused {} Config.single) ∧
      (creations s.pool.backend.journal).length < UInt64.size ∧
      s.handles.map (fun h => (h.entry.word, h.entry.link.word, h.entry.createdAt)) =
        [(1, 1, 0), (2, 1, 0), (3, 1, 0)] ∧
      s.handles.map (fun h => h.entry.checkoutAt) = [0, 0, Nanos.ofSeconds 21] ∧
      s.Identified ∧
      (∀ handle ∈ s.handles, ∃ before op after, relentThenTakenOver = before ++ op :: after ∧
        Opens op (run before (start (Pool.unused ({} : Scripted) Config.single)))
          handle.entry.channel handle.entry.createdAt) ∧
      ∀ op lent q, Activates op s lent q →
        (creations q.backend.journal).length < UInt64.size →
          ∃ others, q.active = others ++ [lent] ∧ ∀ a ∈ others, a.word ≠ lent.word := by
  intro s
  have hc : (creations s.pool.backend.journal).length < UInt64.size := by
    unfold s
    rw [run_relentThenTakenOver]
    decide +kernel
  refine ⟨rfl, hc, ?_, ?_,
    identities_run ({} : Scripted) Config.single (Pool.unused {} Config.single) rfl
      relentThenTakenOver hc⟩
  · unfold s
    rw [run_relentThenTakenOver]
    decide +kernel
  · unfold s
    rw [run_relentThenTakenOver]
    decide +kernel

end Service

end ConnectionPool
