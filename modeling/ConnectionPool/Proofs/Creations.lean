import ConnectionPool.Proofs.Probing
import Mathlib.Data.List.Range

/-!
# Creations

An entry is created when a connection is opened, when a caller takes over an overdue lease, and when
a returned connection goes to the idle set. The journal shows every creation: of an idle entry when
it is shelved, and of the others when the caller examines the candidate that it has in hand, which
comes from the idle set only if nothing was opened or claimed right before. Entries and links get
the numbers 1, 2, 3, .. in the order in which they are created, whatever the driver answers.
-/

set_option autoImplicit false

namespace ConnectionPool

inductive Making where
  | opened
  | claimed
  | recycled
  deriving DecidableEq, Repr

/-- How the candidate in a caller's hand came about, by what happened last apart from calls; none if
it was taken from the idle set. -/
def making? : List Event → Option Making
  | .call _ _ _ :: older => making? older
  | .connect _ (.ok _) :: _ => some .opened
  | .claimed _ _ _ :: _ => some .claimed
  | _ => none

def creations : List Event → List (Making × Entry)
  | .examined _ e _ _ _ :: older => (making? older).toList.map (·, e) ++ creations older
  | .shelved e :: older => (.recycled, e) :: creations older
  | _ :: older => creations older
  | [] => []

def created : Option Entry → List Event → List (Making × Entry)
  | none, journal => creations journal
  | some e, journal => (making? journal).toList.map (·, e) ++ creations journal

/-- What an entry keeps when it is lent: its number and its link. -/
def Entry.tag (e : Entry) : Nat × Link := (e.id, e.link)

def openedLink? (x : Making × Entry) : Option Link :=
  if x.1 = .opened then some x.2.link else none

def Event.isCreation : Event → Bool
  | examined _ _ _ _ _ | shelved _ => true
  | connect _ _ | call _ _ _ | claimed _ _ _ | granted _ _ | returned _ _ _ => false
  | drained _ _ | slept _ | woke _ _ | settled _ _ _ => false

theorem Event.isCreation_of_called (event : Event) (channel : Nat)
    (h : event.called? = some channel) : event.isCreation = false := by
  cases event <;> simp_all [called?, isCreation]

theorem creations_append {newer : List Event} (h : ∀ event ∈ newer, event.isCreation = false)
    (older : List Event) : creations (newer ++ older) = creations older := by
  induction newer with
  | nil => rfl
  | cons event rest ih =>
    have hr := ih fun other hm => h other (List.mem_cons_of_mem event hm)
    have he := h event List.mem_cons_self
    cases event with
    | examined | shelved => exact Bool.noConfusion he
    | _ => exact hr

theorem creations_subset {older journal : List Event} (h : older <:+ journal) :
    creations older ⊆ creations journal := by
  obtain ⟨newer, rfl⟩ := h
  induction newer with
  | nil => exact List.Subset.refl _
  | cons event rest ih =>
    cases event with
    | examined => exact List.Subset.trans ih (List.subset_append_right _ _)
    | shelved => exact List.Subset.trans ih (List.subset_cons_self _ _)
    | _ => exact ih

namespace Backend

variable {σ : Type} {b b' : Backend σ}

theorem creations_adds (h : Adds (fun event => event.isCreation = false) b b') :
    creations b'.journal = creations b.journal := by
  obtain ⟨newer, hj, hn⟩ := h
  rw [hj, creations_append hn]

namespace Talk

variable {channel : Nat} {talk : List Event}

theorem creations_eq (t : Talk channel talk b b') : creations b'.journal = creations b.journal :=
  creations_adds (.of_talk t fun event => event.isCreation_of_called channel)

theorem making?_eq (t : Talk channel talk b b') : making? b'.journal = making? b.journal := by
  rw [t.journal]
  have hc := t.called
  clear t
  induction talk with
  | nil => rfl
  | cons event rest ih =>
    have hr := ih fun other hm => hc other (List.mem_cons_of_mem event hm)
    have he := hc event List.mem_cons_self
    cases event with
    | call => exact hr
    | _ => exact absurd he nofun

end Talk

end Backend

namespace Pool

variable {σ : Type}

/-- Entries and links have been numbered from one on, in the order in which they were created. -/
structure Numbered (hand : Option Entry) (p : Pool σ) : Prop where
  ids : (created hand p.backend.journal).map (fun x => x.2.id) =
    (List.range' 1 (created hand p.backend.journal).length).reverse
  nextEntry : p.nextEntry = (created hand p.backend.journal).length + 1
  links : (created hand p.backend.journal).filterMap openedLink? =
    ((List.range p.backend.opened).map fun k => ⟨k + 1, k⟩).reverse
  numbers : ∀ x ∈ created hand p.backend.journal, x.2.link.number = x.2.channel + 1
  recorded : (p.books.held hand).map Entry.tag ⊆
    (created hand p.backend.journal).map fun x => x.2.tag
  emptied : hand = none → making? p.backend.journal ≠ none → p.idle = []

namespace Numbered

variable {hand hand' : Option Entry} {p q : Pool σ}

theorem same (k : Numbered hand p)
    (hc : created hand' q.backend.journal = created hand p.backend.journal)
    (hn : q.nextEntry = p.nextEntry) (ho : q.backend.opened = p.backend.opened)
    (hh : (q.books.held hand').map Entry.tag ⊆ (p.books.held hand).map Entry.tag)
    (he : hand' = none → making? q.backend.journal ≠ none → q.idle = []) : Numbered hand' q where
  ids := by rw [hc, k.ids]
  nextEntry := by rw [hc, hn, k.nextEntry]
  links := by rw [hc, ho, k.links]
  numbers := hc ▸ k.numbers
  recorded := by
    rw [hc]
    exact List.Subset.trans hh k.recorded
  emptied := he

theorem add (k : Numbered none p) (making : Making) (e : Entry)
    (hc : created hand' q.backend.journal = (making, e) :: creations p.backend.journal)
    (hi : e.id = p.nextEntry) (hn : q.nextEntry = p.nextEntry + 1)
    (hl : e.link.number = e.channel + 1)
    (ho : making = .opened ∧ e.channel = p.backend.opened ∧
        q.backend.opened = p.backend.opened + 1 ∨
      making ≠ .opened ∧ q.backend.opened = p.backend.opened)
    (hh : (q.books.held hand').map Entry.tag ⊆ e.tag :: (p.books.held none).map Entry.tag)
    (he : hand' = none → making? q.backend.journal ≠ none → q.idle = []) : Numbered hand' q where
  ids := by
    have hids : (creations p.backend.journal).map (fun x => x.2.id) = _ := k.ids
    have hnext : p.nextEntry = (creations p.backend.journal).length + 1 := k.nextEntry
    rw [hc, List.map_cons, List.length_cons, hids, hi, hnext, List.range'_concat,
      List.reverse_append, Nat.one_mul, Nat.add_comm 1]
    rfl
  nextEntry := by
    rw [hc, hn, k.nextEntry, List.length_cons]
    rfl
  links := by
    have hlinks : (creations p.backend.journal).filterMap openedLink? = _ := k.links
    rw [hc, List.filterMap_cons, hlinks]
    rcases ho with ⟨rfl, hch, ho⟩ | ⟨hm, ho⟩
    · have hlink : e.link = ⟨p.backend.opened + 1, p.backend.opened⟩ := by
        rw [← hch, ← hl]
        rfl
      rw [openedLink?, if_pos rfl, ho, List.range_succ, List.map_append, List.reverse_append, hlink]
      rfl
    · rw [openedLink?, if_neg hm, ho]
  numbers x hx := by
    rw [hc] at hx
    rcases List.mem_cons.mp hx with rfl | hx
    · exact hl
    · exact k.numbers x hx
  recorded := by
    rw [hc]
    exact List.Subset.trans hh (List.cons_subset_cons _ k.recorded)
  emptied := he

end Numbered

variable [Driver σ] {p q : Pool σ} {handles : List Handle} {now caller : Nat}

theorem creations_examine {e : Entry} {sound : Bool} (h : p.examine now caller e = (sound, q)) :
    creations q.backend.journal = created (some e) p.backend.journal ∧
      making? q.backend.journal = none := by
  obtain ⟨query, probed, hp, hb⟩ := backend_examine now caller e sound p q h
  obtain ⟨talk, t, -⟩ := Backend.talk_probe e.channel query p.backend
  rw [hp] at t
  rw [hb]
  constructor
  · show (making? probed.journal).toList.map (·, e) ++ creations probed.journal = _
    rw [t.making?_eq, t.creations_eq]
    rfl
  · rfl

theorem numbered_turn {m m' : Option Entry × Pool σ} (h : Turn now caller m m')
    (v : Provenance m.1 m.2.books handles) (k : Numbered m.1 m.2) : Numbered m'.1 m'.2 := by
  cases h with
  | pick p e rest hi =>
    have hm : making? p.backend.journal = none := by
      by_contra hm
      exact absurd (hi.symm.trans (k.emptied rfl hm)) nofun
    refine k.same ?_ rfl rfl ?_ nofun
    · show (making? p.backend.journal).toList.map (·, e) ++ creations p.backend.journal = _
      rw [hm]
      rfl
    · show (e :: rest ++ p.active).map Entry.tag ⊆ (p.idle ++ p.active).map Entry.tag
      rw [hi]
      exact List.Subset.refl _
  | connect p q e hi hr h =>
    have hc := backend_openLink_found now p q e h
    obtain ⟨hj, ho⟩ := Backend.connect_ok _ _ _ _ hc
    obtain ⟨rfl, hb⟩ := openLink_found now p q e h
    have hlink : p.nextLink = p.backend.opened + 1 := v.next_link
    refine k.add .opened (Entry.fresh p.nextEntry ⟨p.nextLink, p.backend.opened⟩ now) ?_ rfl
      (congrArg Books.nextEntry hb) hlink (Or.inl ⟨rfl, rfl, ho⟩) ?_ nofun
    · show created (some (Entry.fresh p.nextEntry ⟨p.nextLink, p.backend.opened⟩ now))
        q.backend.journal = _
      rw [hj]
      rfl
    · rw [hb]
      exact List.Subset.refl _
  | refuse p q error hi hr h =>
    obtain ⟨hj, ho⟩ := Backend.connect_error _ _ _ _ (backend_openLink_refused now p q error h)
    have hb := openLink_refused now p q error h
    dsimp only
    refine k.same ?_ (congrArg Books.nextEntry hb) ho ?_ ?_
    · rw [hj]
      rfl
    · rw [hb]
      exact List.Subset.refl _
    · rw [hj]
      exact fun _ hm => absurd rfl hm
  | claim p oldest rest hi hr ha ho hv =>
    have hm : oldest ∈ p.active := by
      rw [ha]
      exact List.mem_cons_self
    obtain ⟨talk, t, -⟩ := Backend.talk_undo oldest.channel
      (p.backend.note (.claimed caller oldest (oldest.heldFor now)))
    rw [← backend_takeOver now caller oldest rest p] at t
    have hb := books_takeOver now caller oldest rest p
    refine k.add .claimed (oldest.successor p.nextEntry) ?_ rfl (congrArg Books.nextEntry hb)
      (v.held_number oldest (List.mem_append_right p.idle hm)) (Or.inr ⟨nofun, t.opened⟩) ?_ nofun
    · show (making? _).toList.map _ ++ creations _ = _
      rw [t.making?_eq, t.creations_eq]
      rfl
    · rw [hb]
      exact List.cons_subset_cons _
        (List.map_subset _ fun a => Books.mem_held_of_rest (b := p.books) ha)
  | drop p oldest rest hi hr ha ho hv =>
    obtain ⟨talk, t, -⟩ :=
      Backend.talk_close oldest.channel (p.unlend now caller oldest rest).backend
    have hb : ((p.unlend now caller oldest rest).close oldest).books =
        (p.unlend now caller oldest rest).books := books_close oldest _
    refine k.same ?_ (congrArg Books.nextEntry hb) t.opened ?_ fun _ _ => ?_
    · exact t.creations_eq
    · dsimp only
      rw [hb, books_unlend]
      exact List.map_subset _ fun a => Books.mem_held_of_rest (b := p.books) ha
    · exact (congrArg Books.idle hb).trans hi
  | reject p q e h =>
    obtain ⟨hc, hm⟩ := creations_examine h
    obtain ⟨talk, t, -⟩ := Backend.talk_close e.channel q.backend
    have hr : (q.reject e).backend = q.backend.close e.channel := backend_discard e _
    rw [← hr] at t
    have hx := examine_books now caller e false p q h
    refine k.same (t.creations_eq.trans hc) ?_ (t.opened.trans (opened_examine h)) ?_ ?_
    · exact (congrArg Books.nextEntry (books_reject e q)).trans (congrArg Books.nextEntry hx)
    · rw [books_reject, hx]
      exact List.map_subset _ (List.subset_cons_self e _)
    · exact fun _ hmade => absurd (t.making?_eq.trans hm) hmade

theorem numbered_grant {r : Request} {e : Entry} (h : p.examine now r.caller e = (true, q))
    (k : Numbered (some e) p) : Numbered none (q.grant now r e).2 := by
  obtain ⟨hc, -⟩ := creations_examine h
  obtain ⟨talk, t, -⟩ := Backend.talk_undo e.channel q.backend
  have hx := examine_books now r.caller e true p q h
  refine k.same (t.creations_eq.trans hc) ?_ (t.opened.trans (opened_examine h)) ?_ ?_
  · exact (congrArg Books.nextEntry (books_grant now r e q)).trans (congrArg Books.nextEntry hx)
  · obtain ⟨-, -, hi, ha⟩ := grant_frame h
    show ((q.grant now r e).2.idle ++ (q.grant now r e).2.active).map Entry.tag ⊆
      e.tag :: (p.idle ++ p.active).map Entry.tag
    rw [hi, ha, ← List.append_assoc, List.map_append]
    exact List.append_subset.mpr
      ⟨List.subset_cons_self _ _, List.cons_subset_cons _ (List.nil_subset _)⟩
  · exact fun _ hmade => absurd rfl hmade

theorem numbered_takeBack {e : Entry} (hn : e.link.number = e.channel + 1) (k : Numbered none p) :
    Numbered none (p.takeBack now e).2 := by
  have hb := backend_takeBack now e p
  -- where nothing is shelved, the return and calls are all that is written
  have hkeep {q : Pool σ} {talk : List Event}
      (t : Backend.Talk e.channel talk (p.backend.note (p.returnEvent e)) q.backend)
      (hn : q.nextEntry = p.nextEntry)
      (hh : q.books.held none ⊆ p.books.held none) : Numbered none q :=
    k.same t.creations_eq hn t.opened (List.map_subset _ hh) fun _ hm => absurd t.making?_eq hm
  have hout : (p.books.takeOut e).held none ⊆ p.books.held none := held_takeOut e p.books
  by_cases hv : p.status e.id = .valid
  · rw [hv] at hb
    by_cases hk : p.keeps e
    · obtain ⟨-, hbooks⟩ := takeBack_kept now e p hv hk
      obtain ⟨talk, t, -⟩ := Backend.talk_undo e.channel (p.backend.note (p.returnEvent e))
      simp only [if_pos hk] at hb
      refine k.add .recycled (e.successor p.nextEntry) ?_ rfl (congrArg Books.nextEntry hbooks) hn
        (Or.inr ⟨nofun, ?_⟩) ?_ fun _ hm => ?_
      · rw [hb]
        exact congrArg _ t.creations_eq
      · rw [hb]
        exact t.opened
      · rw [hbooks]
        show (p.idle ++ [e.successor p.nextEntry] ++ (p.books.takeOut e).active).map Entry.tag ⊆
          (e.successor p.nextEntry).tag :: (p.idle ++ p.active).map Entry.tag
        intro tag ht
        simp only [List.map_append, List.map_cons, List.map_nil, List.mem_append, List.mem_cons,
          List.not_mem_nil, or_false] at ht ⊢
        have ha := List.map_subset Entry.tag (List.eraseP_subset (p := fun a => a.id == e.id)
          (l := p.active)) (a := tag)
        tauto
      · rw [hb] at hm
        exact absurd rfl hm
    · obtain ⟨-, hbooks⟩ := takeBack_closed now e p hv hk
      obtain ⟨talk, t, -⟩ := Backend.talk_close e.channel (p.backend.note (p.returnEvent e))
      simp only [if_neg hk] at hb
      exact hkeep (hb ▸ t) (congrArg Books.nextEntry hbooks) (hbooks ▸ hout)
  · obtain ⟨-, hbooks⟩ := takeBack_retired now e p hv
    cases hs : p.status e.id with
    | valid => exact absurd hs hv
    | superseded =>
      rw [hs] at hb
      have t : Backend.Talk e.channel [] (p.backend.note (p.returnEvent e))
          (p.takeBack now e).2.backend := by
        rw [hb]
        exact .refl _ _
      exact hkeep t (congrArg Books.nextEntry hbooks) (hbooks ▸ hout)
    | invalidated =>
      rw [hs] at hb
      dsimp only at hb
      obtain ⟨talk, t, -⟩ := Backend.talk_close e.channel (p.backend.note (p.returnEvent e))
      rw [← hb] at t
      exact hkeep t (congrArg Books.nextEntry hbooks) (hbooks ▸ hout)

theorem creations_drainAll (lent : Bool) (entries : List Entry) (p : Pool σ) :
    creations (entries.foldr (drain lent) p).backend.journal = creations p.backend.journal := by
  induction entries with
  | nil => rfl
  | cons e rest ih =>
    obtain ⟨talk, t, -⟩ := Backend.talk_close e.channel
      ((rest.foldr (drain lent) p).backend.note (.drained e lent))
    have hb : ((e :: rest).foldr (drain lent) p).backend =
        ((rest.foldr (drain lent) p).backend.note (.drained e lent)).close e.channel :=
      backend_discard e ((rest.foldr (drain lent) p).note (.drained e lent))
    rw [hb, t.creations_eq]
    exact ih

theorem numbered_reset (k : Numbered none p) : Numbered none p.reset := by
  obtain ⟨-, hi, ha, hn, ho⟩ := reset_frame p
  refine k.same ?_ hn ho ?_ fun _ _ => hi
  · exact (creations_drainAll false _ _).trans (creations_drainAll true _ _)
  · show (p.reset.idle ++ p.reset.active).map Entry.tag ⊆ _
    rw [hi, ha]
    exact List.nil_subset _

end Pool

namespace Service

open Pool (Numbered)

variable {σ : Type}

structure HasNumbers (hand : Option Entry) (s : Service σ) : Prop where
  provenance : HasProvenance hand s
  numbered : Numbered hand s.pool
  given : s.handles.map (fun h => h.entry.tag) ⊆
    (creations s.pool.backend.journal).map fun x => x.2.tag

theorem numbers_start (driver : σ) (config : Config) (pool : Pool σ)
    (h : Pool.create driver config = .ok pool) : HasNumbers none (start pool) := by
  refine ⟨provenance_start driver config pool h, ?_, List.nil_subset _⟩
  rw [Pool.of_create driver config pool h]
  exact ⟨rfl, rfl, rfl, fun _ h => absurd h List.not_mem_nil, List.nil_subset _,
    fun _ hm => absurd rfl hm⟩

variable [Driver σ]

theorem numbered_move {m m' : Option Entry × Service σ} (h : Move m m')
    (v : HasProvenance m.1 m.2) (k : Numbered m.1 m.2.pool) : Numbered m'.1 m'.2.pool := by
  cases h with
  | mark s | come s | pass s | leave s => exact k
  | awake s x | sleep s r hs hc | fail s r error =>
    exact k.same rfl rfl rfl (List.Subset.refl _) fun _ hm => absurd rfl hm
  | countWait s r =>
    unfold countWait
    split
    · exact k
    · exact k.same rfl rfl rfl (List.Subset.refl _) k.emptied
  | turn s caller hand hand' q h => exact Pool.numbered_turn h v k
  | grant s r e q h =>
    exact (Pool.numbered_grant h k).same rfl rfl rfl (List.Subset.refl _)
      fun _ hm => absurd rfl hm
  | takeBack s i handle hh hr =>
    exact Pool.numbered_takeBack (v.handle_number handle (List.mem_of_getElem? hh)) k

theorem numbers_move (m m' : Option Entry × Service σ) (h : Move m m')
    (k : HasNumbers m.1 m.2) : HasNumbers m'.1 m'.2 := by
  have kn := numbered_move h k.provenance k.numbered
  refine ⟨provenance_move m m' h k.provenance, kn, ?_⟩
  have hgiven := List.Subset.trans k.given
    (List.map_subset _ (creations_subset (journal_move m m' h k.provenance)))
  have hkeep (hh : m'.2.handles.map (fun h => h.entry.tag) =
      m.2.handles.map fun h => h.entry.tag) :
      m'.2.handles.map (fun h => h.entry.tag) ⊆ _ := hh ▸ hgiven
  cases h with
  | mark | come | pass | leave | awake | sleep | fail | turn => exact hkeep rfl
  | countWait s r =>
    apply hkeep
    unfold countWait
    split <;> rfl
  | takeBack s i handle hh hr => exact hkeep (map_released (fun h => h.entry.tag) hh rfl)
  | grant s r e q h =>
    show (s.handles ++ [_]).map (fun h : Handle => h.entry.tag) ⊆ _
    rw [List.map_append]
    refine List.append_subset.mpr ⟨hgiven, List.cons_subset.mpr ⟨?_, List.nil_subset _⟩⟩
    have hlent : (q.grant s.now r e).1 ∈ (q.grant s.now r e).2.books.held none := by
      show _ ∈ (q.grant s.now r e).2.idle ++ (q.grant s.now r e).2.active
      rw [(Pool.grant_frame h).2.2.2, ← List.append_assoc]
      exact List.mem_append_right _ List.mem_cons_self
    exact kn.recorded (List.mem_map_of_mem hlent)

theorem numbered_command (op : Op σ) (s s' : Service σ) (h : Command op s s')
    (k : Numbered none s.pool) : Numbered none s'.pool := by
  cases h with
  | meddle s f | issueToken s hl =>
    exact k.same rfl rfl rfl (List.Subset.refl _) k.emptied
  | reset s hl | shutDown s hl hw => exact Pool.numbered_reset k
  | reconfigure s update hl =>
    exact s.pool.reconfigure_cases update (motive := Numbered none) k
      (Pool.numbered_reset (k.same rfl rfl rfl (List.Subset.refl _) k.emptied))

theorem numbers_command (op : Op σ) (s s' : Service σ) (h : Command op s s')
    (k : HasNumbers none s) : HasNumbers none s' := by
  refine ⟨provenance_command op s s' h k.provenance, numbered_command op s s' h k.numbered, ?_⟩
  have hgiven := List.Subset.trans k.given
    (List.map_subset _ (creations_subset (journal_command op s s' h k.provenance)))
  cases h <;> exact hgiven

theorem numbered_forward (s : Service σ) (i : Nat) (c : Call) (k : Numbered none s.pool) :
    Numbered none (s.forward i c).2.pool := by
  obtain ⟨-, hb⟩ := forward_cases s i c
  have hn : (s.forward i c).2.pool.nextEntry = s.pool.nextEntry := by
    rcases hb with hb | ⟨handle, error, -, -, -, -, hb⟩ <;> exact congrArg Books.nextEntry hb
  have ht : ∃ channel talk,
      Backend.Talk channel talk s.pool.backend (s.forward i c).2.pool.backend := by
    rcases backend_forward s i c with hb | ⟨handle, -, -, hb⟩
    · rw [hb]
      exact ⟨0, _, .refl 0 _⟩
    · rw [hb]
      exact ⟨handle.entry.channel, _, Backend.talk_call handle.entry.channel c s.pool.backend⟩
  obtain ⟨channel, talk, t⟩ := ht
  obtain ⟨-, hi, ha, -⟩ := forward_frame s i c
  have hheld : (s.forward i c).2.pool.books.held none = s.pool.books.held none :=
    congrArg₂ (fun idle active => [] ++ (idle ++ active)) hi ha
  refine k.same t.creations_eq hn t.opened (hheld ▸ List.Subset.refl _) fun hnone hm => ?_
  rw [hi]
  exact k.emptied hnone (t.making?_eq ▸ hm)

theorem numbers_forward (s : Service σ) (i : Nat) (c : Call) (hc : c ≠ .close)
    (k : HasNumbers none s) : HasNumbers none (s.forward i c).2 := by
  refine ⟨provenance_forward s i c k.provenance, numbered_forward s i c k.numbered, ?_⟩
  have hh : (s.forward i c).2.handles = s.handles := by
    rw [(forward_cases s i c).1]
  rw [hh]
  exact List.Subset.trans k.given
    (List.map_subset _ (creations_subset (journal_forward s i c hc k.provenance)))

theorem numbers_moves {s s' : Service σ} (h : Moves (none, s) (none, s'))
    (k : HasNumbers none s) : HasNumbers none s' :=
  moves_keep HasNumbers numbers_move _ _ h k

theorem numbers_run (ops : List (Op σ)) {s : Service σ} (k : HasNumbers none s) :
    HasNumbers none (run ops s) :=
  run_keeps HasNumbers numbers_move numbers_forward ops (fun op _ => numbers_command op) s k

end Service

end ConnectionPool
