import ConnectionPool.Proofs.Custody
import ConnectionPool.Proofs.Dealings

/-!
# How custody is kept

Every turn, every move, every command and every call on a handle leaves each connection either held
or closed. A connection leaves the pool when a candidate is rejected, when a lease that was spoiled
is dropped by a claim or comes back, when a return finds no place, and in a reset; in each case the
pool closes it in the same go. A link that was superseded leaves nothing to close.
-/

set_option autoImplicit false

namespace ConnectionPool

theorem Distinct.mem_channels {entries rest : List Entry} {ids channels : Nat} {e : Entry}
    (h : Distinct entries ids channels) (hp : entries.Perm (e :: rest)) (i : Nat) :
    i ∈ rest.map Entry.channel ↔ i ∈ entries.map Entry.channel ∧ i ≠ e.channel := by
  have hn := (h.perm hp.symm).channels_nodup
  have hm : i ∈ entries.map Entry.channel ↔ i = e.channel ∨ i ∈ rest.map Entry.channel := by
    rw [(hp.map _).mem_iff, List.map_cons, List.mem_cons]
  have he : e.channel ∉ rest.map Entry.channel := (List.nodup_cons.mp hn).1
  rw [hm]
  constructor
  · exact fun hi => ⟨Or.inr hi, fun hie => he (hie ▸ hi)⟩
  · exact fun hi => hi.1.resolve_left hi.2

namespace Pool

variable {σ : Type}

def HasCustody (hand : Option Entry) (p : Pool σ) : Prop :=
  p.backend.Custody ((p.books.held hand).map Entry.channel)

variable {p q : Pool σ} {handles : List Handle}

theorem HasCustody.of_held {hand hand' : Option Entry} (k : p.HasCustody hand)
    (hb : q.backend = p.backend) (hh : q.books.held hand' = p.books.held hand) :
    q.HasCustody hand' := by
  unfold HasCustody
  rw [hb, hh]
  exact k

theorem channel_not_held (v : Provenance none p.books handles) {handle : Handle}
    (hm : handle ∈ handles) (hs : p.status handle.entry.id = .invalidated)
    (hn : handle.entry ∉ p.active) :
    handle.entry.channel ∉ (p.books.held none).map Entry.channel := by
  intro hc
  obtain ⟨a, ha, hac⟩ := List.mem_map.mp hc
  obtain rfl := v.spent handle hm hs a ha hac
  rcases List.mem_append.mp (show handle.entry ∈ p.idle ++ p.active from ha) with hi | hi
  · exact v.idle_id_ne_handle hi hm rfl
  · exact hn hi

variable [Driver σ]

theorem custody_reject {now caller : Nat} {e : Entry} (l : Ledger (some e) p.books handles)
    (h : p.examine now caller e = (false, q)) (k : p.HasCustody (some e)) :
    (q.reject e).HasCustody none := by
  obtain ⟨query, probed, hp, hb⟩ := backend_examine now caller e false p q h
  obtain ⟨before, t₁, -⟩ := Backend.talk_probe e.channel query p.backend
  obtain ⟨talk, t₂, hx⟩ := Backend.talk_close e.channel q.backend
  have hheld : (q.reject e).books.held none = p.books.idle ++ p.books.active := by
    rw [books_reject, examine_books now caller e false p q h]
    rfl
  have hr : (q.reject e).backend = q.backend.close e.channel := backend_discard e _
  rw [hp] at t₁
  rw [hb] at t₂
  unfold HasCustody
  rw [hheld, hr, hb]
  exact k.leave (l.distinct.channel_lt e List.mem_cons_self) t₁ rfl t₂ hx
    (l.distinct.mem_channels (List.Perm.refl _))

theorem custody_claim {now caller : Nat} {oldest : Entry} {rest : List Entry}
    (hi : p.idle = []) (ha : p.active = oldest :: rest) (k : p.HasCustody none) :
    (p.takeOver now caller oldest rest).HasCustody (some (oldest.successor p.nextEntry)) := by
  obtain ⟨talk, t, hq⟩ := Backend.talk_undo oldest.channel
    (p.backend.note (.claimed caller oldest (oldest.heldFor now)))
  have hc : ((p.takeOver now caller oldest rest).books.held
      (some (oldest.successor p.nextEntry))).map Entry.channel =
        (p.books.held none).map Entry.channel := by
    rw [books_takeOver]
    show oldest.channel :: (p.idle ++ rest).map Entry.channel =
      (p.idle ++ p.active).map Entry.channel
    rw [hi, ha]
    rfl
  unfold HasCustody
  rw [backend_takeOver, hc]
  exact (k.note _ rfl rfl).talk t (Or.inl hq)

theorem custody_drop {now caller : Nat} {oldest : Entry} {rest : List Entry}
    (l : Ledger none p.books handles) (ha : p.active = oldest :: rest) (k : p.HasCustody none) :
    ((p.unlend now caller oldest rest).close oldest).HasCustody none := by
  obtain ⟨talk, t, hx⟩ := Backend.talk_close oldest.channel
    (p.backend.note (.claimed caller oldest (oldest.heldFor now)))
  have hheld : ((p.unlend now caller oldest rest).close oldest).books.held none =
      p.idle ++ rest := by
    rw [books_close, books_unlend]
    rfl
  have hp : (p.books.held none).Perm (oldest :: (p.idle ++ rest)) := by
    show (p.idle ++ p.active).Perm _
    rw [ha]
    exact List.perm_middle
  have hm : oldest ∈ p.books.held none := hp.symm.subset List.mem_cons_self
  unfold HasCustody
  rw [hheld]
  exact k.leave (l.distinct.channel_lt oldest hm) (.refl _ _) rfl t hx (l.distinct.mem_channels hp)

theorem Turn.custody {now caller : Nat} {m m' : Option Entry × Pool σ} (h : Turn now caller m m')
    (l : Ledger m.1 m.2.books handles) (k : m.2.HasCustody m.1) : m'.2.HasCustody m'.1 := by
  cases h with
  | pick p e rest hi =>
    have hh : { p with idle := rest }.books.held (some e) = p.books.held none := by
      show e :: (rest ++ p.active) = p.idle ++ p.active
      rw [hi]
      rfl
    exact k.of_held rfl hh
  | connect p q e hi hr h =>
    obtain ⟨he, hb⟩ := openLink_found now p q e h
    have hc := backend_openLink_found now p q e h
    have hheld : q.books.held (some e) = e :: p.books.held none := by
      rw [hb]
      rfl
    unfold HasCustody
    rw [hheld]
    exact k.connect hc (by rw [he]; rfl)
  | refuse p q error hi hr h =>
    have hheld : q.books.held none = p.books.held none := by
      rw [openLink_refused now p q error h]
    unfold HasCustody
    rw [hheld]
    exact k.refuse (backend_openLink_refused now p q error h)
  | claim p oldest rest hi hr ha ho hv => exact custody_claim hi ha k
  | drop p oldest rest hi hr ha ho hv => exact custody_drop l ha k
  | reject p q e h => exact custody_reject l h k

theorem custody_grant {now : Nat} {r : Request} {e : Entry}
    (h : p.examine now r.caller e = (true, q)) (k : p.HasCustody (some e)) :
    (q.grant now r e).2.HasCustody none := by
  obtain ⟨query, probed, hp, hb⟩ := backend_examine now r.caller e true p q h
  obtain ⟨before, t₁, hq₁⟩ := Backend.talk_probe e.channel query p.backend
  obtain ⟨talk, t₂, hq₂⟩ := Backend.talk_undo e.channel q.backend
  have hheld : (q.grant now r e).2.books.held none =
      p.books.idle ++ (p.books.active ++ [(q.grant now r e).1]) := by
    obtain ⟨-, -, hi, ha⟩ := grant_frame h
    show (q.grant now r e).2.idle ++ (q.grant now r e).2.active = _
    rw [hi, ha]
    rfl
  have hc : ∀ i, i ∈ ((q.grant now r e).2.books.held none).map Entry.channel ↔
      i ∈ (p.books.held (some e)).map Entry.channel := by
    intro i
    have hlink : (q.grant now r e).1.channel = e.channel := rfl
    rw [hheld]
    simp only [Books.held, List.map_append, List.map_cons, List.map_nil, hlink,
      Option.toList_some, List.mem_append, List.mem_singleton]
    tauto
  rw [hp] at t₁ hq₁
  have k₁ := k.talk t₁ (Or.inl (hq₁ rfl))
  have k₂ : q.backend.Custody ((p.books.held (some e)).map Entry.channel) := by
    rw [hb]
    exact k₁.note _ rfl rfl
  have ha : (Event.granted r.caller (q.grant now r e).1).arrival? = some e.channel := rfl
  have k₃ := (k₂.talk t₂ (Or.inl hq₂)).receive ha List.mem_cons_self
  unfold HasCustody
  rw [backend_grant]
  exact k₃.congr hc

theorem custody_end {e : Entry} {b : Backend σ} (l : Ledger none p.books handles)
    (ha : e ∈ p.active) (hb : b = (p.backend.note (p.returnEvent e)).close e.channel)
    (k : p.HasCustody none) :
    b.Custody ((p.idle ++ p.active.erase e).map Entry.channel) := by
  subst hb
  obtain ⟨talk, t, hx⟩ := Backend.talk_close e.channel (p.backend.note (p.returnEvent e))
  have hp : (p.books.held none).Perm (e :: (p.idle ++ p.active.erase e)) := by
    have hp := (List.perm_cons_erase ha).append_left p.idle
    exact hp.trans List.perm_middle
  have hr : (p.returnEvent e).departure? = some e.channel := by
    have hany : (p.active.any fun a => a.id == e.id) = true :=
      List.any_eq_true.mpr ⟨e, ha, by simp⟩
    simp [returnEvent, hany, Event.departure?]
  have hl : e.channel < p.backend.opened :=
    l.distinct.channel_lt e (hp.symm.subset List.mem_cons_self)
  exact k.leave hl (.refl _ _) hr t hx (l.distinct.mem_channels hp)

theorem held_takeBack {now : Nat} {handle : Handle} (l : Ledger none p.books handles)
    (hm : handle ∈ handles) (hb : (p.takeBack now handle.entry).1 = false) :
    (p.takeBack now handle.entry).2.books.held none =
      p.idle ++ p.active.erase handle.entry := by
  have he := l.erase_lease hm
  revert hb
  refine p.takeBack_cases now handle.entry (motive := fun kept b => kept = false →
    b.held none = p.idle ++ p.active.erase handle.entry) ?retired ?kept ?closed
  case retired => exact fun _ _ => congrArg (p.idle ++ ·) he
  case kept => exact fun _ _ hb => absurd hb (by decide)
  case closed => exact fun _ _ _ => congrArg (p.idle ++ ·) he

theorem custody_keep {now : Nat} {handle : Handle} (l : Ledger none p.books handles)
    (hm : handle ∈ handles) (hv : p.status handle.entry.id = .valid)
    (hk : p.keeps handle.entry) (k : p.HasCustody none) :
    (p.takeBack now handle.entry).2.HasCustody none := by
  have ha : handle.entry ∈ p.active := l.running handle hm hv
  have hkept := (takeBack_kept now handle.entry p hv hk).2
  have hback := backend_takeBack now handle.entry p
  rw [hv] at hback
  dsimp only at hback
  rw [if_pos hk] at hback
  obtain ⟨talk, t, hq⟩ := Backend.talk_undo handle.entry.channel
    (p.backend.note (p.returnEvent handle.entry))
  have hp : (p.books.held none).Perm (handle.entry :: (p.idle ++ p.active.erase handle.entry)) :=
    ((List.perm_cons_erase ha).append_left p.idle).trans List.perm_middle
  have hheld : (p.takeBack now handle.entry).2.books.held none =
      (p.idle ++ [handle.entry.successor p.nextEntry]) ++ p.active.erase handle.entry := by
    have he := l.erase_lease hm
    rw [hkept]
    exact congrArg ((p.idle ++ [handle.entry.successor p.nextEntry]) ++ ·) he
  have hc : ∀ i, i ∈ ((p.takeBack now handle.entry).2.books.held none).map Entry.channel ↔
      i ∈ (p.books.held none).map Entry.channel := by
    intro i
    rw [hheld, (hp.map Entry.channel).mem_iff]
    have hlink : (handle.entry.successor p.nextEntry).channel = handle.entry.channel := rfl
    simp only [List.map_append, List.map_cons, List.map_nil, hlink, List.mem_append,
      List.mem_cons, List.not_mem_nil, or_false]
    tauto
  have hreturn : (p.returnEvent handle.entry).arrival? = none := rfl
  have harrive : (Event.shelved (handle.entry.successor p.nextEntry)).arrival? =
      some handle.entry.channel := rfl
  have k₁ := (k.note (p.returnEvent handle.entry) hreturn rfl).talk t (Or.inl hq)
  have k₂ := k₁.receive harrive (List.mem_map_of_mem (hp.symm.subset List.mem_cons_self))
  unfold HasCustody
  rw [hback]
  exact k₂.congr hc

theorem custody_takeBack {now : Nat} {handle : Handle} (v : Provenance none p.books handles)
    (hm : handle ∈ handles) (k : p.HasCustody none) :
    (p.takeBack now handle.entry).2.HasCustody none := by
  have l := v.toLedger
  have hback := backend_takeBack now handle.entry p
  by_cases hk : p.status handle.entry.id = .valid ∧ p.keeps handle.entry
  · exact custody_keep l hm hk.1 hk.2 k
  · have hb : (p.takeBack now handle.entry).1 = false := by
      by_cases hv : p.status handle.entry.id = .valid
      · exact (takeBack_closed now handle.entry p hv fun h => hk ⟨hv, h⟩).1
      · exact (takeBack_retired now handle.entry p hv).1
    unfold HasCustody
    rw [held_takeBack l hm hb]
    cases hs : p.status handle.entry.id with
    | valid =>
      rw [hs] at hback
      dsimp only at hback
      rw [if_neg fun h => hk ⟨hs, h⟩] at hback
      exact custody_end l (l.running handle hm hs) hback k
    | superseded =>
      rw [hs] at hback
      dsimp only at hback
      have hn : handle.entry ∉ p.active := fun ha => l.lent handle.entry ha hs
      rw [hback, List.erase_of_not_mem hn]
      exact k.note _ rfl rfl
    | invalidated =>
      rw [hs] at hback
      dsimp only at hback
      by_cases ha : handle.entry ∈ p.active
      · exact custody_end l ha hback k
      · obtain ⟨talk, t, -⟩ := Backend.talk_close handle.entry.channel
          (p.backend.note (p.returnEvent handle.entry))
        have hreturn : (p.returnEvent handle.entry).arrival? = none := rfl
        rw [hback, List.erase_of_not_mem ha]
        exact (k.note _ hreturn rfl).talk t
          (Or.inr ⟨v.handle_channel_lt handle hm, channel_not_held v hm hs ha⟩)

theorem custody_drain (lent : Bool) {e : Entry} {channels : List Nat}
    (k : p.backend.Custody (e.channel :: channels)) (hl : e.channel < p.backend.opened)
    (hn : e.channel ∉ channels) :
    (p.drain lent e).backend.Custody channels ∧
      (p.drain lent e).backend.opened = p.backend.opened := by
  obtain ⟨talk, t, hx⟩ := Backend.talk_close e.channel (p.backend.note (.drained e lent))
  have hb : (p.drain lent e).backend = (p.backend.note (.drained e lent)).close e.channel :=
    backend_discard e (p.note (.drained e lent))
  have hc : ∀ i, i ∈ channels ↔ i ∈ e.channel :: channels ∧ i ≠ e.channel := by
    intro i
    rw [List.mem_cons]
    constructor
    · exact fun hi => ⟨Or.inr hi, fun hie => hn (hie ▸ hi)⟩
    · exact fun hi => hi.1.resolve_left hi.2
  rw [hb]
  exact ⟨k.leave hl (.refl _ _) rfl t hx hc, t.opened⟩

theorem custody_drainAll (lent : Bool) (entries : List Entry) (channels : List Nat)
    (hn : (entries.map Entry.channel ++ channels).Nodup)
    (hl : ∀ e ∈ entries, e.channel < p.backend.opened)
    (k : p.backend.Custody (entries.map Entry.channel ++ channels)) :
    (entries.foldr (drain lent) p).backend.Custody channels ∧
      (entries.foldr (drain lent) p).backend.opened = p.backend.opened := by
  induction entries generalizing channels with
  | nil => exact ⟨k, rfl⟩
  | cons e rest ih =>
    have hp : (rest.map Entry.channel ++ e.channel :: channels).Perm
        ((e :: rest).map Entry.channel ++ channels) := List.perm_middle
    have hn' := hp.nodup_iff.mpr hn
    obtain ⟨kr, ho⟩ := ih (e.channel :: channels) hn'
      (fun a ha => hl a (List.mem_cons_of_mem e ha)) (k.congr fun i => hp.mem_iff)
    have hne : e.channel ∉ channels :=
      (List.nodup_cons.mp (List.nodup_append.mp hn').2.1).1
    have hle : e.channel < (rest.foldr (drain lent) p).backend.opened := by
      rw [ho]
      exact hl e List.mem_cons_self
    obtain ⟨ke, he⟩ := custody_drain lent kr hle hne
    exact ⟨ke, he.trans ho⟩

theorem custody_reset (l : Ledger none p.books handles) (k : p.HasCustody none) :
    p.reset.HasCustody none := by
  have hp : (p.active.map Entry.channel ++ p.idle.map Entry.channel).Perm
      ((p.books.held none).map Entry.channel) := by
    show List.Perm _ ((p.idle ++ p.active).map Entry.channel)
    rw [List.map_append]
    exact List.perm_append_comm
  have hn := hp.nodup_iff.mpr l.distinct.channels_nodup
  have hidle : (p.idle.map Entry.channel ++ []).Nodup := by
    rw [List.append_nil]
    exact (List.nodup_append.mp hn).2.1
  obtain ⟨ka, ho⟩ := custody_drainAll (p := { p with
      expectedTypeCode := p.config.expectedTypeCode, active := [], idle := [] })
    true p.active (p.idle.map Entry.channel) hn
    (fun e he => l.distinct.channel_lt e (List.mem_append_right p.idle he))
    (k.congr fun i => hp.mem_iff)
  obtain ⟨ki, -⟩ := custody_drainAll false p.idle [] hidle
    (fun e he => by
      rw [ho]
      exact l.distinct.channel_lt e (List.mem_append_left p.active he))
    (by rwa [List.append_nil])
  have hheld : p.reset.books.held none = [] := by
    obtain ⟨-, hi, ha, -⟩ := reset_frame p
    show p.reset.idle ++ p.reset.active = []
    rw [hi, ha]
    rfl
  unfold HasCustody
  rw [hheld]
  exact ki

theorem custody_reconfigure (update : Config → Config) (l : Ledger none p.books handles)
    (k : p.HasCustody none) : (p.reconfigure update).2.HasCustody none := by
  have lc : Ledger none { p with config := update p.config }.books handles :=
    l.congr rfl rfl rfl rfl rfl
  exact p.reconfigure_cases update (motive := HasCustody none) k (custody_reset lc k)

end Pool

namespace Service

variable {σ : Type}

def InOrder (hand : Option Entry) (s : Service σ) : Prop :=
  s.HasProvenance hand ∧ s.pool.HasCustody hand

theorem inOrder_start (driver : σ) (config : Config) (pool : Pool σ)
    (h : Pool.create driver config = .ok pool) : (start pool).InOrder none := by
  refine ⟨provenance_start driver config pool h, ?_⟩
  rw [Pool.of_create driver config pool h]
  constructor <;> simp [start, Pool.unused, Pool.books, Books.held, closings]

variable [Driver σ]

theorem custody_move (m m' : Option Entry × Service σ) (h : Move m m')
    (v : HasProvenance m.1 m.2) (k : m.2.pool.HasCustody m.1) : m'.2.pool.HasCustody m'.1 := by
  cases h with
  | mark s | come s | pass s | leave s => exact k
  | awake s x | sleep s r hs hc | fail s r error => exact k.note _ rfl rfl
  | countWait s r =>
    unfold countWait
    split <;> exact k
  | turn s caller hand hand' q h => exact h.custody v.toLedger k
  | grant s r e q h => exact (Pool.custody_grant h k).note _ rfl rfl
  | takeBack s i handle hh hr => exact Pool.custody_takeBack v (List.mem_of_getElem? hh) k

theorem inOrder_move (m m' : Option Entry × Service σ) (h : Move m m') (o : InOrder m.1 m.2) :
    InOrder m'.1 m'.2 :=
  ⟨provenance_move m m' h o.1, custody_move m m' h o.1 o.2⟩

theorem inOrder_command (op : Op σ) (s s' : Service σ) (h : Command op s s')
    (o : s.InOrder none) : s'.InOrder none := by
  refine ⟨provenance_command op s s' h o.1, ?_⟩
  obtain ⟨v, k⟩ := o
  cases h with
  | meddle s f => exact ⟨k.unclosed, k.accounted, k.closed_lt, k.final⟩
  | issueToken s hl => exact k
  | reset s hl | shutDown s hl hw => exact Pool.custody_reset v.toLedger k
  | reconfigure s update hl => exact Pool.custody_reconfigure update v.toLedger k

theorem inOrder_forward (s : Service σ) (i : Nat) (c : Call) (hc : c ≠ .close)
    (o : s.InOrder none) : (s.forward i c).2.InOrder none := by
  refine ⟨provenance_forward s i c o.1, ?_⟩
  obtain ⟨-, hi, ha, -⟩ := forward_frame s i c
  have hheld : (s.forward i c).2.pool.books.held none = s.pool.books.held none := by
    show (s.forward i c).2.pool.idle ++ (s.forward i c).2.pool.active = s.pool.idle ++ s.pool.active
    rw [hi, ha]
  unfold Pool.HasCustody
  rw [hheld]
  rcases backend_forward s i c with hb | ⟨handle, -, -, hb⟩
  · rw [hb]
    exact o.2
  · rw [hb]
    refine o.2.talk (Backend.talk_call handle.entry.channel c s.pool.backend) (Or.inl ?_)
    exact closings_cons _ (Event.closing_call _ c _ hc) []

theorem inOrder_run (ops : List (Op σ)) (s : Service σ) (o : s.InOrder none) :
    (run ops s).InOrder none :=
  run_keeps InOrder inOrder_move inOrder_forward ops (fun op _ => inOrder_command op) s o

end Service

end ConnectionPool
