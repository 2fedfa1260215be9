import ConnectionPool.Proofs.Provenance
import ConnectionPool.Proofs.Traffic

/-!
# Dealings with the driver

All that a pool does with its driver it does by exchanges on connections that it opened: it opens
one, makes a single call that is not a close, closes one or examines one; between them it notes its
decisions. So what every exchange preserves, be it about the driver's state, the journal or both,
holds after every run, if the changes that the driver undergoes from outside preserve it too.
-/

set_option autoImplicit false

namespace ConnectionPool

namespace Backend

variable {σ : Type} [Driver σ]

inductive Exchange : Backend σ → Backend σ → Prop
  | note (b : Backend σ) (event : Event) (h : event.isTraffic = false) : Exchange b (b.note event)
  | connect (b : Backend σ) (login : Login) : Exchange b (b.connect login).2
  | call (b : Backend σ) (channel : Nat) (c : Call) (hl : channel < b.opened) (hc : c ≠ .close) :
      Exchange b (b.call channel c).2
  | close (b : Backend σ) (channel : Nat) (hl : channel < b.opened) :
      Exchange b (b.close channel)
  | probe (b : Backend σ) (channel : Nat) (query : Option String) (hl : channel < b.opened) :
      Exchange b (b.probe channel query).2

abbrev Exchanges : Backend σ → Backend σ → Prop := Relation.ReflTransGen Exchange

theorem exchanges_keep (P : Backend σ → Prop) (hx : ∀ b b', Exchange b b' → P b → P b')
    {b b' : Backend σ} (h : Exchanges b b') (hp : P b) : P b' := by
  induction h with
  | refl => exact hp
  | tail _ h ih => exact hx _ _ h ih

theorem undo_exchanges (b : Backend σ) (channel : Nat) (hl : channel < b.opened) :
    Exchanges b (b.undo channel) :=
  (keeps_undo (fun b' => channel < b'.opened ∧ Exchanges b b') channel
    (fun b' c hc h => ⟨h.1, h.2.tail (.call b' channel c h.1 hc)⟩) b ⟨hl, .refl⟩).2

theorem journal_grows (older : List Event) (b b' : Backend σ) (h : Exchange b b')
    (ho : older <:+ b.journal) : older <:+ b'.journal := by
  refine ho.trans ?_
  cases h with
  | note event h => exact List.suffix_cons _ _
  | connect login =>
    unfold Backend.connect
    split <;> exact List.suffix_cons _ _
  | call channel c hl hc => exact List.suffix_cons _ _
  | close channel hl =>
    obtain ⟨talk, t, -⟩ := talk_close channel b
    exact ⟨talk, t.journal.symm⟩
  | probe channel query hl =>
    obtain ⟨talk, t, -⟩ := talk_probe channel query b
    exact ⟨talk, t.journal.symm⟩

end Backend

namespace Pool

open Backend (Exchange Exchanges)

variable {σ : Type} [Driver σ] {p q : Pool σ}

theorem note_undo_exchanges (b : Backend σ) (event : Event) (ht : event.isTraffic = false)
    (channel : Nat) (hl : channel < b.opened) :
    Exchanges b ((b.note event).undo channel) :=
  (Relation.ReflTransGen.single (Exchange.note b event ht)).trans
    (Backend.undo_exchanges (b.note event) channel hl)

theorem note_close_exchanges (b : Backend σ) (event : Event) (ht : event.isTraffic = false)
    (channel : Nat) (hl : channel < b.opened) :
    Exchanges b ((b.note event).close channel) :=
  (Relation.ReflTransGen.single (Exchange.note b event ht)).tail
    (.close (b.note event) channel hl)

theorem openLink_exchanges (now : Nat) (p : Pool σ) :
    Exchanges p.backend (p.openLink now).2.backend := by
  have hb : (p.openLink now).2.backend = (p.backend.connect p.config.login).2 := by
    unfold openLink
    split <;> rename_i h <;> rw [h]
  rw [hb]
  exact .single (.connect p.backend p.config.login)

theorem examine_exchanges (now caller : Nat) (e : Entry) (sound : Bool)
    (h : p.examine now caller e = (sound, q)) (hl : e.channel < p.backend.opened) :
    Exchanges p.backend q.backend ∧ e.channel < q.backend.opened := by
  obtain ⟨query, probed, hp, hb⟩ := backend_examine now caller e sound p q h
  obtain ⟨talk, t, -⟩ := Backend.talk_probe e.channel query p.backend
  have hx := Exchange.probe p.backend e.channel query hl
  rw [hp] at hx t
  rw [hb]
  refine ⟨(Relation.ReflTransGen.single hx).tail (.note probed _ rfl), ?_⟩
  show e.channel < probed.opened
  rw [t.opened]
  exact hl

theorem turn_exchanges {now caller : Nat} {m m' : Option Entry × Pool σ}
    (h : Turn now caller m m') (hl : ∀ e ∈ m.2.books.held m.1, e.channel < m.2.backend.opened) :
    Exchanges m.2.backend m'.2.backend := by
  cases h with
  | pick p e rest hi => exact .refl
  | connect p q e hi hr h | refuse p q error hi hr h =>
    have hx := openLink_exchanges now p
    rw [h] at hx
    exact hx
  | claim p oldest rest hi hr ha ho hv =>
    have hm : oldest ∈ p.active := by rw [ha]; exact List.mem_cons_self
    rw [backend_takeOver]
    exact note_undo_exchanges p.backend _ rfl oldest.channel
      (hl oldest (List.mem_append_right p.idle hm))
  | drop p oldest rest hi hr ha ho hv =>
    have hm : oldest ∈ p.active := by rw [ha]; exact List.mem_cons_self
    exact note_close_exchanges p.backend _ rfl oldest.channel
      (hl oldest (List.mem_append_right p.idle hm))
  | reject p q e h =>
    obtain ⟨hx, hq⟩ := examine_exchanges now caller e false h (hl e List.mem_cons_self)
    have hr : (q.reject e).backend = q.backend.close e.channel := backend_discard e _
    rw [hr]
    exact hx.tail (.close q.backend e.channel hq)

theorem grant_exchanges {now : Nat} {r : Request} {e : Entry}
    (h : p.examine now r.caller e = (true, q)) (hl : e.channel < p.backend.opened) :
    Exchanges p.backend (q.grant now r e).2.backend := by
  obtain ⟨hx, hq⟩ := examine_exchanges now r.caller e true h hl
  rw [backend_grant]
  exact (hx.trans (Backend.undo_exchanges q.backend e.channel hq)).tail (.note _ _ rfl)

theorem takeBack_exchanges (now : Nat) (e : Entry) (p : Pool σ)
    (hl : e.channel < p.backend.opened) :
    Exchanges p.backend (p.takeBack now e).2.backend := by
  have hc := note_close_exchanges p.backend (p.returnEvent e) rfl e.channel hl
  rw [backend_takeBack]
  cases p.status e.id with
  | superseded => exact .single (.note p.backend _ rfl)
  | invalidated => exact hc
  | valid =>
    dsimp only
    split
    · exact (note_undo_exchanges p.backend _ rfl e.channel hl).tail (.note _ _ rfl)
    · exact hc

theorem drainAll_exchanges (lent : Bool) (entries : List Entry) (p : Pool σ)
    (hl : ∀ e ∈ entries, e.channel < p.backend.opened) :
    Exchanges p.backend (entries.foldr (drain lent) p).backend ∧
      (entries.foldr (drain lent) p).backend.opened = p.backend.opened := by
  induction entries with
  | nil => exact ⟨.refl, rfl⟩
  | cons e rest ih =>
    obtain ⟨hx, ho⟩ := ih fun a ha => hl a (List.mem_cons_of_mem e ha)
    have he : e.channel < (rest.foldr (drain lent) p).backend.opened := by
      rw [ho]
      exact hl e List.mem_cons_self
    obtain ⟨talk, t, -⟩ := Backend.talk_close e.channel
      ((rest.foldr (drain lent) p).backend.note (.drained e lent))
    have hb : ((e :: rest).foldr (drain lent) p).backend =
        ((rest.foldr (drain lent) p).backend.note (.drained e lent)).close e.channel :=
      backend_discard e ((rest.foldr (drain lent) p).note (.drained e lent))
    rw [hb]
    exact ⟨hx.trans (note_close_exchanges _ _ rfl e.channel he), t.opened.trans ho⟩

theorem reset_exchanges (p : Pool σ) (hl : ∀ e ∈ p.idle ++ p.active, e.channel < p.backend.opened) :
    Exchanges p.backend p.reset.backend := by
  obtain ⟨hx, ho⟩ := drainAll_exchanges true p.active
    { p with expectedTypeCode := p.config.expectedTypeCode, active := [], idle := [] }
    (fun e he => hl e (List.mem_append_right p.idle he))
  obtain ⟨hx', -⟩ := drainAll_exchanges false p.idle
    (p.active.foldr (drain true)
      { p with expectedTypeCode := p.config.expectedTypeCode, active := [], idle := [] })
    (fun e he => by
      rw [ho]
      exact hl e (List.mem_append_left p.active he))
  exact hx.trans hx'

theorem reconfigure_exchanges (update : Config → Config) (p : Pool σ)
    (hl : ∀ e ∈ p.idle ++ p.active, e.channel < p.backend.opened) :
    Exchanges p.backend (p.reconfigure update).2.backend :=
  p.reconfigure_cases update (motive := fun q => Exchanges p.backend q.backend) .refl
    (reset_exchanges { p with config := update p.config } hl)

end Pool

namespace Service

open Backend (Exchange Exchanges)

variable {σ : Type} [Driver σ]

theorem move_exchanges (m m' : Option Entry × Service σ) (h : Move m m')
    (v : HasProvenance m.1 m.2) : Exchanges m.2.pool.backend m'.2.pool.backend := by
  cases h with
  | mark s | come s | pass s | leave s => exact .refl
  | awake s x | sleep s r hs hc | fail s r error => exact .single (.note _ _ rfl)
  | countWait s r =>
    unfold countWait
    split <;> exact .refl
  | turn s caller hand hand' q h => exact Pool.turn_exchanges h v.distinct.channel_lt
  | grant s r e q h =>
    have hl := v.distinct.channel_lt e List.mem_cons_self
    exact (Pool.grant_exchanges h hl).tail (.note _ _ rfl)
  | takeBack s i handle hh hr =>
    exact Pool.takeBack_exchanges s.now handle.entry s.pool
      (v.handle_channel_lt handle (List.mem_of_getElem? hh))

theorem backend_forward (s : Service σ) (i : Nat) (c : Call) :
    (s.forward i c).2.pool.backend = s.pool.backend ∨
      ∃ handle, s.handles[i]? = some handle ∧ s.isValid handle = true ∧
        (s.forward i c).2.pool.backend =
          (s.pool.backend.call handle.entry.channel c).2 := by
  unfold forward
  cases hh : s.handles[i]? with
  | none => exact Or.inl rfl
  | some handle =>
    dsimp only
    split
    · rename_i hv
      refine Or.inr ⟨handle, rfl, hv, ?_⟩
      split
      · rfl
      · split
        · exact Pool.backend_retire _ _ _
        · rfl
    · exact Or.inl rfl

theorem backend_move (P : Backend σ → Prop) (hx : ∀ b b', Exchange b b' → P b → P b')
    (m m' : Option Entry × Service σ) (h : Move m m') (v : HasProvenance m.1 m.2)
    (hp : P m.2.pool.backend) : P m'.2.pool.backend :=
  Backend.exchanges_keep P hx (move_exchanges m m' h v) hp

theorem backend_command (P : Backend σ → Prop) (hx : ∀ b b', Exchange b b' → P b → P b')
    (op : Op σ) (hm : ∀ f, op = .meddle f → ∀ b, P b → P { b with driver := f b.driver })
    (s s' : Service σ) (h : Command op s s') (v : s.HasProvenance none)
    (hp : P s.pool.backend) : P s'.pool.backend := by
  have hl := v.distinct.channel_lt
  cases h with
  | meddle s f => exact hm f rfl _ hp
  | issueToken s hl => exact hp
  | reset s hv | shutDown s hv hw =>
    exact Backend.exchanges_keep P hx (Pool.reset_exchanges s.pool hl) hp
  | reconfigure s update hv =>
    exact Backend.exchanges_keep P hx (Pool.reconfigure_exchanges update s.pool hl) hp

theorem backend_forwarded (P : Backend σ → Prop) (hx : ∀ b b', Exchange b b' → P b → P b')
    (s : Service σ) (i : Nat) (c : Call) (hc : c ≠ .close) (v : s.HasProvenance none)
    (hp : P s.pool.backend) : P (s.forward i c).2.pool.backend := by
  rcases backend_forward s i c with hb | ⟨handle, hh, -, hb⟩
  · rw [hb]
    exact hp
  · have hl := v.handle_channel_lt handle (List.mem_of_getElem? hh)
    rw [hb]
    exact hx _ _ (.call s.pool.backend handle.entry.channel c hl hc) hp

theorem backend_run (P : Backend σ → Prop) (hx : ∀ b b', Exchange b b' → P b → P b')
    (ops : List (Op σ))
    (hm : ∀ f, Op.meddle f ∈ ops → ∀ b, P b → P { b with driver := f b.driver })
    (s : Service σ) (v : s.HasProvenance none) (hp : P s.pool.backend) :
    P (run ops s).pool.backend := by
  refine (run_keeps (fun hand s => s.HasProvenance hand ∧ P s.pool.backend) ?_ ?_ ops ?_ s
    ⟨v, hp⟩).2
  · intro m m' h hi
    exact ⟨provenance_move m m' h hi.1, backend_move P hx m m' h hi.1 hi.2⟩
  · intro s i c hc hi
    exact ⟨provenance_forward s i c hi.1, backend_forwarded P hx s i c hc hi.1 hi.2⟩
  · intro op ho s s' h hi
    have hf (f : σ → σ) (hop : op = .meddle f) := hm f (hop ▸ ho)
    exact ⟨provenance_command op s s' h hi.1, backend_command P hx op hf s s' h hi.1 hi.2⟩

theorem journal_move (m m' : Option Entry × Service σ) (h : Move m m')
    (v : HasProvenance m.1 m.2) :
    m.2.pool.backend.journal <:+ m'.2.pool.backend.journal :=
  backend_move _ (Backend.journal_grows m.2.pool.backend.journal) m m' h v List.suffix_rfl

theorem journal_command (op : Op σ) (s s' : Service σ) (h : Command op s s')
    (v : s.HasProvenance none) : s.pool.backend.journal <:+ s'.pool.backend.journal :=
  backend_command _ (Backend.journal_grows s.pool.backend.journal) op (fun _ _ _ hj => hj) s s' h v
    List.suffix_rfl

theorem journal_forward (s : Service σ) (i : Nat) (c : Call) (hc : c ≠ .close)
    (v : s.HasProvenance none) :
    s.pool.backend.journal <:+ (s.forward i c).2.pool.backend.journal :=
  backend_forwarded _ (Backend.journal_grows s.pool.backend.journal) s i c hc v List.suffix_rfl

theorem journal_run (ops : List (Op σ)) (s : Service σ) (v : s.HasProvenance none) :
    s.pool.backend.journal <:+ (run ops s).pool.backend.journal :=
  backend_run _ (Backend.journal_grows s.pool.backend.journal) ops (fun _ _ _ hj => hj) s v
    List.suffix_rfl

end Service

end ConnectionPool
