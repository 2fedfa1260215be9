import ConnectionPool.Driver.Scripted
import ConnectionPool.Proofs.Dealings

/-!
# What the scripted driver records

A connection of the scripted driver answers truthfully whether it is closed, and a pool closes
none without asking. So the closed connections are those that the journal shows as told to close,
and none was told twice. Breaking connections and making statements fail does not disturb this. As
long as nothing breaks, only a connection that was told to close reports itself closed.
-/

set_option autoImplicit false

namespace ConnectionPool

namespace Scripted

theorem Connection.answer_frame (c : Call) (hc : c ≠ .close) (x : Connection) :
    (x.answer c).2.closed = x.closed ∧ (x.answer c).2.broken = x.broken := by
  cases c with
  | close => exact absurd rfl hc
  | isClosed | autoCommit => exact ⟨rfl, rfl⟩
  | setAutoCommit enabled | commit | rollback | execute sql =>
    simp only [answer]
    split_ifs <;> exact ⟨rfl, rfl⟩

theorem connections_answer (channel : Nat) (c : Call) (s : Scripted) :
    (Driver.answer channel c s).2.connections =
      s.connections.modify channel fun x => (x.answer c).2 := by
  show (s.answer channel c).2.connections = _
  unfold answer
  apply List.ext_getElem?
  intro i
  rw [List.getElem?_modify]
  cases h : s.connections[channel]? with
  | none =>
    by_cases hi : channel = i
    · subst hi
      simp [h]
    · simp [hi]
  | some x =>
    by_cases hi : channel = i
    · subst hi
      obtain ⟨hl, rfl⟩ := List.getElem?_eq_some_iff.mp h
      simp [hl]
    · simp [hi]

theorem connect_ok (login : Login) (s s' : Scripted) (u : Unit)
    (h : Driver.connect login s = (.ok u, s')) :
    s'.openingBroken = s.openingBroken ∧ ∃ x : Connection, x.closed = false ∧
      x.broken = s.openingBroken ∧ s'.connections = s.connections ++ [x] := by
  change s.connect login = _ at h
  unfold connect at h
  dsimp only at h
  split at h
  · simp at h
  · obtain ⟨-, rfl⟩ := Prod.mk.inj h
    exact ⟨rfl, _, rfl, rfl, rfl⟩

theorem connect_error (login : Login) (s s' : Scripted) (error : DriverError)
    (h : Driver.connect login s = (.error error, s')) :
    s'.openingBroken = s.openingBroken ∧ s'.connections = s.connections := by
  change s.connect login = _ at h
  unfold connect at h
  dsimp only at h
  split at h
  · obtain ⟨-, rfl⟩ := Prod.mk.inj h
    exact ⟨rfl, rfl⟩
  · simp at h

namespace Act

/-- It is done to the driver, not to a connection by calling it. -/
def fromOutside : Act → Bool
  | refuse _ | openBroken _ | manualCommit _ | sever _ | failStatements _ _ => true
  | connect _ | call _ _ => false

/-- It breaks no connection, neither now nor later. -/
def harmless : Act → Bool
  | refuse _ | manualCommit _ | failStatements _ _ => true
  | openBroken _ | sever _ | connect _ | call _ _ => false

theorem fromOutside_of_harmless (a : Act) (h : a.harmless = true) : a.fromOutside = true := by
  cases a <;> first | rfl | exact absurd h (by simp [harmless])

end Act

end Scripted

namespace Backend

def Open (channel : Nat) (b : Backend Scripted) : Prop :=
  ∃ x, b.driver.connections[channel]? = some x ∧ x.isDead = false

variable {b b' : Backend Scripted}

theorem connections_call (channel : Nat) (c : Call) (b : Backend Scripted) :
    (b.call channel c).2.driver.connections =
      b.driver.connections.modify channel fun x => (x.answer c).2 :=
  Scripted.connections_answer channel c b.driver

theorem open_call (channel i : Nat) (c : Call) (hc : c ≠ .close) (b : Backend Scripted)
    (h : b.Open channel) : (b.call i c).2.Open channel := by
  obtain ⟨x, hx, hd⟩ := h
  unfold Open
  rw [connections_call, List.getElem?_modify, hx]
  split
  · obtain ⟨hclosed, hbroken⟩ := Scripted.Connection.answer_frame c hc x
    refine ⟨(x.answer c).2, rfl, ?_⟩
    rw [Scripted.Connection.isDead, hclosed, hbroken]
    exact hd
  · exact ⟨x, rfl, hd⟩

theorem isClosed_eq (channel : Nat) (b : Backend Scripted) (x : Scripted.Connection)
    (hx : b.driver.connections[channel]? = some x) :
    (b.call channel .isClosed).1 = .ok x.isDead := by
  show (b.driver.answer channel .isClosed).1 = _
  unfold Scripted.answer
  rw [hx]
  rfl

theorem open_of_isClosed (channel : Nat) (b b' : Backend Scripted) (reply : Reply .isClosed)
    (hl : channel < b.driver.connections.length) (h : b.call channel .isClosed = (reply, b'))
    (hr : reply ≠ .ok true) : b'.Open channel := by
  have hx := List.getElem?_eq_getElem hl
  have ho : b.Open channel := by
    refine ⟨_, hx, ?_⟩
    have he := isClosed_eq channel b _ hx
    rw [h] at he
    cases hd : b.driver.connections[channel].isDead with
    | false => rfl
    | true => exact absurd (he.trans (congrArg Except.ok hd)) hr
  have hc := open_call channel channel .isClosed (by decide) b ho
  rw [h] at hc
  exact hc

theorem Exchange.keeps (P : Backend Scripted → Prop)
    (ho : ∀ b, P b → b.opened = b.driver.connections.length)
    (hn : ∀ b event, event.isTraffic = false → P b → P (b.note event))
    (hconnect : ∀ b login, P b → P (b.connect login).2)
    (hcall : ∀ b channel c, c ≠ .close → channel < b.opened → P b → P (b.call channel c).2)
    (hclose : ∀ b channel, b.Open channel → P b → P (b.call channel .close).2)
    (h : Exchange b b') (hp : P b) : P b' := by
  have hq (channel : Nat) (b : Backend Scripted) (c : Call) (hc : c ≠ .close)
      (h : channel < b.opened ∧ P b) :
      channel < (b.call channel c).2.opened ∧ P (b.call channel c).2 :=
    ⟨h.1, hcall b channel c hc h.1 h.2⟩
  cases h with
  | note event h => exact hn b event h hp
  | connect login => exact hconnect b login hp
  | call channel c hl hc => exact hcall b channel c hc hl hp
  | close channel hl =>
    obtain ⟨hl₁, h₁⟩ := keeps_undo (fun b => channel < b.opened ∧ P b) channel (hq channel) b
      ⟨hl, hp⟩
    have h₂ := hcall _ channel .isClosed (by decide) hl₁ h₁
    rw [ho _ h₁] at hl₁
    unfold Backend.close
    split
    · rename_i e
      rw [e] at h₂
      exact h₂
    · rename_i b₂ hr e
      rw [e] at h₂
      exact hclose b₂ channel (open_of_isClosed channel _ b₂ _ hl₁ e hr) h₂
  | probe channel query hl =>
    have h₁ := hcall b channel .isClosed (by decide) hl hp
    unfold Backend.probe
    split
    · rename_i b₁ e
      have hopen := open_of_isClosed channel b b₁ _ (ho b hp ▸ hl) e (by simp)
      have hl₁ : channel < b₁.opened := (talk_of_call _ _ _ _ _ e).opened ▸ hl
      rw [e] at h₁
      split
      · exact h₁
      · -- only the ping stands between the answer and the close, and it closes nothing
        rename_i query
        obtain ⟨-, h₂⟩ := keeps_ping (fun b => channel < b.opened ∧ P b) channel (hq channel) query
          b₁ ⟨hl₁, h₁⟩
        have hopen₂ := keeps_ping (Open channel) channel
          (fun b c hc => open_call channel channel c hc b) query b₁ hopen
        split
        · rename_i e₂
          rw [e₂] at h₂
          exact h₂
        · rename_i b₂ e₂
          rw [e₂] at h₂ hopen₂
          exact hclose b₂ channel hopen₂ h₂
    · rename_i e
      rw [e] at h₁
      exact h₁

structure Tracked (b : Backend Scripted) : Prop where
  opened : b.opened = b.driver.connections.length
  told : ∀ i x, b.driver.connections[i]? = some x → (x.closed = true ↔ i ∈ closings b.journal)
  ended : ∀ event ∈ b.journal, ∀ i, event.ending? = some i →
    ∃ x, b.driver.connections[i]? = some x ∧ x.isDead = true
  once : (closings b.journal).Nodup

namespace Tracked

theorem closing_lt (t : b.Tracked) (i : Nat) (hi : i ∈ closings b.journal) :
    i < b.driver.connections.length := by
  obtain ⟨event, he, hc⟩ := (mem_closings b.journal i).mp hi
  obtain ⟨x, hx, -⟩ := t.ended event he i (Event.ending_of_closing event i hc)
  exact (List.getElem?_eq_some_iff.mp hx).1

theorem modify (t : b.Tracked) (channel : Nat) (f : Scripted.Connection → Scripted.Connection)
    (hd : b'.driver.connections = b.driver.connections.modify channel f)
    (ho : b'.opened = b.opened) (hj : b'.journal = b.journal)
    (hf : ∀ x, (f x).closed = x.closed) (hx : ∀ x, x.isDead = true → (f x).isDead = true) :
    b'.Tracked where
  opened := by rw [ho, hd, List.length_modify, t.opened]
  told i x h := by
    rw [hd, List.getElem?_modify] at h
    obtain ⟨y, hy, rfl⟩ := Option.map_eq_some_iff.mp h
    rw [hj, ← t.told i y hy]
    split
    · rw [hf]
    · rfl
  ended event he i hi := by
    rw [hj] at he
    obtain ⟨y, hy, hdead⟩ := t.ended event he i hi
    rw [hd, List.getElem?_modify, hy]
    split
    · exact ⟨f y, rfl, hx y hdead⟩
    · exact ⟨y, rfl, hdead⟩
  once := hj ▸ t.once

theorem record (t : b.Tracked) (event : Event) (hd : b'.driver.connections = b.driver.connections)
    (ho : b'.opened = b.opened) (hj : b'.journal = event :: b.journal)
    (hc : event.closing? = none)
    (he : ∀ i, event.ending? = some i →
      ∃ x, b.driver.connections[i]? = some x ∧ x.isDead = true) : b'.Tracked := by
  have hcl : closings b'.journal = closings b.journal := by rw [hj, closings_cons event hc]
  refine ⟨by rw [ho, hd, t.opened], ?_, ?_, hcl ▸ t.once⟩
  · intro i x hx
    rw [hd] at hx
    rw [hcl]
    exact t.told i x hx
  · intro e hm i hi
    rw [hj] at hm
    rw [hd]
    rcases List.mem_cons.mp hm with rfl | hm
    · exact he i hi
    · exact t.ended e hm i hi

theorem note (t : b.Tracked) (event : Event) (h : event.isTraffic = false) :
    (b.note event).Tracked := by
  refine t.record event rfl rfl rfl (Event.closing_of_decision event h) fun i hi => ?_
  rw [Event.ending_of_decision event h] at hi
  exact absurd hi (by simp)

theorem connect (t : b.Tracked) (login : Login) : (b.connect login).2.Tracked := by
  unfold Backend.connect
  split
  · rename_i driver e
    obtain ⟨-, x, hx, -, hd⟩ := Scripted.connect_ok login b.driver driver _ e
    have hcl : closings (.connect login (.ok b.opened) :: b.journal) = closings b.journal :=
      closings_cons _ rfl _
    refine ⟨?_, ?_, ?_, hcl ▸ t.once⟩
    · show b.opened + 1 = driver.connections.length
      rw [hd, t.opened, List.length_append]
      rfl
    · intro i y hy
      show _ ↔ i ∈ closings (.connect login (.ok b.opened) :: b.journal)
      change driver.connections[i]? = some y at hy
      rw [hcl]
      rw [hd, List.getElem?_append] at hy
      split at hy
      · exact t.told i y hy
      · rename_i hi
        obtain rfl : y = x := List.mem_singleton.mp (List.mem_of_getElem? hy)
        rw [hx]
        exact ⟨by simp, fun hc => absurd (t.closing_lt i hc) hi⟩
    · intro event he i hi
      rcases List.mem_cons.mp he with rfl | he
      · exact absurd hi (by simp [Event.ending?])
      · obtain ⟨y, hy, hdead⟩ := t.ended event he i hi
        refine ⟨y, ?_, hdead⟩
        show driver.connections[i]? = some y
        rw [hd, List.getElem?_append_left (List.getElem?_eq_some_iff.mp hy).1]
        exact hy
  · rename_i error driver e
    have hd := (Scripted.connect_error login b.driver driver error e).2
    exact t.record (.connect login (.error error)) hd rfl rfl rfl (by simp [Event.ending?])

theorem call (t : b.Tracked) (channel : Nat) (c : Call) (hc : c ≠ .close)
    (hl : channel < b.opened) : (b.call channel c).2.Tracked := by
  have hframe := Scripted.Connection.answer_frame c hc
  have tm : { (b.call channel c).2 with journal := b.journal }.Tracked := by
    refine t.modify channel _ (connections_call channel c b) rfl rfl (fun x => (hframe x).1) ?_
    intro x hx
    rw [Scripted.Connection.isDead, (hframe x).1, (hframe x).2]
    exact hx
  refine tm.record (.call channel c (b.call channel c).1) rfl rfl rfl
    (Event.closing_call channel c _ hc) ?_
  -- the one answer that ends a connection is that it is closed, and it is true
  intro i hi
  cases c with
  | close => exact absurd rfl hc
  | isClosed =>
    rw [t.opened] at hl
    have hx := List.getElem?_eq_getElem hl
    rw [isClosed_eq channel b _ hx] at hi
    show ∃ x, (b.call channel .isClosed).2.driver.connections[i]? = some x ∧ x.isDead = true
    rw [connections_call, List.getElem?_modify]
    cases hd : b.driver.connections[channel].isDead with
    | false => rw [hd] at hi; exact absurd hi (by simp [Event.ending?])
    | true =>
      rw [hd] at hi
      obtain rfl := Option.some.inj hi
      rw [hx]
      exact ⟨_, congrArg some (if_pos rfl), hd⟩
  | autoCommit | setAutoCommit enabled | commit | rollback | execute sql =>
    exact absurd hi (by simp [Event.ending?])

theorem close (t : b.Tracked) (channel : Nat) (h : b.Open channel) :
    (b.call channel .close).2.Tracked := by
  obtain ⟨x, hx, hd⟩ := h
  have hnew : channel ∉ closings b.journal := by
    rw [← t.told channel x hx]
    simp_all [Scripted.Connection.isDead]
  have hcl : closings (b.call channel .close).2.journal = channel :: closings b.journal := rfl
  refine ⟨?_, ?_, ?_, ?_⟩
  · rw [connections_call, List.length_modify]
    exact t.opened
  · intro i y hy
    rw [connections_call, List.getElem?_modify] at hy
    obtain ⟨z, hz, rfl⟩ := Option.map_eq_some_iff.mp hy
    rw [hcl, List.mem_cons, ← t.told i z hz]
    split
    · rename_i hi
      simp [Scripted.Connection.answer, hi]
    · rename_i hi
      simp [Ne.symm hi]
  · intro event he i hi
    have hdead (y : Scripted.Connection) : (y.answer .close).2.isDead = true := rfl
    rw [connections_call, List.getElem?_modify]
    rcases List.mem_cons.mp he with rfl | he
    · obtain rfl := Option.some.inj hi
      rw [hx]
      exact ⟨_, congrArg some (if_pos rfl), hdead x⟩
    · obtain ⟨y, hy, hyd⟩ := t.ended event he i hi
      rw [hy]
      split
      · exact ⟨_, rfl, hdead y⟩
      · exact ⟨y, rfl, hyd⟩
  · rw [hcl]
    exact List.nodup_cons.mpr ⟨hnew, t.once⟩

theorem act (t : b.Tracked) (a : Scripted.Act) (h : a.fromOutside = true) :
    { b with driver := Scripted.act a b.driver }.Tracked := by
  cases a with
  | connect login | call channel c => exact absurd h (by simp [Scripted.Act.fromOutside])
  | refuse on | openBroken on | manualCommit on => exact ⟨t.opened, t.told, t.ended, t.once⟩
  | sever channel =>
    refine t.modify channel _ rfl rfl rfl (fun _ => rfl) ?_
    intro x hx
    simp [Scripted.Connection.isDead]
  | failStatements channel on =>
    exact t.modify channel _ rfl rfl rfl (fun _ => rfl) fun _ hx => hx

end Tracked

theorem Exchange.tracked (h : Exchange b b') (t : b.Tracked) : b'.Tracked :=
  h.keeps Tracked (fun _ t => t.opened) (fun _ event he t => t.note event he)
    (fun _ login t => t.connect login) (fun _ channel c hc hl t => t.call channel c hc hl)
    (fun _ channel ho t => t.close channel ho) t

structure Sturdy (b : Backend Scripted) : Prop where
  opening : b.driver.openingBroken = false
  unbroken : ∀ x ∈ b.driver.connections, x.broken = false

namespace Sturdy

theorem modify (s : b.Sturdy) (channel : Nat) (f : Scripted.Connection → Scripted.Connection)
    (hd : b'.driver.connections = b.driver.connections.modify channel f)
    (ho : b'.driver.openingBroken = b.driver.openingBroken)
    (hf : ∀ x, (f x).broken = x.broken) : b'.Sturdy where
  opening := ho.trans s.opening
  unbroken x hx := by
    obtain ⟨i, hi⟩ := List.getElem?_of_mem hx
    rw [hd, List.getElem?_modify] at hi
    obtain ⟨y, hy, rfl⟩ := Option.map_eq_some_iff.mp hi
    have hb := s.unbroken y (List.mem_of_getElem? hy)
    split
    · rw [hf, hb]
    · exact hb

theorem call (s : b.Sturdy) (channel : Nat) (c : Call) : (b.call channel c).2.Sturdy := by
  refine s.modify channel _ (connections_call channel c b) ?_ ?_
  · show (b.driver.answer channel c).2.openingBroken = _
    unfold Scripted.answer
    split <;> rfl
  · intro x
    by_cases hc : c = .close
    · subst hc
      rfl
    · exact (Scripted.Connection.answer_frame c hc x).2

theorem connect (s : b.Sturdy) (login : Login) : (b.connect login).2.Sturdy := by
  unfold Backend.connect
  split
  · rename_i driver e
    obtain ⟨ho, x, -, hx, hd⟩ := Scripted.connect_ok login b.driver driver _ e
    refine ⟨ho.trans s.opening, fun y hy => ?_⟩
    change y ∈ driver.connections at hy
    rw [hd] at hy
    rcases List.mem_append.mp hy with hy | hy
    · exact s.unbroken y hy
    · rw [List.mem_singleton.mp hy, hx, s.opening]
  · rename_i error driver e
    obtain ⟨ho, hd⟩ := Scripted.connect_error login b.driver driver error e
    refine ⟨ho.trans s.opening, fun y hy => s.unbroken y ?_⟩
    rw [← hd]
    exact hy

theorem act (s : b.Sturdy) (a : Scripted.Act) (h : a.harmless = true) :
    { b with driver := Scripted.act a b.driver }.Sturdy := by
  cases a with
  | connect login | call channel c | openBroken on | sever channel =>
    exact absurd h (by simp [Scripted.Act.harmless])
  | refuse on | manualCommit on => exact ⟨s.opening, s.unbroken⟩
  | failStatements channel on => exact s.modify channel _ rfl rfl fun _ => rfl

end Sturdy

theorem Exchange.sturdy (h : Exchange b b') (t : b.Tracked) (s : b.Sturdy) : b'.Sturdy :=
  (h.keeps (fun b => b.Tracked ∧ b.Sturdy) (fun _ i => i.1.opened)
    (fun _ event he i => ⟨i.1.note event he, i.2.opening, i.2.unbroken⟩)
    (fun _ login i => ⟨i.1.connect login, i.2.connect login⟩)
    (fun _ channel c hc hl i => ⟨i.1.call channel c hc hl, i.2.call channel c⟩)
    (fun _ channel ho i => ⟨i.1.close channel ho, i.2.call channel .close⟩) ⟨t, s⟩).2

end Backend

/-- All that happens to the driver from outside is acts of this kind. -/
def Op.MeddlesBy (kind : Scripted.Act → Bool) (ops : List (Op Scripted)) : Prop :=
  ∀ f, Op.meddle f ∈ ops → ∃ a, kind a = true ∧ f = Scripted.act a

namespace Service

theorem tracked_run (ops : List (Op Scripted)) (hm : Op.MeddlesBy Scripted.Act.fromOutside ops)
    (s : Service Scripted) (v : s.HasProvenance none) (t : s.pool.backend.Tracked) :
    (run ops s).pool.backend.Tracked := by
  refine backend_run Backend.Tracked (fun _ _ h => h.tracked) ops ?_ s v t
  intro f hf b t
  obtain ⟨a, ha, rfl⟩ := hm f hf
  exact t.act a ha

theorem sturdy_run (ops : List (Op Scripted)) (hm : Op.MeddlesBy Scripted.Act.harmless ops)
    (s : Service Scripted) (v : s.HasProvenance none) (t : s.pool.backend.Tracked)
    (d : s.pool.backend.Sturdy) :
    (run ops s).pool.backend.Tracked ∧ (run ops s).pool.backend.Sturdy := by
  refine backend_run (fun b => b.Tracked ∧ b.Sturdy)
    (fun _ _ h i => ⟨h.tracked i.1, h.sturdy i.1 i.2⟩) ops ?_ s v ⟨t, d⟩
  intro f hf b i
  obtain ⟨a, ha, rfl⟩ := hm f hf
  exact ⟨i.1.act a (Scripted.Act.fromOutside_of_harmless a ha), i.2.act a ha⟩

theorem tracked_start (driver : Scripted) (hd : driver.connections = []) (config : Config)
    (pool : Pool Scripted) (h : Pool.create driver config = .ok pool) :
    (start pool).pool.backend.Tracked := by
  rw [Pool.of_create driver config pool h]
  constructor <;> simp [start, Pool.unused, closings, hd]

end Service

end ConnectionPool
