import ConnectionPool.Proofs.Turns

/-!
# Traffic

What a pool asks of the driver, as its journal shows it. A talk is a series of calls on one
connection. Undoing a transaction and an examination that is passed take a talk without a close. A
connection that is given up is talked to until it has been told to close or has answered that it is
closed. Each operation of a pool is one such talk, or none, between decisions of the pool.
-/

set_option autoImplicit false

namespace ConnectionPool

namespace Event

def called? : Event → Option Nat
  | call channel _ _ => some channel
  | _ => none

def closing? : Event → Option Nat
  | call channel .close _ => some channel
  | _ => none

/-- The connection that was told to close or answered that it is closed. -/
def ending? : Event → Option Nat
  | call channel .close _ => some channel
  | call channel .isClosed (.ok true) => some channel
  | _ => none

theorem called_of_closing (event : Event) (channel : Nat) (h : event.closing? = some channel) :
    event.called? = some channel := by
  cases event with
  | call i c reply => cases c <;> simp_all [closing?, called?]
  | _ => simp [closing?] at h

theorem ending_of_closing (event : Event) (channel : Nat) (h : event.closing? = some channel) :
    event.ending? = some channel := by
  cases event with
  | call i c reply => cases c <;> simp_all [closing?, ending?]
  | _ => simp [closing?] at h

theorem closing_of_decision (event : Event) (h : event.isTraffic = false) :
    event.closing? = none := by
  cases event <;> simp_all [isTraffic, closing?]

theorem ending_of_decision (event : Event) (h : event.isTraffic = false) :
    event.ending? = none := by
  cases event <;> simp_all [isTraffic, ending?]

theorem closing_call (channel : Nat) (c : Call) (reply : Reply c) (h : c ≠ .close) :
    (Event.call channel c reply).closing? = none := by
  cases c <;> simp_all [closing?]

end Event

def closings (journal : List Event) : List Nat := journal.filterMap Event.closing?

theorem closings_append (newer older : List Event) :
    closings (newer ++ older) = closings newer ++ closings older :=
  List.filterMap_append

theorem closings_cons (event : Event) (h : event.closing? = none) (journal : List Event) :
    closings (event :: journal) = closings journal := by
  simp [closings, h]

theorem mem_closings (journal : List Event) (channel : Nat) :
    channel ∈ closings journal ↔ ∃ event ∈ journal, event.closing? = some channel :=
  List.mem_filterMap

namespace Backend

variable {σ : Type}

/-- From one backend to the other the connection was called, and nothing else happened. -/
structure Talk (channel : Nat) (talk : List Event) (b b' : Backend σ) : Prop where
  journal : b'.journal = talk ++ b.journal
  opened : b'.opened = b.opened
  called : ∀ event ∈ talk, event.called? = some channel

theorem Talk.refl (channel : Nat) (b : Backend σ) : Talk channel [] b b :=
  ⟨rfl, rfl, fun _ h => absurd h List.not_mem_nil⟩

theorem Talk.trans {channel : Nat} {talk more : List Event} {b b' b'' : Backend σ}
    (h : Talk channel talk b b') (h' : Talk channel more b' b'') :
    Talk channel (more ++ talk) b b'' where
  journal := by rw [h'.journal, h.journal, List.append_assoc]
  opened := h'.opened.trans h.opened
  called event he := (List.mem_append.mp he).elim (h'.called event) (h.called event)

variable [Driver σ]

theorem talk_call (channel : Nat) (c : Call) (b : Backend σ) :
    Talk channel [.call channel c (b.call channel c).1] b (b.call channel c).2 := by
  constructor <;> simp [call, Event.called?]

theorem talk_of_call (channel : Nat) (c : Call) (reply : Reply c) (b b' : Backend σ)
    (h : b.call channel c = (reply, b')) : Talk channel [.call channel c reply] b b' := by
  have ht := talk_call channel c b
  rw [h] at ht
  exact ht

theorem connect_ok (login : Login) (b b' : Backend σ) (channel : Nat)
    (h : b.connect login = (.ok channel, b')) :
    b'.journal = .connect login (.ok channel) :: b.journal ∧ b'.opened = b.opened + 1 := by
  unfold connect at h
  split at h
  · obtain ⟨hc, rfl⟩ := Prod.mk.inj h
    rw [← Except.ok.inj hc]
    exact ⟨rfl, rfl⟩
  · simp at h

theorem connect_error (login : Login) (b b' : Backend σ) (error : DriverError)
    (h : b.connect login = (.error error, b')) :
    b'.journal = .connect login (.error error) :: b.journal ∧ b'.opened = b.opened := by
  unfold connect at h
  split at h
  · simp at h
  · obtain ⟨hc, rfl⟩ := Prod.mk.inj h
    rw [← Except.error.inj hc]
    exact ⟨rfl, rfl⟩

theorem Talk.more {channel : Nat} {b b' : Backend σ} (c : Call) (hc : c ≠ .close)
    (h : ∃ talk, Talk channel talk b b' ∧ closings talk = []) :
    ∃ talk, Talk channel talk b (b'.call channel c).2 ∧ closings talk = [] := by
  obtain ⟨talk, t, hq⟩ := h
  refine ⟨_, t.trans (talk_call channel c b'), ?_⟩
  rw [List.singleton_append, closings_cons _ (Event.closing_call channel c _ hc), hq]

theorem talk_undo (channel : Nat) (b : Backend σ) :
    ∃ talk, Talk channel talk b (b.undo channel) ∧ closings talk = [] :=
  keeps_undo (fun b' => ∃ talk, Talk channel talk b b' ∧ closings talk = []) channel
    (fun _ c hc h => Talk.more c hc h) b ⟨[], .refl channel b, rfl⟩

theorem talk_close (channel : Nat) (b : Backend σ) :
    ∃ talk, Talk channel talk b (b.close channel) ∧
      ∃ event ∈ talk, event.ending? = some channel := by
  obtain ⟨talk, ht, -⟩ := talk_undo channel b
  unfold close
  split
  · rename_i h
    exact ⟨_, ht.trans (talk_of_call _ _ _ _ _ h), _, List.mem_cons_self, rfl⟩
  · rename_i b₁ _ h
    have hc := talk_call channel .close b₁
    exact ⟨_, (ht.trans (talk_of_call _ _ _ _ _ h)).trans hc, _, List.mem_cons_self, rfl⟩

theorem talk_ping (channel : Nat) (query : String) (b : Backend σ) :
    ∃ talk, Talk channel talk b (b.ping channel query).2 ∧ closings talk = [] :=
  keeps_ping (fun b' => ∃ talk, Talk channel talk b b' ∧ closings talk = []) channel
    (fun _ c hc h => Talk.more c hc h) query b ⟨[], .refl channel b, rfl⟩

theorem talk_probe (channel : Nat) (query : Option String) (b : Backend σ) :
    ∃ talk, Talk channel talk b (b.probe channel query).2 ∧
      ((b.probe channel query).1 = true → closings talk = []) := by
  unfold probe
  split
  · rename_i b₁ h₁
    have t₁ := talk_of_call _ _ _ _ _ h₁
    split
    · exact ⟨_, t₁, fun _ => rfl⟩
    · rename_i query
      obtain ⟨talk, ht, hq⟩ := talk_ping channel query b₁
      split
      · rename_i b₂ h₂
        rw [h₂] at ht
        refine ⟨_, t₁.trans ht, fun _ => ?_⟩
        rw [closings_append, hq]
        rfl
      · rename_i b₂ h₂
        rw [h₂] at ht
        exact ⟨_, (t₁.trans ht).trans (talk_call channel .close b₂), by simp⟩
  · rename_i h
    exact ⟨_, talk_of_call _ _ _ _ _ h, by simp⟩

end Backend

namespace Pool

variable {σ : Type}

theorem backend_retire (id : Nat) (how : Status) (p : Pool σ) :
    (p.retire id how).backend = p.backend := by
  unfold retire
  split <;> rfl

variable [Driver σ]

theorem backend_openLink_found (now : Nat) (p q : Pool σ) (e : Entry)
    (h : p.openLink now = (.found e, q)) :
    p.backend.connect p.config.login = (.ok e.channel, q.backend) := by
  unfold openLink at h
  split at h
  · simp at h
  · rename_i channel backend hc
    obtain ⟨he, rfl⟩ := Prod.mk.inj h
    rw [← Candidate.found.inj he]
    exact hc

theorem backend_openLink_refused (now : Nat) (p q : Pool σ) (error : DriverError)
    (h : p.openLink now = (.refused error, q)) :
    p.backend.connect p.config.login = (.error error, q.backend) := by
  unfold openLink at h
  split at h
  · rename_i hc
    obtain ⟨he, rfl⟩ := Prod.mk.inj h
    rw [← Candidate.refused.inj he]
    exact hc
  · simp at h

theorem backend_discard (e : Entry) (p : Pool σ) :
    (p.discard e).backend = p.backend.close e.channel := by
  rw [discard, close, backend_retire]

theorem backend_takeOver (now caller : Nat) (oldest : Entry) (rest : List Entry) (p : Pool σ) :
    (p.takeOver now caller oldest rest).backend =
      (p.backend.note (.claimed caller oldest (oldest.heldFor now))).undo oldest.channel := by
  unfold takeOver undo
  dsimp only
  rw [backend_retire]
  rfl

theorem backend_examine (now caller : Nat) (e : Entry) (sound : Bool) (p q : Pool σ)
    (h : p.examine now caller e = (sound, q)) :
    ∃ query probed, p.backend.probe e.channel query = (sound, probed) ∧
      q.backend = probed.note (.examined caller e sound (p.idle.length + p.active.length)
        p.config.maxActive.toNat) := by
  unfold examine at h
  obtain ⟨rfl, rfl⟩ := Prod.mk.inj h
  exact ⟨_, _, rfl, rfl⟩

theorem backend_grant (now : Nat) (r : Request) (e : Entry) (p : Pool σ) :
    (p.grant now r e).2.backend =
      (p.backend.undo e.channel).note (.granted r.caller (p.grant now r e).1) := rfl

def returnEvent (e : Entry) (p : Pool σ) : Event :=
  .returned e (p.active.any fun a => a.id == e.id) (p.status e.id)

theorem backend_shelve (e : Entry) (p : Pool σ) :
    (p.shelve e).backend =
      (p.backend.undo e.channel).note (.shelved (e.successor p.nextEntry)) := by
  have hn : ((p.undo e).retire e.id .superseded).nextEntry = p.nextEntry := by
    unfold retire
    split <;> rfl
  have hb : ((p.undo e).retire e.id .superseded).backend = p.backend.undo e.channel :=
    backend_retire e.id .superseded (p.undo e)
  unfold shelve note
  dsimp only
  rw [hn, hb]

theorem backend_takeBack (now : Nat) (e : Entry) (p : Pool σ) :
    (p.takeBack now e).2.backend =
      match p.status e.id with
      | .superseded => p.backend.note (p.returnEvent e)
      | .invalidated => (p.backend.note (p.returnEvent e)).close e.channel
      | .valid =>
        if p.keeps e then
          ((p.backend.note (p.returnEvent e)).undo e.channel).note
            (.shelved (e.successor p.nextEntry))
        else (p.backend.note (p.returnEvent e)).close e.channel := by
  rw [takeBack_eq]
  cases p.status e.id with
  | superseded => rfl
  | invalidated => rfl
  | valid =>
    dsimp only
    split
    · exact backend_shelve e _
    · rw [backend_discard]
      rfl

end Pool

end ConnectionPool
