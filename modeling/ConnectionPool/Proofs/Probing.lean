import ConnectionPool.Proofs.Openings
import ConnectionPool.Proofs.Search

/-!
# Tests in a search

A connection is tested when it is asked whether it is closed or has to execute a statement. A search
tests its candidates and the leases that it drops. Whatever it has tested before its last candidate
it has given up, and the number of a connection is not used again. So the connection that it lends
has been tested once, has answered that it is open and, if a ping was due, has passed the ping.
-/

set_option autoImplicit false

namespace ConnectionPool

/-- The connection that was tested. -/
def Event.tested? : Event → Option Nat
  | call channel .isClosed _ => some channel
  | call channel (.execute _) _ => some channel
  | _ => none

theorem Event.called_of_tested (event : Event) (channel : Nat)
    (h : event.tested? = some channel) : event.called? = some channel := by
  cases event with
  | call i c reply => cases c <;> simp_all [tested?, called?]
  | _ => simp [tested?] at h

/-- A ping that was passed, the latest call first. -/
inductive Pinged (channel : Nat) (query : String) : List Event → Prop
  | committing (rows : Nat) :
      Pinged channel query
        [.call channel .autoCommit (.ok true), .call channel (.execute query) (.ok rows)]
  | undone (rows : Nat) :
      Pinged channel query
        [.call channel .rollback (.ok ()), .call channel .autoCommit (.ok false),
          .call channel (.execute query) (.ok rows)]

namespace Backend

variable {σ : Type} {P Q : Event → Prop} {b b' b'' : Backend σ}

/-- From one backend to the other the journal grew by such events only. -/
def Adds (P : Event → Prop) (b b' : Backend σ) : Prop :=
  ∃ newer, b'.journal = newer ++ b.journal ∧ ∀ event ∈ newer, P event

namespace Adds

theorem refl (P : Event → Prop) (b : Backend σ) : Adds P b b :=
  ⟨[], rfl, fun _ h => absurd h List.not_mem_nil⟩

theorem trans (h : Adds P b b') (h' : Adds P b' b'') : Adds P b b'' := by
  obtain ⟨newer, hj, hp⟩ := h
  obtain ⟨newer', hj', hp'⟩ := h'
  refine ⟨newer' ++ newer, by rw [hj', hj, List.append_assoc], fun event he => ?_⟩
  exact (List.mem_append.mp he).elim (hp' event) (hp event)

theorem mono (h : Adds P b b') (hq : ∀ event, P event → Q event) : Adds Q b b' := by
  obtain ⟨newer, hj, hp⟩ := h
  exact ⟨newer, hj, fun event he => hq event (hp event he)⟩

theorem single {event : Event} (hj : b'.journal = event :: b.journal) (hp : P event) :
    Adds P b b' :=
  ⟨[event], hj, fun _ he => List.mem_singleton.mp he ▸ hp⟩

theorem of_talk {channel : Nat} {talk : List Event} (t : Talk channel talk b b')
    (hp : ∀ event, event.called? = some channel → P event) : Adds P b b' :=
  ⟨talk, t.journal, fun event he => hp event (t.called event he)⟩

end Adds

variable [Driver σ]

theorem adds_undo (channel : Nat) (b : Backend σ) :
    Adds (fun event => event.tested? = none) b (b.undo channel) := by
  unfold undo
  split
  · rename_i b₁ h
    have h₁ : Adds (fun event => event.tested? = none) b b₁ :=
      .single (talk_of_call _ _ _ _ _ h).journal rfl
    exact h₁.trans (.single (talk_call channel .rollback b₁).journal rfl)
  · rename_i h
    exact .single (talk_of_call _ _ _ _ _ h).journal rfl

theorem ping_passed (channel : Nat) (query : String) (b b' : Backend σ)
    (h : b.ping channel query = (true, b')) :
    ∃ pinged, Pinged channel query pinged ∧ b'.journal = pinged ++ b.journal := by
  unfold ping at h
  split at h
  · exact absurd h (by simp)
  · rename_i rows b₁ h₁
    have hj₁ := (talk_of_call _ _ _ _ _ h₁).journal
    split at h
    · exact absurd h (by simp)
    · rename_i b₂ h₂
      obtain ⟨-, rfl⟩ := Prod.mk.inj h
      refine ⟨_, .committing rows, ?_⟩
      rw [(talk_of_call _ _ _ _ _ h₂).journal, hj₁]
      rfl
    · rename_i b₂ h₂
      split at h
      · exact absurd h (by simp)
      · rename_i b₃ h₃
        obtain ⟨-, rfl⟩ := Prod.mk.inj h
        refine ⟨_, .undone rows, ?_⟩
        rw [(talk_of_call _ _ _ _ _ h₃).journal, (talk_of_call _ _ _ _ _ h₂).journal, hj₁]
        rfl

theorem probe_passed (channel : Nat) (query? : Option String) (b b' : Backend σ)
    (h : b.probe channel query? = (true, b')) :
    ∃ pinged, (∀ query ∈ query?, Pinged channel query pinged) ∧ (query? = none → pinged = []) ∧
      b'.journal = pinged ++ .call channel .isClosed (.ok false) :: b.journal := by
  unfold probe at h
  split at h
  · rename_i b₁ h₁
    have hj₁ := (talk_of_call _ _ _ _ _ h₁).journal
    split at h
    · obtain ⟨-, rfl⟩ := Prod.mk.inj h
      exact ⟨[], fun _ hq => absurd hq (by simp), fun _ => rfl, hj₁⟩
    · rename_i query
      split at h
      · rename_i b₂ h₂
        obtain ⟨-, rfl⟩ := Prod.mk.inj h
        obtain ⟨pinged, hp, hj⟩ := ping_passed channel query b₁ b₂ h₂
        refine ⟨pinged, fun _ hq => Option.some.inj hq ▸ hp, fun hn => absurd hn (by simp), ?_⟩
        rw [hj, hj₁]
        rfl
      · exact absurd h (by simp)
  · exact absurd h (by simp)

end Backend

namespace Pool

variable {σ : Type}

def Gone (m : Option Entry × Pool σ) (channel : Nat) : Prop :=
  channel < m.2.backend.opened ∧ ∀ e ∈ m.2.books.held m.1, e.channel ≠ channel

theorem gone_of_distinct {m : Option Entry × Pool σ} {e : Entry} (ids : Nat)
    (hd : Distinct (e :: m.2.books.held m.1) ids m.2.backend.opened) : Gone m e.channel := by
  refine ⟨hd.channel_lt e List.mem_cons_self, fun a ha hc => ?_⟩
  exact (List.nodup_cons.mp hd.channels_nodup).1 (hc ▸ List.mem_map_of_mem ha)

def TestsGone (m : Option Entry × Pool σ) (event : Event) : Prop :=
  ∀ channel, event.tested? = some channel → Gone m channel

theorem testsGone_of_none {m : Option Entry × Pool σ} (event : Event)
    (h : event.tested? = none) : TestsGone m event :=
  fun _ hc => absurd (h.symm.trans hc) (by simp)

theorem testsGone_of_called {m : Option Entry × Pool σ} {channel : Nat} (hg : Gone m channel)
    (event : Event) (h : event.called? = some channel) : TestsGone m event := by
  intro tested hc
  obtain rfl := Option.some.inj (h.symm.trans (event.called_of_tested tested hc))
  exact hg

variable [Driver σ] {p q : Pool σ} {handles : List Handle} {now caller : Nat}

theorem gone_turn {m m' : Option Entry × Pool σ} (h : Turn now caller m m')
    (l : Ledger m.1 m.2.books handles) {channel : Nat} (hg : Gone m channel) :
    Gone m' channel := by
  constructor
  · exact Backend.exchanges_keep _ (Backend.opened_grows (channel + 1))
      (turn_exchanges h l.distinct.channel_lt) hg.1
  · intro e he hc
    rcases h.origin e he with hm | ⟨hn, -⟩
    · obtain ⟨a, ha, hac⟩ := List.mem_map.mp hm
      exact hg.2 a ha (hac.trans hc)
    · exact Nat.lt_irrefl _ (hn ▸ hc ▸ hg.1)

theorem gone_drop (now caller : Nat) {oldest : Entry} {rest : List Entry}
    (l : Ledger none p.books handles) (hi : p.idle = []) (ha : p.active = oldest :: rest) :
    Gone (none, (p.unlend now caller oldest rest).close oldest) oldest.channel := by
  have hb : ((p.unlend now caller oldest rest).close oldest).books =
      (p.unlend now caller oldest rest).books := books_close oldest _
  have hd := l.distinct
  change Distinct (p.idle ++ p.active) p.nextEntry p.backend.opened at hd
  have hl : (none : Option Entry).toList ++ (p.idle ++ rest) =
      ((p.unlend now caller oldest rest).close oldest).books.held none := by
    rw [hb]
    rfl
  have ho : ((p.unlend now caller oldest rest).close oldest).backend.opened =
      p.backend.opened := congrArg (fun b : Books => b.record.opened) hb
  refine gone_of_distinct p.nextEntry ?_
  rw [ho, ← hl, hi]
  rwa [hi, ha] at hd

theorem gone_reject {e : Entry} (l : Ledger (some e) p.books handles)
    (h : p.examine now caller e = (false, q)) : Gone (none, q.reject e) e.channel := by
  have hl : p.books.held none = (q.reject e).books.held none := by
    rw [books_reject, examine_books now caller e false p q h]
    rfl
  have ho : (q.reject e).backend.opened = p.backend.opened :=
    (opened_reject e q).trans (opened_examine h)
  refine gone_of_distinct p.nextEntry ?_
  rw [ho, ← hl]
  exact l.distinct

theorem Turn.tests {m m' : Option Entry × Pool σ} (h : Turn now caller m m')
    (l : Ledger m.1 m.2.books handles) : m.2.backend.Adds (TestsGone m') m'.2.backend := by
  cases h with
  | pick p e rest hi => exact .refl _ _
  | connect p q e hi hr h =>
    have hj := (Backend.connect_ok _ _ _ _ (backend_openLink_found now p q e h)).1
    exact .single hj (testsGone_of_none _ rfl)
  | refuse p q error hi hr h =>
    have hj := (Backend.connect_error _ _ _ _ (backend_openLink_refused now p q error h)).1
    exact .single hj (testsGone_of_none _ rfl)
  | claim p oldest rest hi hr ha ho hv =>
    have hu := Backend.adds_undo oldest.channel
      (p.backend.note (.claimed caller oldest (oldest.heldFor now)))
    dsimp only
    rw [backend_takeOver]
    exact .trans (.single rfl (testsGone_of_none _ rfl)) (hu.mono testsGone_of_none)
  | drop p oldest rest hi hr ha ho hv =>
    obtain ⟨talk, t, -⟩ :=
      Backend.talk_close oldest.channel (p.unlend now caller oldest rest).backend
    have hg := testsGone_of_called (gone_drop now caller l hi ha)
    exact .trans (.single rfl (testsGone_of_none _ rfl)) (.of_talk t hg)
  | reject p q e h =>
    have hg := testsGone_of_called (gone_reject l h)
    obtain ⟨query, probed, hp, hnote⟩ := backend_examine now caller e false p q h
    obtain ⟨talk, t, -⟩ := Backend.talk_probe e.channel query p.backend
    obtain ⟨talk', t', -⟩ := Backend.talk_close e.channel q.backend
    rw [hp] at t
    have hx : p.backend.Adds (TestsGone (none, q.reject e)) probed := .of_talk t hg
    have hx' : probed.Adds (TestsGone (none, q.reject e)) q.backend := by
      rw [hnote]
      exact .single rfl (testsGone_of_none _ rfl)
    have hr : (q.reject e).backend = q.backend.close e.channel := backend_discard e _
    dsimp only
    rw [hr]
    exact (hx.trans hx').trans (.of_talk t' hg)

theorem turns_tests {m m' : Option Entry × Pool σ} (h : Turns now caller m m')
    (l : Ledger m.1 m.2.books handles) :
    Ledger m'.1 m'.2.books handles ∧ m.2.backend.Adds (TestsGone m') m'.2.backend := by
  induction h with
  | refl => exact ⟨l, .refl _ _⟩
  | tail _ ht ih =>
    obtain ⟨l', ha⟩ := ih
    refine ⟨(turn_books ht).ledger l', (ha.mono fun event he channel hc => ?_).trans (ht.tests l')⟩
    exact gone_turn ht l' (he channel hc)

theorem examine_passed {e : Entry} (h : p.examine now caller e = (true, q)) :
    ∃ pinged,
      (if p.config.pingEnabled = true ∧ p.config.pingUnusedFor ≤ e.unusedFor now then
        Pinged e.channel p.config.pingQuery pinged else pinged = []) ∧
      q.backend.journal =
        .examined caller e true (p.idle.length + p.active.length) p.config.maxActive.toNat ::
          (pinged ++ .call e.channel .isClosed (.ok false) :: p.backend.journal) := by
  unfold examine at h
  obtain ⟨hs, rfl⟩ := Prod.mk.inj h
  obtain ⟨pinged, hp, hnone, hj⟩ := Backend.probe_passed _ _ _ _ (Prod.ext hs rfl)
  refine ⟨pinged, ?_, ?_⟩
  · split
    · rename_i hdue
      exact hp p.config.pingQuery (if_pos hdue)
    · rename_i hdue
      exact hnone (if_neg hdue)
  · show _ :: (p.backend.probe _ _).2.journal = _
    rw [hj, hs]

/-- The search lends its last candidate. The connection was tested once, when the candidate was
examined: it answered that it is open and, if a ping was due, it passed the ping. -/
def Passed (now : Nat) (r : Request) (lent : Entry) (p q : Pool σ) : Prop :=
  ∃ e before pinged after others limit,
    e.channel = lent.channel ∧
      q.backend.journal = after ++ .examined r.caller e true others limit ::
        (pinged ++ .call lent.channel .isClosed (.ok false) :: (before ++ p.backend.journal)) ∧
      (if p.config.pingEnabled = true ∧ p.config.pingUnusedFor ≤ e.unusedFor now then
        Pinged lent.channel p.config.pingQuery pinged else pinged = []) ∧
      ∀ event ∈ after ++ before, event.tested? ≠ some lent.channel

theorem seek_passed (now : Nat) (r : Request) (p q : Pool σ) (lent : Entry)
    (l : Ledger none p.books handles) (h : p.seek now r = (.granted lent, q)) :
    Passed now r lent p q := by
  have he := seek_ends now r p
  rw [h] at he
  obtain ⟨e, p₁, p₂, ht, hx, hg⟩ := he
  have hlent : lent = (p₂.grant now r e).1 := congrArg Prod.fst hg
  have hgrant : q = (p₂.grant now r e).2 := congrArg Prod.snd hg
  have hc : e.channel = lent.channel := hlent ▸ rfl
  have hq : q.backend.journal = .granted r.caller lent :: (p₂.backend.undo e.channel).journal := by
    rw [hlent, hgrant]
    rfl
  obtain ⟨-, before, hbefore, htested⟩ := turns_tests ht l
  obtain ⟨pinged, hp, hj⟩ := examine_passed hx
  obtain ⟨undone, hundone, hquiet⟩ := Backend.adds_undo e.channel p₂.backend
  rw [(sets_turns ht).1] at hp
  refine ⟨e, before, pinged, .granted r.caller lent :: undone, p₁.idle.length + p₁.active.length,
    p₁.config.maxActive.toNat, hc, ?_, hc ▸ hp, fun event hm he => ?_⟩
  · rw [hq, hundone, hj, hbefore, hc]
    rfl
  · rcases List.mem_append.mp hm with hm | hm
    · rcases List.mem_cons.mp hm with rfl | hm
      · exact absurd he (by simp [Event.tested?])
      · exact absurd ((hquiet event hm).symm.trans he) (by simp)
    · -- the candidate is held when it is examined, and what was tested before is not
      exact (htested event hm lent.channel he).2 e List.mem_cons_self hc

end Pool

end ConnectionPool
