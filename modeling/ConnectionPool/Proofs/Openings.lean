import ConnectionPool.Proofs.Dealings
import Mathlib.Data.List.Pairwise

/-!
# Openings

Where connections come from. The journal shows that they are opened one after the other, each once
and under one login, and named in this order. A pool comes to hold a connection in one way only, by
opening it under the configured login; all its other moves pass on what it holds, from one entry to
the next.
-/

set_option autoImplicit false

namespace ConnectionPool

namespace Event

def opening? : Event → Option Nat
  | connect _ (.ok channel) => some channel
  | _ => none

theorem opening_of_called (event : Event) (channel : Nat) (h : event.called? = some channel) :
    event.opening? = none := by
  cases event <;> simp_all [called?, opening?]

theorem opening_of_decision (event : Event) (h : event.isTraffic = false) :
    event.opening? = none := by
  cases event <;> simp_all [isTraffic, opening?]

end Event

def openings (journal : List Event) : List Nat := journal.filterMap Event.opening?

theorem openings_append (newer older : List Event) (h : ∀ event ∈ newer, event.opening? = none) :
    openings (newer ++ older) = openings older := by
  unfold openings
  rw [List.filterMap_append, List.filterMap_eq_nil_iff.mpr h, List.nil_append]

namespace Backend

variable {σ : Type} {b b' : Backend σ}

/-- Each connection was opened once, and they are named in this order. -/
def InSequence (b : Backend σ) : Prop := openings b.journal = (List.range b.opened).reverse

namespace InSequence

theorem mem_iff (h : b.InSequence) (channel : Nat) :
    channel ∈ openings b.journal ↔ channel < b.opened := by
  rw [h, List.mem_reverse, List.mem_range]

theorem extend (h : b.InSequence) (newer : List Event) (hj : b'.journal = newer ++ b.journal)
    (ho : b'.opened = b.opened) (hn : ∀ event ∈ newer, event.opening? = none) :
    b'.InSequence := by
  unfold InSequence
  rw [hj, ho, openings_append newer b.journal hn]
  exact h

theorem talk (h : b.InSequence) {channel : Nat} {talk : List Event} (t : Talk channel talk b b') :
    b'.InSequence :=
  h.extend talk t.journal t.opened fun event he =>
    Event.opening_of_called event channel (t.called event he)

end InSequence

variable [Driver σ]

theorem Exchange.inSequence (h : Exchange b b') (hs : b.InSequence) : b'.InSequence := by
  cases h with
  | note event hd => exact hs.extend [event] rfl rfl (by simp [Event.opening_of_decision event hd])
  | connect login =>
    cases hc : b.connect login with
    | mk result b' =>
      cases result with
      | ok channel =>
        obtain ⟨hj, ho⟩ := connect_ok login b b' channel hc
        have hk := (record_connect_ok login b b' channel hc).1
        show openings b'.journal = (List.range b'.opened).reverse
        rw [hj, ho, List.range_succ, List.reverse_append, ← hs, hk]
        rfl
      | error error =>
        obtain ⟨hj, ho⟩ := connect_error login b b' error hc
        exact hs.extend [_] hj ho (by simp [Event.opening?])
  | call channel c hl hc => exact hs.talk (talk_call channel c b)
  | close channel hl =>
    obtain ⟨talk, t, -⟩ := talk_close channel b
    exact hs.talk t
  | probe channel query hl =>
    obtain ⟨talk, t, -⟩ := talk_probe channel query b
    exact hs.talk t

theorem opened_grows (n : Nat) (b b' : Backend σ) (h : Exchange b b') (hn : n ≤ b.opened) :
    n ≤ b'.opened := by
  cases h with
  | note event hd | call channel c hl hc => exact hn
  | connect login =>
    unfold Backend.connect
    split
    · exact Nat.le_succ_of_le hn
    · exact hn
  | close channel hl =>
    obtain ⟨talk, t, -⟩ := talk_close channel b
    exact t.opened ▸ hn
  | probe channel query hl =>
    obtain ⟨talk, t, -⟩ := talk_probe channel query b
    exact t.opened ▸ hn

end Backend

namespace Pool

variable {σ : Type} [Driver σ] {p q : Pool σ} {handles : List Handle}

/-- From `p` to `q` the connection was held already, or it was opened under the configured login. -/
def Origin (hand : Option Entry) (p q : Pool σ) (channel : Nat) : Prop :=
  channel ∈ (p.books.held hand).map Entry.channel ∨
    channel = p.backend.opened ∧ .connect p.config.login (.ok channel) ∈ q.backend.journal

theorem Turn.origin {now caller : Nat} {m m' : Option Entry × Pool σ} (h : Turn now caller m m') :
    ∀ e ∈ m'.2.books.held m'.1, Origin m.1 m.2 m'.2 e.channel := by
  cases h with
  | pick p e rest hi =>
    refine fun a ha => Or.inl (List.mem_map_of_mem ?_)
    simpa [Books.held, books, hi] using ha
  | connect p q e hi hr h =>
    obtain ⟨he, hq⟩ := openLink_found now p q e h
    obtain ⟨hj, -⟩ := Backend.connect_ok _ _ _ _ (backend_openLink_found now p q e h)
    rw [hq]
    intro a ha
    rcases List.mem_cons.mp ha with rfl | ha
    · exact Or.inr ⟨by rw [he]; rfl, by rw [hj]; exact List.mem_cons_self⟩
    · exact Or.inl (List.mem_map_of_mem ha)
  | refuse p q error hi hr h =>
    rw [openLink_refused now p q error h]
    exact fun a ha => Or.inl (List.mem_map_of_mem ha)
  | claim p oldest rest hi hr ha ho hv =>
    have hm : oldest ∈ p.books.held none := by
      show oldest ∈ p.idle ++ p.active
      rw [ha]
      exact List.mem_append_right p.idle List.mem_cons_self
    rw [books_takeOver]
    intro a hm'
    rcases List.mem_cons.mp hm' with rfl | hm'
    · exact Or.inl (List.mem_map.mpr ⟨oldest, hm, rfl⟩)
    · exact Or.inl (List.mem_map_of_mem (Books.mem_held_of_rest ha hm'))
  | drop p oldest rest hi hr ha ho hv =>
    rw [books_close, books_unlend]
    exact fun a hm => Or.inl (List.mem_map_of_mem (Books.mem_held_of_rest ha hm))
  | reject p q e h =>
    rw [books_reject, examine_books now caller e false p q h]
    exact fun a hm => Or.inl (List.mem_map_of_mem (List.mem_cons_of_mem e hm))

theorem origin_grant {now : Nat} {r : Request} {e : Entry} {sound : Bool}
    (h : p.examine now r.caller e = (sound, q)) :
    ∀ a ∈ (q.grant now r e).2.books.held none,
      a.channel ∈ (p.books.held (some e)).map Entry.channel := by
  obtain ⟨-, -, hi, ha⟩ := grant_frame h
  intro a hm
  change a ∈ (q.grant now r e).2.idle ++ (q.grant now r e).2.active at hm
  rw [hi, ha, List.mem_append, List.mem_append, List.mem_singleton] at hm
  rcases hm with hm | hm | rfl
  · exact List.mem_map_of_mem (List.mem_cons_of_mem e (List.mem_append_left p.active hm))
  · exact List.mem_map_of_mem (List.mem_cons_of_mem e (List.mem_append_right p.idle hm))
  · exact List.mem_cons_self

theorem origin_takeBack (now : Nat) {handle : Handle} (l : Ledger none p.books handles)
    (hm : handle ∈ handles) :
    ∀ a ∈ (p.takeBack now handle.entry).2.books.held none,
      a.channel ∈ (p.books.held none).map Entry.channel := by
  have hout : ∀ a ∈ (p.books.takeOut handle.entry).held none,
      a.channel ∈ (p.books.held none).map Entry.channel :=
    fun a ha => List.mem_map_of_mem (held_takeOut handle.entry p.books ha)
  refine p.takeBack_cases now handle.entry (motive := fun _ b => ∀ a ∈ b.held none,
    a.channel ∈ (p.books.held none).map Entry.channel) ?retired ?kept ?closed
  case retired => exact fun _ => hout
  case kept =>
    intro hv hk a ha
    simp only [Books.held, Option.toList_none, List.nil_append, List.mem_append,
      List.mem_singleton] at ha
    rcases ha with (hi | rfl) | ha
    · exact List.mem_map_of_mem (List.mem_append_left p.active hi)
    · have hlease : handle.entry ∈ p.books.held none :=
        List.mem_append_right p.idle (l.running handle hm hv)
      exact List.mem_map.mpr ⟨handle.entry, hlease, rfl⟩
    · exact List.mem_map_of_mem (List.mem_append_right p.idle (List.eraseP_subset ha))
  case closed => exact fun _ _ => hout

end Pool

namespace Service

variable {σ : Type}

theorem inSequence_start (driver : σ) (config : Config) (pool : Pool σ)
    (h : Pool.create driver config = .ok pool) : (start pool).pool.backend.InSequence := by
  rw [Pool.of_create driver config pool h]
  rfl

variable [Driver σ]

theorem inSequence_run (ops : List (Op σ)) (s : Service σ) (v : s.HasProvenance none)
    (hs : s.pool.backend.InSequence) : (run ops s).pool.backend.InSequence :=
  backend_run Backend.InSequence (fun _ _ h hs => h.inSequence hs) ops (fun _ _ _ hs => hs) s v hs

theorem origin_move (m m' : Option Entry × Service σ) (h : Move m m') (l : HasLedger m.1 m.2) :
    ∀ e ∈ m'.2.pool.books.held m'.1, Pool.Origin m.1 m.2.pool m'.2.pool e.channel := by
  have hsame {hand : Option Entry} {s s' : Service σ}
      (hb : s'.pool.books.held hand = s.pool.books.held hand) :
      ∀ e ∈ s'.pool.books.held hand, Pool.Origin hand s.pool s'.pool e.channel := by
    intro e he
    rw [hb] at he
    exact Or.inl (List.mem_map_of_mem he)
  cases h with
  | mark s | come s | pass s | leave s | awake s x | sleep s r hs hc | fail s r error =>
    exact hsame rfl
  | countWait s r =>
    refine hsame ?_
    unfold countWait
    split <;> rfl
  | turn s caller hand hand' q h => exact h.origin
  | grant s r e q h => exact fun a ha => Or.inl (Pool.origin_grant h a ha)
  | takeBack s i handle hh hr =>
    exact fun a ha => Or.inl (Pool.origin_takeBack s.now l (List.mem_of_getElem? hh) a ha)

theorem idle_move (m m' : Option Entry × Service σ) (h : Move m m') :
    ∀ e ∈ m'.2.pool.idle, e ∈ m.2.pool.idle ∨
      e.typeCode = m.2.pool.expectedTypeCode ∧ .shelved e ∈ m'.2.pool.backend.journal := by
  cases h with
  | mark s | come s | pass s | leave s | awake s x | sleep s r hs hc | fail s r error =>
    exact fun e he => Or.inl he
  | countWait s r =>
    unfold countWait
    split <;> exact fun e he => Or.inl he
  | turn s caller hand hand' q h => exact fun e he => Or.inl ((Pool.turn_books h).sets.1 he)
  | grant s r e q h =>
    obtain ⟨-, -, hi, -⟩ := Pool.grant_frame h
    exact fun a ha => Or.inl (hi ▸ ha)
  | takeBack s i handle hh hr =>
    have hb : ∀ e ∈ (s.pool.takeBack s.now handle.entry).2.books.idle, e ∈ s.pool.idle ∨
        e.typeCode = s.pool.expectedTypeCode ∧
          .shelved e ∈ (s.pool.takeBack s.now handle.entry).2.books.record.decisions := by
      refine s.pool.takeBack_cases s.now handle.entry (motive := fun _ b => ∀ e ∈ b.idle,
        e ∈ s.pool.idle ∨ e.typeCode = s.pool.expectedTypeCode ∧ .shelved e ∈ b.record.decisions)
        ?retired ?kept ?closed
      case retired => exact fun _ e he => Or.inl he
      case kept =>
        intro hv hk e he
        rcases List.mem_append.mp he with he | he
        · exact Or.inl he
        · rw [List.mem_singleton.mp he]
          exact Or.inr ⟨hk.2, List.mem_cons_self⟩
      case closed => exact fun _ _ e he => Or.inl he
    exact fun e he => (hb e he).imp_right (And.imp_right List.mem_of_mem_filter)

end Service

end ConnectionPool
