import ConnectionPool.Proofs.Capacity
import Mathlib.Data.List.Infix

/-!
# Where a search ends

A search takes the first idle connection first, so it leaves at most the others idle. Where no
connection is idle and there is room for another one, it does not come to a standstill: it is
granted a connection that is opened only now, or fails. Where one is idle and there is room besides,
it is granted that one if it is sound, and ends as before if it is not.
-/

set_option autoImplicit false

namespace ConnectionPool

/-- The search was granted a connection opened after so many others, or it failed. -/
def Outcome.Fresh (opened : Nat) : Outcome → Prop
  | granted lent => opened ≤ lent.channel
  | failed error => error ≠ .interrupted
  | saturated _ => False

theorem Outcome.Fresh.mono {outcome : Outcome} {opened opened' : Nat}
    (h : outcome.Fresh opened') (hl : opened ≤ opened') : outcome.Fresh opened := by
  cases outcome with
  | granted lent => exact Nat.le_trans hl h
  | failed error => exact h
  | saturated r => exact h

namespace Books

theorem Turn.idle {now caller : Nat} {m m' : Option Entry × Books} (h : Turn now caller m m') :
    m'.2.idle <:+ m.2.idle := by
  cases h with
  | pick b e rest hi =>
    show rest <:+ b.idle
    rw [hi]
    exact List.suffix_cons _ _
  | connect b hi hr | refuse b | claim b oldest rest hi hf ha hv => exact List.suffix_rfl
  | drop b oldest rest hi hf ha hv | reject b e => exact List.suffix_rfl

theorem Turn.examinations {now caller : Nat} {m m' : Option Entry × Books}
    (h : Turn now caller m m') : m.2.examinations <:+ m'.2.examinations := by
  cases h with
  | pick b e rest hi | connect b hi hr | refuse b => exact List.suffix_rfl
  | claim b oldest rest hi hf ha hv | drop b oldest rest hi hf ha hv => exact List.suffix_rfl
  | reject b e => exact List.suffix_cons _ _

end Books

namespace Pool

variable {σ : Type}

theorem hasRoom_congr {p q : Pool σ} (ha : q.active = p.active) (hc : q.config = p.config) :
    q.hasRoom = p.hasRoom := by
  rw [hasRoom, hasRoom, ha, hc]

variable [Driver σ]

theorem idle_examine {now caller : Nat} {e : Entry} {sound : Bool} {p q : Pool σ}
    (h : p.examine now caller e = (sound, q)) : q.idle = p.idle :=
  congrArg Books.idle (examine_books now caller e sound p q h)

theorem idle_reject (e : Entry) (p : Pool σ) : (p.reject e).idle = p.idle :=
  congrArg Books.idle (books_reject e p)

theorem idle_grant (now : Nat) (r : Request) (e : Entry) (p : Pool σ) :
    (p.grant now r e).2.idle = p.idle :=
  congrArg Books.idle (books_grant now r e p)

theorem idle_turns {now caller : Nat} {m m' : Option Entry × Pool σ} (h : Turns now caller m m') :
    m'.2.books.idle <:+ m.2.books.idle := by
  induction h with
  | refl => exact List.suffix_rfl
  | tail _ ht ih => exact (turn_books ht).idle.trans ih

theorem idle_nextCandidate (now caller : Nat) (p q : Pool σ) (c : Candidate)
    (h : p.nextCandidate now caller = (c, q)) : q.idle = p.idle.tail := by
  cases hi : p.idle with
  | cons e rest =>
    simp only [nextCandidate, hi] at h
    obtain ⟨-, rfl⟩ := Prod.mk.inj h
    rfl
  | nil =>
    have hs : q.idle <:+ p.idle := idle_turns (nextCandidate_turns now caller p q c h).1
    rw [hi] at hs
    exact List.suffix_nil.mp hs

theorem idle_seekWithin (now left : Nat) (r : Request) (p : Pool σ) :
    (p.seekWithin now left r).2.idle <:+ p.idle.tail := by
  fun_induction seekWithin now left r p with
  | case1 left r p error q hc => exact idle_nextCandidate now r.caller p q _ hc ▸ List.suffix_rfl
  | case2 left r p q hc hn => exact idle_nextCandidate now r.caller p q _ hc ▸ List.suffix_rfl
  | case3 left r p q hc hn => exact idle_nextCandidate now r.caller p q _ hc ▸ List.suffix_rfl
  | case4 left r p e p₁ hc p₂ hx lent q hg =>
    have hq : (p₂.grant now r e).2 = q := congrArg Prod.snd hg
    rw [← hq, idle_grant, idle_examine hx, idle_nextCandidate now r.caller p p₁ _ hc]
  | case5 r p e p₁ hc p₂ hx =>
    rw [idle_reject, idle_examine hx, idle_nextCandidate now r.caller p p₁ _ hc]
  | case6 r p e p₁ hc p₂ hx _ left ih =>
    have hi : (p₂.reject e).idle = p.idle.tail := by
      rw [idle_reject, idle_examine hx, idle_nextCandidate now r.caller p p₁ _ hc]
    rw [hi] at ih
    exact ih.trans (List.tail_suffix _)

theorem hasRoom_examine {now caller : Nat} {e : Entry} {sound : Bool} {p q : Pool σ}
    (h : p.examine now caller e = (sound, q)) : q.hasRoom = p.hasRoom :=
  hasRoom_congr (congrArg Books.active (examine_books now caller e sound p q h))
    (congrArg Books.config (examine_books now caller e sound p q h))

theorem hasRoom_reject (e : Entry) (p : Pool σ) : (p.reject e).hasRoom = p.hasRoom :=
  hasRoom_congr (congrArg Books.active (books_reject e p))
    (congrArg Books.config (books_reject e p))

theorem opened_examine {now caller : Nat} {e : Entry} {sound : Bool} {p q : Pool σ}
    (h : p.examine now caller e = (sound, q)) : q.backend.opened = p.backend.opened :=
  congrArg (fun b : Books => b.record.opened) (examine_books now caller e sound p q h)

theorem opened_reject (e : Entry) (p : Pool σ) : (p.reject e).backend.opened = p.backend.opened :=
  congrArg (fun b : Books => b.record.opened) (books_reject e p)

theorem nextCandidate_open (now caller : Nat) (p : Pool σ) (hi : p.idle = [])
    (hr : p.hasRoom = true) : p.nextCandidate now caller = p.openLink now := by
  rw [nextCandidate, hi]
  exact if_pos hr

theorem seekWithin_open (now left : Nat) (r : Request) (p : Pool σ) (hi : p.idle = [])
    (hr : p.hasRoom = true) : (p.seekWithin now left r).1.Fresh p.backend.opened := by
  fun_induction seekWithin now left r p with
  | case1 left r p error q hc => exact PoolError.noConfusion
  | case2 left r p q hc hn => exact PoolError.noConfusion
  | case3 left r p q hc hn =>
    rw [nextCandidate_open now r.caller p hi hr] at hc
    exact openLink_ne_saturated now p (congrArg Prod.fst hc)
  | case4 left r p e p₁ hc p₂ hx lent q hg =>
    rw [nextCandidate_open now r.caller p hi hr] at hc
    obtain ⟨rfl, -⟩ := openLink_found now p p₁ e hc
    have hl : (p₂.grant now r _).1 = lent := congrArg Prod.fst hg
    rw [← hl]
    exact Nat.le_refl p.backend.opened
  | case5 r p e p₁ hc p₂ hx => exact r.exhaustion_ne_interrupted
  | case6 r p e p₁ hc p₂ hx _ left ih =>
    rw [nextCandidate_open now r.caller p hi hr] at hc
    obtain ⟨-, hb⟩ := openLink_found now p p₁ e hc
    have hi₂ : (p₂.reject e).idle = [] := by
      rw [idle_reject, idle_examine hx]
      exact (congrArg Books.idle hb).trans hi
    have hr₂ : (p₂.reject e).hasRoom = true := by
      rw [hasRoom_reject, hasRoom_examine hx]
      exact (hasRoom_congr (congrArg Books.active hb) (congrArg Books.config hb)).trans hr
    have ho₂ : p.backend.opened ≤ (p₂.reject e).backend.opened := by
      have h₁ : p₁.backend.opened = p.backend.opened + 1 :=
        congrArg (fun b : Books => b.record.opened) hb
      rw [opened_reject, opened_examine hx, h₁]
      exact Nat.le_succ _
    exact (ih hi₂ hr₂).mono ho₂

theorem examinations_examine {now caller : Nat} {e : Entry} {sound : Bool} {p q : Pool σ}
    (h : p.examine now caller e = (sound, q)) :
    q.examinations =
      ⟨caller, e, sound, p.idle.length + p.active.length, p.config.maxActive.toNat⟩ ::
        p.examinations := by
  rw [examinations_books, examinations_books, examine_books now caller e sound p q h]
  rfl

theorem examinations_reject (e : Entry) (p : Pool σ) :
    (p.reject e).examinations = p.examinations := by
  rw [examinations_books, examinations_books, books_reject]
  rfl

theorem examinations_grant (now : Nat) (r : Request) (e : Entry) (p : Pool σ) :
    (p.grant now r e).2.examinations = p.examinations := by
  rw [examinations_books, examinations_books, books_grant]
  rfl

theorem examinations_turns {now caller : Nat} {m m' : Option Entry × Pool σ}
    (h : Turns now caller m m') : m.2.examinations <:+ m'.2.examinations := by
  rw [examinations_books, examinations_books]
  induction h with
  | refl => exact List.suffix_rfl
  | tail _ ht ih => exact ih.trans (turn_books ht).examinations

theorem examinations_seekWithin (now left : Nat) (r : Request) (p : Pool σ) :
    p.examinations <:+ (p.seekWithin now left r).2.examinations := by
  have he := seekWithin_ends now left r p
  generalize p.seekWithin now left r = found at he
  obtain ⟨outcome, q⟩ := found
  cases outcome with
  | granted lent =>
    obtain ⟨e, p₁, p₂, ht, hx, hg⟩ := he
    have hq : q = (p₂.grant now r e).2 := congrArg Prod.snd hg
    show p.examinations <:+ q.examinations
    rw [hq, examinations_grant, examinations_examine hx]
    exact (examinations_turns ht).trans (List.suffix_cons _ _)
  | failed error => exact examinations_turns he.1
  | saturated r' => exact examinations_turns he.1

theorem seekWithin_single (now left : Nat) (r : Request) (p : Pool σ) (kept : Entry)
    (hi : p.idle = [kept]) (hr : p.hasRoom = true) :
    ∃ first later, (p.seekWithin now left r).2.examinations = later ++ first :: p.examinations ∧
      first.caller = r.caller ∧ first.entry = kept ∧
      (first.sound = true → ∃ lent, (p.seekWithin now left r).1 = .granted lent ∧
        lent.link = kept.link) ∧
      (first.sound = false → (p.seekWithin now left r).1.Fresh p.backend.opened) := by
  have hc : p.nextCandidate now r.caller = (.found kept, { p with idle := [] }) := by
    simp only [nextCandidate, hi]
  unfold seekWithin
  rw [hc]
  dsimp only
  cases hx : examine now r.caller kept { p with idle := [] } with
  | mk sound p₂ =>
    have he := examinations_examine hx
    cases sound with
    | true =>
      refine ⟨_, [], (examinations_grant now r kept p₂).trans he, rfl, rfl, ?_, ?_⟩
      · exact fun _ => ⟨_, rfl, rfl⟩
      · exact fun h => Bool.noConfusion h
    | false =>
      have hi₂ : (p₂.reject kept).idle = [] := by
        rw [idle_reject, idle_examine hx]
      have hr₂ : (p₂.reject kept).hasRoom = true := by
        rw [hasRoom_reject, hasRoom_examine hx]
        exact hr
      have ho₂ : (p₂.reject kept).backend.opened = p.backend.opened := by
        rw [opened_reject, opened_examine hx]
      have he₂ := (examinations_reject kept p₂).trans he
      dsimp only
      cases left with
      | zero =>
        exact ⟨_, [], he₂, rfl, rfl, fun h => Bool.noConfusion h,
          fun _ => r.exhaustion_ne_interrupted⟩
      | succ left =>
        dsimp only
        have hs := examinations_seekWithin now left { r with strikes := r.strikes + 1 }
          (p₂.reject kept)
        have hf := seekWithin_open now left { r with strikes := r.strikes + 1 }
          (p₂.reject kept) hi₂ hr₂
        obtain ⟨later, hl⟩ := hs
        rw [he₂] at hl
        rw [ho₂] at hf
        exact ⟨_, later, hl.symm, rfl, rfl, fun h => Bool.noConfusion h, fun _ => hf⟩

end Pool

end ConnectionPool
