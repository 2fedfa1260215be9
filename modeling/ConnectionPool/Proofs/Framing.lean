import ConnectionPool.Config.TypeCode
import Mathlib.Data.List.Basic

/-!
# Framing

A type code is the hash of three parts, each of which is followed by a byte that no UTF-8 text has.
So the first part of a framed text can be read off again, and with it what follows. Two logins are
framed alike only if they are the same one, and a type code that they share is a collision of the
hash.
-/

set_option autoImplicit false

namespace ConnectionPool

theorem ne_of_mem_utf8EncodeChar {c : Char} {b : UInt8} (h : b ∈ String.utf8EncodeChar c) :
    b ≠ 0xFF := by
  -- a byte is less than 0x80, or six bits after 0x80, or the head of two to four bytes
  have hb : b.toNat ≠ 255 := by
    unfold String.utf8EncodeChar at h
    dsimp only at h
    split at h
    · rw [List.mem_singleton.mp h, UInt8.toNat_ofNat']
      omega
    · split at h
      · simp only [List.mem_cons, List.not_mem_nil, or_false] at h
        rcases h with rfl | rfl <;> rw [UInt8.toNat_ofNat'] <;> omega
      · split at h
        · simp only [List.mem_cons, List.not_mem_nil, or_false] at h
          rcases h with rfl | rfl | rfl <;> rw [UInt8.toNat_ofNat'] <;> omega
        · simp only [List.mem_cons, List.not_mem_nil, or_false] at h
          rcases h with rfl | rfl | rfl | rfl <;> rw [UInt8.toNat_ofNat'] <;> omega
  rintro rfl
  exact hb rfl

theorem end_notMem_utf8 (text : String) : 0xFF ∉ utf8 text := by
  intro h
  obtain ⟨c, -, hb⟩ := List.mem_flatMap.mp h
  exact ne_of_mem_utf8EncodeChar hb rfl

theorem utf8_inj {a b : String} : utf8 a = utf8 b ↔ a = b := by
  have hs (text : String) : (utf8 text).toByteArray = text.toByteArray := by
    conv_rhs => rw [← String.ofList_toList (s := text), String.toByteArray_ofList]
    rfl
  constructor
  · intro h
    rw [← String.toByteArray_inj, ← hs a, ← hs b, h]
  · exact congrArg utf8

theorem ended_append_inj {stop : UInt8} {xs ys rest rest' : List UInt8} (hx : stop ∉ xs)
    (hy : stop ∉ ys) : xs ++ stop :: rest = ys ++ stop :: rest' ↔ xs = ys ∧ rest = rest' := by
  induction xs generalizing ys with
  | nil =>
    cases ys with
    | nil => simp
    | cons y ys =>
      have hne : stop ≠ y := List.ne_of_not_mem_cons hy
      simp [hne]
  | cons x xs ih =>
    obtain ⟨hne, hx⟩ := List.ne_and_not_mem_of_not_mem_cons hx
    cases ys with
    | nil => simp [Ne.symm hne]
    | cons y ys =>
      have hr := ih hx (List.not_mem_of_not_mem_cons hy)
      rw [List.cons_append, List.cons_append, List.cons.injEq, List.cons.injEq, hr, and_assoc]

theorem framed_append_inj (a b : String) (rest rest' : List UInt8) :
    framed a ++ rest = framed b ++ rest' ↔ a = b ∧ rest = rest' := by
  have hs (text : String) (rest : List UInt8) :
      framed text ++ rest = utf8 text ++ 0xFF :: rest := by simp [framed]
  rw [hs, hs, ended_append_inj (end_notMem_utf8 a) (end_notMem_utf8 b), utf8_inj]

namespace Login

theorem framed_inj {l l' : Login} : l.framed = l'.framed ↔ l = l' := by
  obtain ⟨url, username, password⟩ := l
  obtain ⟨url', username', password'⟩ := l'
  have hp : ConnectionPool.framed password = ConnectionPool.framed password' ↔
      password = password' := by
    simpa using framed_append_inj password password' [] []
  simp only [framed, List.append_assoc]
  rw [framed_append_inj, framed_append_inj, hp, Login.mk.injEq, Credentials.mk.injEq]

/-- The framed bytes of a login determine it, so characters that move from one part to the next
change them. Logins that share a type code are the same, or their bytes collide in the hash. -/
theorem framed_unambiguous (l l' : Login) (url username password moved : String) :
    (l.framed = l'.framed ↔ l = l') ∧
      (framed ⟨url ++ moved, username, password⟩ = framed ⟨url, moved ++ username, password⟩ ↔
        moved = "") ∧
      (framed ⟨url, username ++ moved, password⟩ = framed ⟨url, username, moved ++ password⟩ ↔
        moved = "") ∧
      (l.typeCode = l'.typeCode ↔
        l = l' ∨ l.framed ≠ l'.framed ∧ SipHash.hash l.framed = SipHash.hash l'.framed) := by
  refine ⟨framed_inj, ?_, ?_, ?_⟩
  · rw [framed_inj, Login.mk.injEq, String.append_eq_left_iff, Credentials.mk.injEq]
    constructor
    · exact And.left
    · rintro rfl
      simp
  · rw [framed_inj, Login.mk.injEq, Credentials.mk.injEq, String.append_eq_left_iff]
    constructor
    · exact fun h => h.2.1
    · rintro rfl
      simp
  · constructor
    · intro h
      by_cases hl : l = l'
      · exact Or.inl hl
      · exact Or.inr ⟨fun hf => hl (framed_inj.mp hf), h⟩
    · rintro (rfl | ⟨-, h⟩)
      · rfl
      · exact h

example : framed ⟨"ab", "c", "é"⟩ = [97, 98, 255, 99, 255, 195, 169, 255] := by decide +kernel

end Login

end ConnectionPool
