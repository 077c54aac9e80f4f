import EthGateway.Normalizer
import Mathlib.Algebra.Group.Nat.Defs
import Mathlib.Tactic.SplitIfs

/-
# EthGateway.Proofs.Text.ByteOrder -- texts in the order of their bytes

Records list their keys in the order of their code points. This is also the order of the bytes that
the keys have in UTF-8 (`ofString_lt_ofString_iff`): a code point with more bytes than another has a
greater first byte, and of two with as many bytes each, the bytes hold the digits in base 64, the
first of them the rest (`marked`), so the lesser code point has the lesser bytes (`marked_lt`).
-/

namespace EthGateway.Bytes

/-! ## The bytes of a code point -/

/-- A code point in a first byte and some behind it. Each of these has a digit in base 64, and the
first one has the rest, on top of the mark that tells the number of bytes. -/
def marked (mark : Nat) : (behind : Nat) → (code : Nat) → List UInt8
  | 0, code => [UInt8.ofNat (code + mark)]
  | behind + 1, code => marked mark behind (code / 64) ++ [UInt8.ofNat (code % 64 + 128)]

theorem exists_marked_eq_cons (mark behind code : Nat) :
    ∃ rest, marked mark behind code = UInt8.ofNat (code / 64 ^ behind + mark) :: rest := by
  induction behind generalizing code with
  | zero => exact ⟨[], by rw [marked, pow_zero, Nat.div_one]⟩
  | succ behind ih =>
    obtain ⟨rest, bytes⟩ := ih (code / 64)
    refine ⟨rest ++ [UInt8.ofNat (code % 64 + 128)], ?_⟩
    rw [marked, bytes, Nat.div_div_eq_div_mul, ← pow_succ', List.cons_append]

theorem ofNat_lt_ofNat {a b : Nat} (less : a < b) (byte : b < 256) :
    UInt8.ofNat a < UInt8.ofNat b :=
  (UInt8.ofNat_lt_iff_lt (Nat.lt_trans less byte) byte).2 less

/-- The lesser first byte decides, whatever follows. -/
theorem marked_lt_of_first {mark mark' behind behind' code code' : Nat}
    (first : code / 64 ^ behind + mark < code' / 64 ^ behind' + mark')
    (byte : code' / 64 ^ behind' + mark' < 256) (xs ys : List UInt8) :
    marked mark behind code ++ xs < marked mark' behind' code' ++ ys := by
  obtain ⟨rest, bytes⟩ := exists_marked_eq_cons mark behind code
  obtain ⟨rest', bytes'⟩ := exists_marked_eq_cons mark' behind' code'
  rw [bytes, bytes', List.cons_append, List.cons_append]
  exact List.cons_lt_cons_iff.2 (.inl (ofNat_lt_ofNat first byte))

/-- In the same number of bytes the lesser code point has the lesser bytes, whatever follows. -/
theorem marked_lt {mark behind code code' : Nat} (less : code < code')
    (byte : code' / 64 ^ behind + mark < 256) (xs ys : List UInt8) :
    marked mark behind code ++ xs < marked mark behind code' ++ ys := by
  induction behind generalizing code code' xs ys with
  | zero =>
    rw [pow_zero, Nat.div_one] at byte
    exact List.cons_lt_cons_iff.2 (.inl (ofNat_lt_ofNat (by omega) byte))
  | succ behind ih =>
    rw [marked, marked, List.append_assoc, List.append_assoc]
    by_cases front : code / 64 = code' / 64
    · -- Only the last digits differ.
      rw [front]
      refine List.append_left_lt (List.cons_lt_cons_iff.2 (.inl (ofNat_lt_ofNat ?_ ?_)))
      all_goals omega
    · refine ih (by omega) ?_ _ _
      rwa [Nat.div_div_eq_div_mul, ← pow_succ']

/-! ## Texts -/

theorem code_lt (c : Char) : c.val.toNat < 1114112 := by
  rcases c.valid with below | above
  · exact Nat.lt_trans below (by decide)
  · exact above.2

theorem utf8EncodeChar_eq_marked (c : Char) :
    String.utf8EncodeChar c =
      if c.val.toNat ≤ 127 then marked 0 0 c.val.toNat
      else if c.val.toNat ≤ 2047 then marked 192 1 c.val.toNat
      else if c.val.toNat ≤ 65535 then marked 224 2 c.val.toNat
      else marked 240 3 c.val.toNat := by
  have small := code_lt c
  unfold String.utf8EncodeChar
  generalize c.val.toNat = v at small ⊢
  dsimp only
  split_ifs with one two three
  · rfl
  · simp only [marked, List.cons_append, List.nil_append,
      Nat.mod_eq_of_lt (by omega : v / 64 < 32)]
  · simp only [marked, List.cons_append, List.nil_append, Nat.div_div_eq_div_mul, Nat.reduceMul,
      Nat.mod_eq_of_lt (by omega : v / 4096 < 16)]
  · simp only [marked, List.cons_append, List.nil_append, Nat.div_div_eq_div_mul, Nat.reduceMul,
      Nat.mod_eq_of_lt (by omega : v / 262144 < 8)]

/-- The lesser of two characters has the lesser bytes, whatever follows. -/
theorem utf8EncodeChar_lt {c d : Char} (h : c < d) (xs ys : List UInt8) :
    String.utf8EncodeChar c ++ xs < String.utf8EncodeChar d ++ ys := by
  have less : c.val.toNat < d.val.toNat := h
  have small := code_lt d
  rw [utf8EncodeChar_eq_marked, utf8EncodeChar_eq_marked]
  -- With as many bytes the digits decide, and with more of them the first byte.
  split_ifs
  all_goals first
    | exact marked_lt less (by omega) xs ys
    | exact marked_lt_of_first (by omega) (by omega) xs ys

theorem ofString_lt_ofString {s t : String} (h : s < t) : ofString s < ofString t := by
  have chars : List.Lex (· < ·) s.toList t.toList := h
  unfold ofString
  generalize s.toList = cs at chars
  generalize t.toList = ds at chars
  induction chars with
  | @nil d ds =>
    obtain ⟨b, bs, bytes⟩ := List.exists_cons_of_ne_nil (String.utf8EncodeChar_ne_nil (c := d))
    rw [List.flatMap_nil, List.flatMap_cons, bytes]
    exact List.nil_lt_cons _ _
  | @rel c cs d ds less => exact utf8EncodeChar_lt less _ _
  | cons _ ih => exact List.append_left_lt ih

/-- Texts are ordered as their bytes are. -/
theorem ofString_lt_ofString_iff {s t : String} : ofString s < ofString t ↔ s < t := by
  refine ⟨?_, ofString_lt_ofString⟩
  intro bytes
  rcases Std.lt_trichotomy s t with less | rfl | greater
  · exact less
  · exact absurd bytes (List.lt_irrefl _)
  · exact absurd bytes (List.lt_asymm (ofString_lt_ofString greater))

theorem ofString_le_ofString_iff {s t : String} : ofString s ≤ ofString t ↔ ¬ t < s := by
  rw [← ofString_lt_ofString_iff]
  exact List.not_lt.symm

end EthGateway.Bytes
