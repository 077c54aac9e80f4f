import EthGateway.Proofs.Normalization.Stability
import EthGateway.Proofs.Text.LetterCase

/-
# EthGateway.Proofs.Quantity.RoundTrip -- quantities written and read over their whole range

A text without capital letters and without a zero in front is what the number it denotes is written
as (`Text.Hex.toDigits_number`). So of all texts that are read as a quantity, the canonical one is
the one that the quantity is written as (`encode_eq_iff`).

In JSON, writing integers out as text and reading text as integers undo each other as far as they
change anything (`Json.hexToInteger_integerToHex`, `integerToHex_hexToInteger`). What is no quantity
stays as it is under both of them: nothing is cut off at 2 ^ 256 and nothing is rounded
(`Beyond.ofJson?`).
-/

namespace EthGateway

namespace Text.Hex

/-- Digits behind those of a number that is not zero. -/
theorem toDigits_append {ds : List Char} (digits : ∀ c ∈ ds, isDigit c = true ∧ ¬ c.isUpper)
    {n : Nat} (positive : 0 < n) :
    Nat.toDigits 16 n ++ ds =
      Nat.toDigits 16 (ds.foldl (fun n c => n * 16 + (value? c).getD 0) n) := by
  induction ds generalizing n with
  | nil => rw [List.append_nil, List.foldl_nil]
  | cons c ds ih =>
    obtain ⟨⟨digit, lower⟩, rest⟩ := List.forall_mem_cons.1 digits
    obtain ⟨d, value⟩ := Option.isSome_iff_exists.1 digit
    obtain ⟨small, char⟩ := digitChar_of_value? value lower
    have next : Nat.toDigits 16 n ++ [c] = Nat.toDigits 16 (n * 16 + d) := by
      have step := Nat.toDigits_append_toDigits (b := 16) (by decide) positive small
      rwa [Nat.toDigits_of_lt_base small, char, Nat.mul_comm] at step
    rw [List.foldl_cons, value, Option.getD_some, ← ih rest (by omega), ← next,
      List.append_assoc, List.singleton_append]

/-- A number is written with the digits that denote it, if none is a capital letter and the first
one is zero only if it stands alone. -/
theorem toDigits_number {d : Char} {ds : List Char}
    (digits : ∀ c ∈ d :: ds, isDigit c = true ∧ ¬ c.isUpper) (zero : d = '0' → ds = []) :
    Nat.toDigits 16 (number (d :: ds)) = d :: ds := by
  obtain ⟨⟨digit, lower⟩, rest⟩ := List.forall_mem_cons.1 digits
  obtain ⟨k, value⟩ := Option.isSome_iff_exists.1 digit
  obtain ⟨small, char⟩ := digitChar_of_value? value lower
  have first : Nat.toDigits 16 k = [d] := by rw [Nat.toDigits_of_lt_base small, char]
  have folded : number (d :: ds) = ds.foldl (fun n c => n * 16 + (value? c).getD 0) k := by
    rw [number, List.foldl_cons, value, Option.getD_some, Nat.zero_mul, Nat.zero_add]
  rw [folded]
  by_cases front : k = 0
  · subst front
    rw [zero char.symm, List.foldl_nil, first]
  · rw [← toDigits_append rest (Nat.pos_of_ne_zero front), first, List.singleton_append]

end Text.Hex

namespace Quantity

open Text.Hex (number)

/-! ## Text -/

/-- The text of a quantity is the one that is read as it and is canonical. -/
theorem encode_eq_iff {q : Quantity} {s : String} :
    q.encode = s ↔ decode? s = some q ∧ Canonical s := by
  constructor
  · rintro rfl
    exact ⟨decode?_encode q, canonical_encode q⟩
  · rintro ⟨read, d, ds, text, lower, zero⟩
    have digits : ∀ c ∈ d :: ds, Text.Hex.isDigit c = true := fun c hc => (lower c hc).1
    have sign : stripSign? s.toList = some (d :: ds) := stripSign?_eq_some_iff.2 (.inl text)
    rw [decode?, decodeChars?_of_digits sign (List.cons_ne_nil d ds) digits] at read
    have value : number (d :: ds) = q.val := ofNat?_eq_some_iff.1 read
    rw [encode, encodeChars, ← value, Text.Hex.toDigits_number lower zero, ← text,
      String.ofList_toList]

/-! ## JSON -/

/-- What is no quantity stays, and any quantity becomes its canonical text. -/
theorem integerToHex_hexToInteger (v : Json) :
    v.hexToInteger.integerToHex = ((ofJson? v).map fun q => Json.str q.encode).getD v := by
  cases v with
  | str s =>
    rw [ofJson?, Json.hexToInteger]
    cases decode? s with
    | none => rfl
    | some q => exact integerToHex_toJson q
  | num n =>
    have kept : (Json.num n).hexToInteger = .num n := rfl
    rw [ofJson?, kept, Json.integerToHex]
    cases ofNumeral? n <;> rfl
  | _ => rfl

theorem unchanged_of_ofJson?_eq_none {v : Json} (h : ofJson? v = none) :
    v.hexToInteger = v ∧ v.integerToHex = v := by
  cases v with
  | str s =>
    have unread : decode? s = none := h
    exact ⟨by rw [Json.hexToInteger, unread], rfl⟩
  | num n =>
    have unread : ofNumeral? n = none := h
    exact ⟨rfl, by rw [Json.integerToHex, unread]⟩
  | _ => exact ⟨rfl, rfl⟩

/-- Numbers and hexadecimal texts that are no quantities: integers from 2 ^ 256 on in both
spellings, and numbers with a minus sign, `-0` among them, a fraction or an exponent. -/
inductive Beyond : Json → Prop
  | integer {n : Nat} (large : 2 ^ 256 ≤ n) : Beyond (.ofNat n)
  | negative {n : Numeral} (sign : n.negative = true) : Beyond (.num n)
  | fraction {n : Numeral} (digits : n.fraction ≠ []) : Beyond (.num n)
  | exponent {n : Numeral} (power : n.exponent ≠ none) : Beyond (.num n)
  | text {s : String} {ds : List Char}
      (sign : s.toList = '0' :: 'x' :: ds ∨ s.toList = '0' :: 'X' :: ds)
      (digits : ∀ c ∈ ds, Text.Hex.isDigit c = true) (large : 2 ^ 256 ≤ number ds) :
      Beyond (.str s)

theorem ofNat?_of_le {n : Nat} (large : 2 ^ 256 ≤ n) : ofNat? n = none := by
  have tooLarge : ¬ n < Nat.pow 2 256 := Nat.not_lt.2 large
  rw [ofNat?, dif_neg tooLarge]

theorem ofNumeral?_of_toNat? {n : Numeral} (h : n.toNat? = none) : ofNumeral? n = none := by
  rw [ofNumeral?, h, Option.bind_none]

theorem Beyond.ofJson? {v : Json} (h : Beyond v) : ofJson? v = none := by
  cases h with
  | integer large => exact ofNat?_of_le large
  | negative sign => exact ofNumeral?_of_toNat? (if_neg (by simp [sign]))
  | fraction digits => exact ofNumeral?_of_toNat? (if_neg (by simp [digits]))
  | exponent power => exact ofNumeral?_of_toNat? (if_neg (by simp [power]))
  | @text s ds sign digits large =>
    have stripped : stripSign? s.toList = some ds := stripSign?_eq_some_iff.2 sign
    have some_digit : ds ≠ [] := by
      rintro rfl
      exact absurd large (by decide)
    show decode? s = none
    rw [decode?, decodeChars?_of_digits stripped some_digit digits]
    exact ofNat?_of_le large

/-- Every quantity is read back from its text, which is canonical; a text that is read as a quantity
is the text of this quantity if and only if it is canonical. In JSON every number comes back, a
quantity in either spelling becomes its canonical text, and what is none stays. -/
theorem roundTrip_canonical :
    (∀ q : Quantity, decode? q.encode = some q ∧ Canonical q.encode) ∧
    (∀ s q, decode? s = some q → (q.encode = s ↔ Canonical s)) ∧
    (∀ v : Json, v.integerToHex.hexToInteger = v.hexToInteger ∧
      v.hexToInteger.integerToHex = ((ofJson? v).map fun q => Json.str q.encode).getD v) ∧
    (∀ n, (Json.num n).integerToHex.hexToInteger = .num n) ∧
    ∀ v, Beyond v → v.hexToInteger = v ∧ v.integerToHex = v := by
  refine ⟨fun q => encode_eq_iff.1 rfl, ?_, ?_, ?_, ?_⟩
  · intro s q read
    rw [encode_eq_iff]
    exact and_iff_right read
  · intro v
    exact ⟨Json.hexToInteger_integerToHex v, integerToHex_hexToInteger v⟩
  · intro n
    exact Json.hexToInteger_integerToHex (.num n)
  · intro v beyond
    exact unchanged_of_ofJson?_eq_none beyond.ofJson?

/-- `0xff` is canonical and so the text of its quantity. The first text beyond the range stays, and
so does `-0`. -/
theorem roundTrip_canonical_byte :
    let q : Quantity := ⟨255, by decide⟩
    let after := String.ofList ('0' :: 'x' :: '1' :: List.replicate 64 '0')
    let minusZero : Numeral := ⟨true, 0, [], none⟩
    decode? "0xff" = some q ∧ q.encode = "0xff" ∧
      (Json.num (.ofNat 255)).integerToHex.hexToInteger = .num (.ofNat 255) ∧
      Beyond (.str after) ∧ (Json.str after).hexToInteger = .str after ∧
      Beyond (.num minusZero) ∧ (Json.num minusZero).integerToHex = .num minusZero := by
  intro q after minusZero
  obtain ⟨-, texts, -, numbers, stays⟩ := roundTrip_canonical
  have read : decode? "0xff" = some q := by decide +kernel
  have letter : Text.Hex.isDigit 'f' = true ∧ ¬ 'f'.isUpper := by decide
  have canonical : Canonical "0xff" :=
    ⟨'f', ['f'], rfl, List.forall_mem_cons.2 ⟨letter, List.forall_mem_singleton.2 letter⟩,
      by decide⟩
  have text : Beyond (.str after) :=
    .text (.inl String.toList_ofList) (List.all_eq_true.1 (by decide)) (by decide +kernel)
  have number : Beyond (.num minusZero) := .negative rfl
  exact ⟨read, (texts _ q read).2 canonical, numbers _, text, (stays _ text).1, number,
    (stays _ number).2⟩

end Quantity

end EthGateway
