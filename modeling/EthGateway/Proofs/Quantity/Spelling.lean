import EthGateway.Quantity
import Mathlib.Algebra.Group.Nat.Defs

/-
# EthGateway.Proofs.Quantity.Spelling -- hexadecimal text and the number it denotes

`Text.Hex.number` is the number that digits denote in base sixteen, said without the reader. The
reader comes to it digit by digit, and takes no notice of underscores (`readDigits_eq_some_iff`). On
a sign with digits behind it `decode?` is that number, if it is small enough
(`decodeChars?_of_digits`), so what `encode` writes is read back (`decode?_encode`). It is the
canonical text (`canonical_encode`).

`Quantity.Spells` says which JSON values are a quantity in the spelling of the wire: a string of
hexadecimal digits that is also read as a quantity (`spells_iff`). `Quantity.Denotes` admits the
integer besides; both are read (`Denotes.ofJson?`), and writing integers out leaves only spellings
of the wire (`Denotes.spells_integerToHex`).
-/

namespace EthGateway

namespace Text.Hex

/-- The number that hexadecimal digits denote. -/
def number (ds : List Char) : Nat := ds.foldl (fun n c => n * 16 + (value? c).getD 0) 0

theorem number_append_singleton (ds : List Char) (c : Char) :
    number (ds ++ [c]) = number ds * 16 + (value? c).getD 0 := by
  simp [number]

theorem value?_digitChar {n : Nat} (h : n < 16) : value? n.digitChar = some n := value?_digit n h

theorem number_toDigits (n : Nat) : number (Nat.toDigits 16 n) = n := by
  induction n using Nat.strongRecOn with
  | ind n ih =>
    rw [Nat.toDigits_eq_if (by decide)]
    split
    · next h => simp [number, value?_digitChar h]
    · next h =>
      rw [number_append_singleton, ih (n / 16) (by omega),
        value?_digitChar (Nat.mod_lt n (by decide)), Option.getD_some]
      omega

/-- The digits of a number are those of numbers below sixteen. -/
theorem exists_digitChar_of_mem_toDigits {n : Nat} {c : Char} (h : c ∈ Nat.toDigits 16 n) :
    ∃ k < 16, c = k.digitChar := by
  induction n using Nat.strongRecOn with
  | ind n ih =>
    rw [Nat.toDigits_eq_if (by decide)] at h
    split at h
    · next hn => exact ⟨n, hn, List.mem_singleton.1 h⟩
    · next hn =>
      rcases List.mem_append.1 h with h | h
      · exact ih (n / 16) (by omega) h
      · exact ⟨n % 16, Nat.mod_lt n (by decide), List.mem_singleton.1 h⟩

theorem isDigit_of_mem_toDigits {n : Nat} {c : Char} (h : c ∈ Nat.toDigits 16 n) :
    isDigit c = true := by
  obtain ⟨k, small, rfl⟩ := exists_digitChar_of_mem_toDigits h
  rw [isDigit, value?_digitChar small, Option.isSome_some]

theorem not_isUpper_of_mem_toDigits {n : Nat} {c : Char} (h : c ∈ Nat.toDigits 16 n) :
    ¬ c.isUpper := by
  have lower : ∀ k < 16, ¬ k.digitChar.isUpper := by decide
  obtain ⟨k, small, rfl⟩ := exists_digitChar_of_mem_toDigits h
  exact lower k small

/-- Only zero is written with a zero in front. -/
theorem exists_cons_toDigits (n : Nat) :
    ∃ d ds, Nat.toDigits 16 n = d :: ds ∧ (d = '0' → n = 0) := by
  have alone : ∀ k < 16, k.digitChar = '0' → k = 0 := by decide
  induction n using Nat.strongRecOn with
  | ind n ih =>
    rw [Nat.toDigits_eq_if (by decide)]
    split
    · next small => exact ⟨n.digitChar, [], rfl, alone n small⟩
    · next large =>
      obtain ⟨d, ds, digits, zero⟩ := ih (n / 16) (by omega)
      refine ⟨d, ds ++ [(n % 16).digitChar], by rw [digits, List.cons_append], ?_⟩
      intro front
      have := zero front
      omega

end Text.Hex

namespace Quantity

open Text.Hex (number)

/-! ## Reading digits -/

/-- Digits are read one after the other, without the underscores among them. -/
theorem readDigits_eq_some_iff {value n : Nat} {cs : List Char} :
    readDigits value cs = some n ↔
      (∀ c ∈ cs, Text.Hex.isDigit c = true ∨ c = '_') ∧
        (cs.filter (· ≠ '_')).foldl (fun n c => n * 16 + (Text.Hex.value? c).getD 0) value = n := by
  induction cs generalizing value with
  | nil => simp [readDigits]
  | cons c cs ih =>
    rw [readDigits, List.forall_mem_cons]
    by_cases underscore : c = '_'
    · rw [if_pos underscore, ih, List.filter_cons_of_neg (by simp [underscore])]
      exact and_congr_left' (and_iff_right (.inr underscore)).symm
    · rw [if_neg underscore, List.filter_cons_of_pos (by simp [underscore]), List.foldl_cons]
      cases digit : Text.Hex.value? c with
      | some d =>
        have isDigit : Text.Hex.isDigit c = true := by rw [Text.Hex.isDigit, digit]; rfl
        rw [ih, Option.getD_some]
        exact and_congr_left' (and_iff_right (.inl isDigit)).symm
      | none =>
        have noDigit : ¬ (Text.Hex.isDigit c = true ∨ c = '_') := by
          simp [Text.Hex.isDigit, digit, underscore]
        exact iff_of_false (Option.some_ne_none n).symm fun h => noDigit h.1.1

/-- Digits alone are read as the number they denote; the underscore is no digit. -/
theorem readDigits_of_digits {ds : List Char} (digits : ∀ c ∈ ds, Text.Hex.isDigit c = true)
    (value : Nat) :
    readDigits value ds =
      some (ds.foldl (fun n c => n * 16 + (Text.Hex.value? c).getD 0) value) := by
  have notUnderscore : ∀ c ∈ ds, decide (c ≠ '_') = true := by
    intro c hc
    refine decide_eq_true ?_
    rintro rfl
    exact absurd (digits '_' hc) (by decide)
  refine readDigits_eq_some_iff.2 ⟨fun c hc => .inl (digits c hc), ?_⟩
  rw [List.filter_eq_self.2 notUnderscore]

/-- A sign with at least one digit behind it is the quantity that the digits denote. -/
theorem decodeChars?_of_digits {cs ds : List Char} (sign : stripSign? cs = some ds)
    (some_digit : ds ≠ []) (digits : ∀ c ∈ ds, Text.Hex.isDigit c = true) :
    decodeChars? cs = ofNat? (number ds) := by
  unfold decodeChars?
  rw [sign]
  cases ds with
  | nil => exact absurd rfl some_digit
  | cons d ds => exact congrArg (·.bind ofNat?) (readDigits_of_digits digits 0)

theorem toDigits_ne_nil (n : Nat) : Nat.toDigits 16 n ≠ [] := by
  rw [Nat.toDigits_eq_if (by decide)]
  split <;> simp

theorem decode?_encode (q : Quantity) : decode? q.encode = some q := by
  have whole : decodeChars? q.encodeChars = ofNat? (number (Nat.toDigits 16 q.val)) :=
    decodeChars?_of_digits rfl (toDigits_ne_nil q.val) fun _ => Text.Hex.isDigit_of_mem_toDigits
  rw [decode?, encode, String.toList_ofList, whole, Text.Hex.number_toDigits]
  exact ofNat?_eq_some_iff.2 rfl

theorem canonical_encode (q : Quantity) : Canonical q.encode := by
  obtain ⟨d, ds, digits, zero⟩ := Text.Hex.exists_cons_toDigits q.val
  refine ⟨d, ds, ?_, ?_, ?_⟩
  · rw [encode, String.toList_ofList, encodeChars, digits]
  · intro c hc
    rw [← digits] at hc
    exact ⟨Text.Hex.isDigit_of_mem_toDigits hc, Text.Hex.not_isUpper_of_mem_toDigits hc⟩
  · intro front
    rw [zero front] at digits
    exact (List.cons.inj digits).2.symm

/-! ## The spelling of the wire -/

/-- The value is text: a sign, at least one hexadecimal digit, nothing else, and the digits denote
the number, which is below 2 ^ 256. -/
def Spells (v : Json) (n : Nat) : Prop :=
  ∃ s ds, v = .str s ∧ (s.toList = '0' :: 'x' :: ds ∨ s.toList = '0' :: 'X' :: ds) ∧ ds ≠ [] ∧
    (∀ c ∈ ds, Text.Hex.isDigit c = true) ∧ number ds = n ∧ n < 2 ^ 256

theorem stripSign?_eq_some_iff {cs ds : List Char} :
    stripSign? cs = some ds ↔ cs = '0' :: 'x' :: ds ∨ cs = '0' :: 'X' :: ds := by
  unfold stripSign?
  split <;> grind

theorem spells_iff {v : Json} {n : Nat} :
    Spells v n ↔ v.isHexString = true ∧ (∃ s, v = .str s ∧ (decode? s).map val = some n) := by
  constructor
  · rintro ⟨s, ds, rfl, sign, nonempty, digits, rfl, small⟩
    have stripped : stripSign? s.toList = some ds := stripSign?_eq_some_iff.2 sign
    have bounded : number ds < Nat.pow 2 256 := small
    refine ⟨?_, s, rfl, ?_⟩
    · simpa [Json.isHexString, isHexText, stripped] using digits
    · rw [decode?, decodeChars?_of_digits stripped nonempty digits, ofNat?, dif_pos bounded]
      rfl
  · rintro ⟨hex, s, rfl, decoded⟩
    unfold Json.isHexString isHexText at hex
    cases stripped : stripSign? s.toList with
    | none => simp [stripped] at hex
    | some ds =>
      have digits : ∀ c ∈ ds, Text.Hex.isDigit c = true := by simpa [stripped] using hex
      have nonempty : ds ≠ [] := by
        rintro rfl
        simp [decode?, decodeChars?, stripped] at decoded
      rw [decode?, decodeChars?_of_digits stripped nonempty digits] at decoded
      obtain ⟨q, hq, rfl⟩ := Option.map_eq_some_iff.1 decoded
      exact ⟨s, ds, rfl, stripSign?_eq_some_iff.1 stripped, nonempty, digits,
        ofNat?_eq_some_iff.1 hq, q.isLt⟩

theorem spells_str_iff {s : String} {n : Nat} :
    Spells (.str s) n ↔ isHexText s = true ∧ (decode? s).map val = some n := by
  rw [spells_iff]
  constructor
  · rintro ⟨hex, s', same, decoded⟩
    obtain rfl := Json.str.inj same
    exact ⟨hex, decoded⟩
  · rintro ⟨hex, decoded⟩
    exact ⟨hex, s, rfl, decoded⟩

theorem spells_encode (q : Quantity) : Spells (.str q.encode) q.val :=
  ⟨q.encode, Nat.toDigits 16 q.val, rfl, .inl String.toList_ofList, toDigits_ne_nil q.val,
    fun _ => Text.Hex.isDigit_of_mem_toDigits, Text.Hex.number_toDigits q.val, q.isLt⟩

/-! ## Integers -/

theorem ofNumeral?_ofNat (q : Quantity) : ofNumeral? (.ofNat q.val) = some q := by
  rw [ofNumeral?, Numeral.toNat?_ofNat]
  exact ofNat?_eq_some_iff.2 rfl

/-- The integer of a quantity is written out. -/
theorem integerToHex_toJson (q : Quantity) : q.toJson.integerToHex = .str q.encode := by
  rw [toJson, Json.ofNat, Json.integerToHex, ofNumeral?_ofNat]

/-- Every other value stays. -/
theorem integerToHex_of_ne_toJson {v : Json} (h : ∀ q : Quantity, v ≠ q.toJson) :
    v.integerToHex = v := by
  cases v with
  | num n =>
    cases read : ofNumeral? n with
    | none => rw [Json.integerToHex, read]
    | some q =>
      obtain ⟨k, digits, quantity⟩ := Option.bind_eq_some_iff.1 read
      obtain rfl := Numeral.toNat?_eq_some_iff.1 digits
      obtain rfl := ofNat?_eq_some_iff.1 quantity
      exact absurd rfl (h q)
  | _ => rfl

/-- The value is a quantity in either spelling: the integer, or hexadecimal text. -/
def Denotes (v : Json) (n : Nat) : Prop := v = .ofNat n ∧ n < 2 ^ 256 ∨ Spells v n

theorem Denotes.isNull {v : Json} {n : Nat} (h : Denotes v n) : v.isNull = false := by
  rcases h with ⟨rfl, -⟩ | ⟨s, ds, rfl, -⟩ <;> rfl

/-- A quantity in either spelling is read. -/
theorem Denotes.ofJson? {v : Json} {q : Quantity} (h : Denotes v q.val) : ofJson? v = some q := by
  rcases h with ⟨rfl, -⟩ | spelled
  · exact ofNumeral?_ofNat q
  · obtain ⟨-, s, rfl, decoded⟩ := spells_iff.1 spelled
    obtain ⟨p, read, same⟩ := Option.map_eq_some_iff.1 decoded
    have whole : p = q := by
      cases p
      cases q
      cases same
      rfl
    rw [Quantity.ofJson?, read, whole]

/-- Both spellings become one that the wire has for the number. -/
theorem Denotes.spells_integerToHex {v : Json} {n : Nat} (h : Denotes v n) :
    Spells v.integerToHex n := by
  rcases h with ⟨rfl, small⟩ | spelled
  · have written : (Json.ofNat n).integerToHex = .str (encode ⟨n, small⟩) :=
      integerToHex_toJson ⟨n, small⟩
    rw [written]
    exact spells_encode ⟨n, small⟩
  · obtain ⟨s, ds, rfl, text⟩ := spelled
    exact ⟨s, ds, rfl, text⟩

end Quantity

end EthGateway
