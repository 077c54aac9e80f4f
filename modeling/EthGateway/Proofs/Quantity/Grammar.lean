import EthGateway.Formatter
import EthGateway.Proofs.Quantity.Spelling

/-
# EthGateway.Proofs.Quantity.Grammar -- the texts that are read as quantities

A text is read as a quantity if it has a sign, at least one character behind it, all of these are
hexadecimal digits or underscores, and the digits denote a number in range (`decode?_eq_some_iff`).
Underscores count for nothing, wherever they stand, and where there is nothing else the quantity is
zero.

The spelling of the wire (`Spells`) has no underscores, and `isHexText` admits none. So the reader
is more lenient than both, by the texts with an underscore (`ReadsOver`) and no others
(`meets_grammar_iff`), and on these a conversion of all that is read and a conversion of hexadecimal
strings come to different values (`not_spells_underscore`).
-/

namespace EthGateway.Quantity

open Text.Hex (number)

/-! ## The texts that are read -/

/-- A text is read as a quantity if there are digits or underscores behind its sign, and the digits
denote the quantity. -/
theorem decode?_eq_some_iff {s : String} {q : Quantity} :
    decode? s = some q ↔
      ∃ ds, (s.toList = '0' :: 'x' :: ds ∨ s.toList = '0' :: 'X' :: ds) ∧ ds ≠ [] ∧
        (∀ c ∈ ds, Text.Hex.isDigit c = true ∨ c = '_') ∧
          number (ds.filter (· ≠ '_')) = q.val := by
  simp only [← stripSign?_eq_some_iff]
  unfold decode? decodeChars?
  cases sign : stripSign? s.toList with
  | none => simp
  | some ds =>
    cases ds with
    | nil => simp
    | cons d ds =>
      simp only [Option.bind_eq_some_iff, readDigits_eq_some_iff, ofNat?_eq_some_iff]
      constructor
      · rintro ⟨n, ⟨digits, rfl⟩, value⟩
        exact ⟨d :: ds, rfl, List.cons_ne_nil d ds, digits, value⟩
      · rintro ⟨_, ⟨rfl⟩, -, digits, value⟩
        exact ⟨_, ⟨digits, rfl⟩, value⟩

/-- There is no underscore in the sign. -/
theorem underscore_mem_iff {s : String} {ds : List Char}
    (sign : s.toList = '0' :: 'x' :: ds ∨ s.toList = '0' :: 'X' :: ds) :
    '_' ∈ s.toList ↔ '_' ∈ ds := by
  rcases sign with sign | sign <;> simp [sign]

/-- Of the texts that are read, those without underscores are hexadecimal strings. -/
theorem isHexText_iff_of_decode? {s : String} {q : Quantity} (read : decode? s = some q) :
    isHexText s = true ↔ '_' ∉ s.toList := by
  obtain ⟨ds, sign, -, digits, -⟩ := decode?_eq_some_iff.1 read
  rw [isHexText, stripSign?_eq_some_iff.2 sign, underscore_mem_iff sign]
  simp only [List.all_eq_true]
  constructor
  · intro all underscore
    exact absurd (all '_' underscore) (by decide)
  · intro none c hc
    refine (digits c hc).resolve_right ?_
    rintro rfl
    exact none hc

theorem spells_iff_no_underscore {s : String} {q : Quantity} :
    Spells (.str s) q.val ↔ decode? s = some q ∧ '_' ∉ s.toList := by
  rw [spells_str_iff]
  constructor
  · rintro ⟨hex, decoded⟩
    obtain ⟨p, read, same⟩ := Option.map_eq_some_iff.1 decoded
    obtain rfl : p = q := by cases p; cases q; cases same; rfl
    exact ⟨read, (isHexText_iff_of_decode? read).1 hex⟩
  · rintro ⟨read, none⟩
    exact ⟨(isHexText_iff_of_decode? read).2 none, by rw [read]; rfl⟩

/-! ## Texts beyond the spelling of the wire -/

/-- The text is read as a quantity although there is an underscore in it. -/
def ReadsOver (s : String) : Prop := (decode? s).isSome = true ∧ '_' ∈ s.toList

theorem not_readsOver_iff {s : String} :
    ¬ ReadsOver s ↔ ∀ q, decode? s = some q → '_' ∉ s.toList := by
  rw [ReadsOver, not_and, Option.isSome_iff_exists, forall_exists_index]

/-- Conversion of what is read, and of hexadecimal strings only, differ where an underscore is
read. -/
theorem apply_integerIfHex_eq_iff (v : Json) :
    Formatter.apply .integerIfHex v = Formatter.apply .hexToInteger v ↔
      ∀ s, v = .str s → ¬ ReadsOver s := by
  have conditional : Formatter.apply .integerIfHex v =
      if v.isHexString = true then pure v.hexToInteger else pure v := rfl
  have always : Formatter.apply .hexToInteger v = pure v.hexToInteger := rfl
  rw [conditional, always]
  simp only [not_readsOver_iff]
  cases v with
  | str s =>
    constructor
    · rintro same _ ⟨rfl⟩ q read
      refine (isHexText_iff_of_decode? read).1 ?_
      cases hex : isHexText s with
      | true => rfl
      | false =>
        -- The text would stay, and be an integer as well.
        have value := congrArg Noted.value same
        rw [Json.isHexString, hex, if_neg Bool.false_ne_true, Json.hexToInteger, read] at value
        cases value
    · intro none
      cases read : decode? s with
      | none =>
        have stays : (Json.str s).hexToInteger = .str s := by rw [Json.hexToInteger, read]
        rw [stays, ite_self]
      | some q =>
        have hex : (Json.str s).isHexString = true :=
          (isHexText_iff_of_decode? read).2 (none s rfl q read)
        rw [if_pos hex]
  | _ => exact iff_of_true rfl fun _ text => Json.noConfusion text

/-- A text is read as a quantity exactly if it is digits and underscores behind a sign. The reader
keeps to the spelling of the wire, and to hexadecimal strings, exactly for the texts in which no
underscore is read over. These and the values that are no text are what both conversions to integers
treat alike. -/
theorem meets_grammar_iff (s : String) (v : Json) :
    (∀ q, decode? s = some q ↔
      ∃ ds, (s.toList = '0' :: 'x' :: ds ∨ s.toList = '0' :: 'X' :: ds) ∧ ds ≠ [] ∧
        (∀ c ∈ ds, Text.Hex.isDigit c = true ∨ c = '_') ∧
          number (ds.filter (· ≠ '_')) = q.val) ∧
    ((∀ q, decode? s = some q ↔ Spells (.str s) q.val) ↔ ¬ ReadsOver s) ∧
    ((∀ q, decode? s = some q → isHexText s = true) ↔ ¬ ReadsOver s) ∧
    (Formatter.apply .integerIfHex v = Formatter.apply .hexToInteger v ↔
      ∀ s, v = .str s → ¬ ReadsOver s) := by
  refine ⟨fun q => decode?_eq_some_iff, ?_, ?_, apply_integerIfHex_eq_iff v⟩
  · simp only [spells_iff_no_underscore, iff_self_and, not_readsOver_iff]
  · rw [not_readsOver_iff]
    exact forall₂_congr fun q read => isHexText_iff_of_decode? read

/-- An underscore between two digits is read over, so that this is no spelling of the quantity that
is read. Only one of the two conversions takes it for an integer. -/
theorem not_spells_underscore :
    let q : Quantity := ⟨16, by decide⟩
    let v : Json := .str "0x1_0"
    decode? "0x1_0" = some q ∧ ¬ Spells v q.val ∧
      (¬ ∀ (s : String) (q : Quantity), decode? s = some q ↔ Spells (.str s) q.val) ∧
      v.isHexString = false ∧
      (Formatter.apply .hexToInteger v).value = .ofNat 16 ∧
      (Formatter.apply .integerIfHex v).value = v := by
  intro q v
  have read : decode? "0x1_0" = some q := by decide +kernel
  have noSpelling : ¬ Spells v q.val := by
    rw [spells_iff_no_underscore]
    exact fun spelled => spelled.2 (by decide +kernel)
  refine ⟨read, noSpelling, ?_, by decide +kernel, by decide +kernel, by decide +kernel⟩
  intro exact_grammar
  exact noSpelling ((exact_grammar "0x1_0" q).1 read)

end EthGateway.Quantity
