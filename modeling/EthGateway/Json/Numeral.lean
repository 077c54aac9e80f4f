/-
# EthGateway.Json.Numeral -- JSON numbers by their digits

A number keeps every digit it was written with: `1.50` and `1.5` are different numerals, and so are
`0` and `-0`. Of the spelling only the exponent mark is not kept: `E` is written `e`, and an
exponent without a sign is written with `+`. The whole part has no leading zeros in JSON, so a
natural number holds it exactly; fraction and exponent are digit lists because their zeros count.

A numeral denotes an integer only if it has neither fraction nor exponent, so `1.0` and `1e3` denote
none. `-0` denotes none either: a minus sign belongs to numbers below zero.
-/

namespace EthGateway

/-- A decimal digit by its value. -/
abbrev Digit := Fin 10

namespace Digit

/-- The digit's character. -/
def char (d : Digit) : Char := Nat.digitChar d.val

/-- The digit of an ASCII character. -/
def ofChar? (c : Char) : Option Digit :=
  if h : '0' ≤ c ∧ c ≤ '9' then
    some ⟨c.toNat - 48, by
      have h' : c.toNat ≤ 57 := h.2
      omega⟩
  else none

/-- The digits at the front of a text, and what follows them. -/
def span : List Char → List Digit × List Char
  | [] => ([], [])
  | c :: cs =>
    match ofChar? c with
    | some d => (d :: (span cs).1, (span cs).2)
    | none => ([], c :: cs)

/-- The value that digits denote in base ten. -/
def value (ds : List Digit) : Nat := ds.foldl (fun n d => n * 10 + d.val) 0

end Digit

/-- A signed power of ten; at least one digit. -/
structure Exponent where
  negative : Bool
  first : Digit
  rest : List Digit
deriving DecidableEq, Repr

/-- A JSON number as written; no fraction digits means no decimal point. -/
structure Numeral where
  negative : Bool
  whole : Nat
  fraction : List Digit
  exponent : Option Exponent
deriving DecidableEq, Repr

namespace Numeral

/-- The numeral of a natural number. -/
def ofNat (n : Nat) : Numeral := ⟨false, n, [], none⟩

/-- The numeral of an integer. -/
def ofInt (n : Int) : Numeral := ⟨decide (n < 0), n.natAbs, [], none⟩

/-- The natural number that a plain run of digits denotes. -/
def toNat? (n : Numeral) : Option Nat :=
  if n.negative = false ∧ n.fraction = [] ∧ n.exponent = none then some n.whole else none

/-- The integer that digits with an optional minus sign denote; `-0` is none. -/
def toInt? (n : Numeral) : Option Int :=
  if n.fraction = [] ∧ n.exponent = none then
    if n.negative then (if n.whole = 0 then none else some (-(n.whole : Int))) else some n.whole
  else none

theorem toNat?_ofNat (n : Nat) : (ofNat n).toNat? = some n := rfl

/-- Only plain digits denote a natural number, and there is one numeral for each. -/
theorem toNat?_eq_some_iff {n : Numeral} {k : Nat} : n.toNat? = some k ↔ n = ofNat k := by
  obtain ⟨negative, whole, fraction, exponent⟩ := n
  simp only [toNat?, ofNat, Numeral.mk.injEq, Option.ite_none_right_eq_some, Option.some.injEq]
  constructor
  · rintro ⟨⟨h1, h2, h3⟩, h4⟩; exact ⟨h1, h4, h2, h3⟩
  · rintro ⟨h1, h4, h2, h3⟩; exact ⟨⟨h1, h2, h3⟩, h4⟩

/-- There is one numeral for each integer too. -/
theorem toInt?_eq_some_iff {n : Numeral} {k : Int} : n.toInt? = some k ↔ n = ofInt k := by
  obtain ⟨negative, whole, fraction, exponent⟩ := n
  simp only [toInt?, ofInt, Numeral.mk.injEq]
  constructor
  · intro h
    split at h
    · next plain =>
      refine ⟨?_, ?_, plain.1, plain.2⟩ <;> cases negative <;> grind
    · cases h
  · rintro ⟨sign, rfl, rfl, rfl⟩
    rw [if_pos ⟨rfl, rfl⟩]
    cases negative <;> grind

/-! ## Writing -/

/-- The exponent with its mark and sign. -/
def exponentText : Option Exponent → List Char
  | none => []
  | some e => 'e' :: (if e.negative then '-' else '+') :: (e.first :: e.rest).map Digit.char

/-- The decimal point and the digits after it. -/
def fractionText : List Digit → List Char
  | [] => []
  | ds => '.' :: ds.map Digit.char

/-- The numeral's characters. -/
def chars (n : Numeral) : List Char :=
  (if n.negative then ['-'] else []) ++ Nat.toDigits 10 n.whole ++ fractionText n.fraction
    ++ exponentText n.exponent

/-- The numeral's text. -/
def text (n : Numeral) : String := String.ofList n.chars

/-! ## Reading -/

/-- Read the digits of the whole part; a zero at the front stands alone. -/
def scanWhole (cs : List Char) : Option (Nat × List Char) :=
  match cs with
  | '0' :: rest => some (0, rest)
  | _ =>
    match Digit.span cs with
    | ([], _) => none
    | (ds, rest) => some (Digit.value ds, rest)

/-- Read a decimal point with at least one digit, if there is a point. -/
def scanFraction : List Char → Option (List Digit × List Char)
  | '.' :: cs =>
    match Digit.span cs with
    | ([], _) => none
    | (ds, rest) => some (ds, rest)
  | cs => some ([], cs)

/-- Read an exponent's sign, which may be missing. -/
def scanSign : List Char → Bool × List Char
  | '-' :: cs => (true, cs)
  | '+' :: cs => (false, cs)
  | cs => (false, cs)

/-- Read an exponent with at least one digit, if there is a mark. -/
def scanExponent (cs : List Char) : Option (Option Exponent × List Char) :=
  match cs with
  | c :: rest =>
    if c = 'e' ∨ c = 'E' then
      match Digit.span (scanSign rest).2 with
      | ([], _) => none
      | (d :: ds, rest') => some (some ⟨(scanSign rest).1, d, ds⟩, rest')
    else some (none, cs)
  | [] => some (none, [])

/-- Read a numeral after its sign. -/
def scanUnsigned (negative : Bool) (cs : List Char) : Option (Numeral × List Char) :=
  match scanWhole cs with
  | none => none
  | some (whole, cs) =>
    match scanFraction cs with
    | none => none
    | some (fraction, cs) =>
      match scanExponent cs with
      | none => none
      | some (exponent, cs) => some (⟨negative, whole, fraction, exponent⟩, cs)

/-- Read the numeral at the front of a text, and give what follows it. -/
def scan : List Char → Option (Numeral × List Char)
  | '-' :: cs => scanUnsigned true cs
  | cs => scanUnsigned false cs

/-- The numeral that a whole text spells. -/
def ofChars? (cs : List Char) : Option Numeral :=
  match scan cs with
  | some (n, []) => some n
  | _ => none

end Numeral

end EthGateway
