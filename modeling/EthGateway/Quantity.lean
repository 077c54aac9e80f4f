import EthGateway.Json.Basic
import EthGateway.Text

/-
# EthGateway.Quantity -- 256-bit quantities and their two spellings

A quantity is a natural number below 2 ^ 256. The node spells it as `0x` and lower-case hexadecimal
digits without a leading zero (`encode`), the test backend as a JSON integer.

Reading is laxer than writing, and in two ways that differ. `decode?` takes `0x` or `0X`, digits of
either case, any number of leading zeros, and underscores between, before or after the digits, which
it skips. `isHexString` knows no underscores but accepts the bare sign `0x` and digits of any count,
also those of a number that is no quantity.
-/

namespace EthGateway

/-- A natural number below 2 ^ 256. -/
structure Quantity where
  val : Nat
  isLt : val < Nat.pow 2 256
deriving DecidableEq

namespace Quantity

/-- The quantity of a natural number that is small enough. -/
def ofNat? (n : Nat) : Option Quantity := if h : n < Nat.pow 2 256 then some ⟨n, h⟩ else none

/-- The quantity nearest to a natural number. -/
def saturate (n : Nat) : Quantity := ⟨min n (Nat.pow 2 256 - 1), by
  have positive : 0 < Nat.pow 2 256 := by decide
  omega⟩

theorem ofNat?_eq_some_iff {n : Nat} {q : Quantity} : ofNat? n = some q ↔ n = q.val := by
  obtain ⟨m, hm⟩ := q
  unfold ofNat?
  split
  · simp
  · simp only [reduceCtorEq, false_iff]; intro h; simp_all

/-! ## Hexadecimal text -/

/-- The text after the sign of hexadecimal digits, `0x` or `0X`. -/
def stripSign? : List Char → Option (List Char)
  | '0' :: 'x' :: ds => some ds
  | '0' :: 'X' :: ds => some ds
  | _ => none

/-- The value of hexadecimal digits put after those read so far; underscores are skipped. -/
def readDigits : (value : Nat) → List Char → Option Nat
  | value, [] => some value
  | value, c :: cs =>
    if c = '_' then readDigits value cs
    else
      match Text.Hex.value? c with
      | some d => readDigits (value * 16 + d) cs
      | none => none

/-- Read a quantity; something must follow the sign. -/
def decodeChars? (cs : List Char) : Option Quantity :=
  match stripSign? cs with
  | none => none
  | some [] => none
  | some (d :: ds) => (readDigits 0 (d :: ds)).bind ofNat?

/-- Read a quantity. -/
def decode? (s : String) : Option Quantity := decodeChars? s.toList

/-- The canonical characters of a quantity. -/
def encodeChars (q : Quantity) : List Char := '0' :: 'x' :: Nat.toDigits 16 q.val

/-- The canonical text of a quantity. -/
def encode (q : Quantity) : String := String.ofList q.encodeChars

/-- The canonical text: the sign `0x`, then digits in lower case, of which the first is zero only if
it stands alone. -/
def Canonical (s : String) : Prop :=
  ∃ d ds, s.toList = '0' :: 'x' :: d :: ds ∧
    (∀ c ∈ d :: ds, Text.Hex.isDigit c ∧ ¬ c.isUpper) ∧ (d = '0' → ds = [])

/-- The sign of hexadecimal digits with nothing but such digits after it. -/
def isHexText (s : String) : Bool :=
  match stripSign? s.toList with
  | some ds => ds.all Text.Hex.isDigit
  | none => false

/-! ## Quantities in JSON -/

/-- The quantity of a numeral of plain digits. -/
def ofNumeral? (n : Numeral) : Option Quantity := n.toNat?.bind ofNat?

/-- The quantity that a number or a string spells. -/
def ofJson? : Json → Option Quantity
  | .num n => ofNumeral? n
  | .str s => decode? s
  | _ => none

/-- The integer spelling. -/
def toJson (q : Quantity) : Json := .ofNat q.val

end Quantity

namespace Json

/-- A string of hexadecimal digits after their sign, possibly of none. -/
def isHexString : Json → Bool
  | .str s => Quantity.isHexText s
  | _ => false

/-- The blocks that have a name. -/
def namedBlocks : List String := ["latest", "earliest", "pending"]

/-- The name of a block. -/
def isNamedBlock : Json → Bool
  | .str s => namedBlocks.contains s
  | _ => false

/-- Spell a quantity as an integer; every other value stays. -/
def hexToInteger : Json → Json
  | .str s =>
    match Quantity.decode? s with
    | some q => q.toJson
    | none => .str s
  | v => v

/-- Spell a quantity as hexadecimal text; every other value stays. -/
def integerToHex : Json → Json
  | .num n =>
    match Quantity.ofNumeral? n with
    | some q => .str q.encode
    | none => .num n
  | v => v

end Json

/-! ## Gas -/

/-- How an estimate of gas becomes the limit that is asked for. -/
structure GasPolicy where
  multiplier : Nat
deriving DecidableEq, Repr

namespace GasPolicy

/-- Twice the estimate. -/
def standard : GasPolicy := ⟨2⟩

/-- The multiple of an estimate, or the largest quantity if that is less. -/
def limit (policy : GasPolicy) (estimate : Quantity) : Quantity :=
  .saturate (estimate.val * policy.multiplier)

end GasPolicy

end EthGateway
