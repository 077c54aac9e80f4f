import EthGateway.Address
import EthGateway.Notice
import EthGateway.Quantity

/-
# EthGateway.Normalizer -- values in the spelling that their kind asks for

A normalizer respells the values of the kinds it supports. A chain runs its normalizers from left to
right, those that support the kind; under the kind of an array it runs on every element of a list
instead. A step of a chain may be any function of a kind and a value. It is meant to give back
unchanged what it does not recognize, as the five that are builtin do.

Bytes have three spellings: a list of integers from 0 to 255, the sign `0x` with an even number of
hexadecimal digits, and an even number of such digits, not zero, without a sign. The sign of bytes
and of text is `0x` only; `0X` is no sign here, and text that starts with `0x` counts as written in
hexadecimal already, whatever follows.
-/

namespace EthGateway

/-! ## Spellings of bytes -/

namespace Bytes

/-- The byte that an integer is. -/
def byte? : Json → Option UInt8
  | .num n => n.toNat?.bind fun k => if k < 256 then some (UInt8.ofNat k) else none
  | _ => none

/-- The bytes that a list of integers is. -/
def ofList? : Json → Option (List UInt8)
  | .arr items => items.mapM byte?
  | _ => none

/-- The text after the sign `0x`. -/
def stripSign? : List Char → Option (List Char)
  | '0' :: 'x' :: ds => some ds
  | _ => none

/-- At least one hexadecimal digit, no sign and nothing else. -/
def isBare (cs : List Char) : Bool :=
  (stripSign? cs).isNone && !cs.isEmpty && cs.all Text.Hex.isDigit

/-- The bytes that a text spells. -/
def ofText? (cs : List Char) : Option (List UInt8) :=
  match stripSign? cs with
  | some ds => Text.Hex.decode? ds
  | none => if isBare cs then Text.Hex.decode? cs else none

/-- The bytes that a value spells. -/
def ofJson? : Json → Option (List UInt8)
  | .arr items => ofList? (.arr items)
  | .str s => ofText? s.toList
  | _ => none

/-- The canonical spelling: `0x` and two lower-case digits a byte. -/
def toJson (bytes : List UInt8) : Json := .str (String.ofList ('0' :: 'x' :: Text.Hex.encode bytes))

/-- Bytes with zeros after them up to a width. -/
def padTo (width : Nat) (bytes : List UInt8) : List UInt8 :=
  bytes ++ List.replicate (width - bytes.length) 0

/-- The bytes of a text in UTF-8. -/
def ofString (s : String) : List UInt8 := s.toList.flatMap String.utf8EncodeChar

end Bytes

/-! ## Single normalizers -/

/-- A step of normalization: the kinds whose values it respells, and what it makes of a value that
is declared to be of a kind. -/
structure Normalizer where
  name : String
  supports : Kind → Bool
  run : Kind → Json → Noted Json

namespace Normalizer

/-- Bytes in canonical spelling, filled up to the width of their kind; bytes beyond it are reported
and stay as they are. -/
def canonicalBytes (kind : Kind) (v : Json) : Noted Json :=
  match Bytes.ofJson? v with
  | none => pure v
  | some bytes =>
    match kind.byteWidth? with
    | none => pure (Bytes.toJson bytes)
    | some width =>
      if width < bytes.length then .noting (.overlong kind bytes.length) v
      else pure (Bytes.toJson (Bytes.padTo width bytes))

/-- Text as the hexadecimal form of its bytes, unless it has the sign of such a form. -/
def textToHex : Json → Json
  | .str s =>
    match Bytes.stripSign? s.toList with
    | some _ => .str s
    | none => Bytes.toJson (Bytes.ofString s)
  | v => v

/-- Forty digits without a sign. -/
def isBareAddress (cs : List Char) : Bool := Bytes.isBare cs && cs.length = 2 * Address.size

/-- Twenty bytes as a checksummed address, and forty digits with the sign they lack. -/
def addressText : Json → Json
  | .arr items =>
    match Bytes.ofList? (.arr items) with
    | some bytes =>
      if bytes.length = Address.size then .str (Address.checksum bytes) else .arr items
    | none => .arr items
  | .str s =>
    if isBareAddress s.toList then .str (String.ofList ('0' :: 'x' :: s.toList)) else .str s
  | v => v

/-- A normalizer for one kind that has nothing to report. -/
def ofKind (name : String) (kind : Kind) (respell : Json → Json) : Normalizer where
  name := name
  supports k := k = kind
  run _ v := pure (respell v)

/-- Bytes in canonical spelling. -/
def bytesToHex : Normalizer := ⟨"bytes_to_hex", Kind.isByteLike, canonicalBytes⟩

/-- Quantities as hexadecimal text. -/
def intToHex : Normalizer := ofKind "int_to_hex" .uint Json.integerToHex

/-- Text as the hexadecimal form of its bytes. -/
def stringToHex : Normalizer := ofKind "string_to_hex" .string textToHex

/-- Addresses as text. -/
def addressToHex : Normalizer := ofKind "address_to_hex" .address addressText

/-- Quantities as integers. -/
def hexToInt : Normalizer := ofKind "hex_to_int" .uint Json.hexToInteger

/-- The normalizers that are there without anyone's own. -/
def builtin : List Normalizer := [bytesToHex, intToHex, stringToHex, addressToHex, hexToInt]

/-- The builtin normalizer of a name. -/
def ofName? (name : String) : Option Normalizer := builtin.find? fun n => n.name = name

/-- What holds of each of the builtin normalizers. -/
@[elab_as_elim]
theorem builtin_cases {motive : (n : Normalizer) → n ∈ builtin → Prop}
    (bytesToHex : motive bytesToHex (by simp [builtin]))
    (intToHex : motive intToHex (by simp [builtin]))
    (stringToHex : motive stringToHex (by simp [builtin]))
    (addressToHex : motive addressToHex (by simp [builtin]))
    (hexToInt : motive hexToInt (by simp [builtin])) (n : Normalizer) (h : n ∈ builtin) :
    motive n h := by
  rcases List.mem_cons.1 h with rfl | h
  · exact bytesToHex
  rcases List.mem_cons.1 h with rfl | h
  · exact intToHex
  rcases List.mem_cons.1 h with rfl | h
  · exact stringToHex
  rcases List.mem_cons.1 h with rfl | h
  · exact addressToHex
  rcases List.mem_singleton.1 h with rfl
  exact hexToInt

end Normalizer

/-! ## Chains -/

/-- Normalizers in the order in which they run. -/
abbrev Chain := List Normalizer

namespace Chain

/-- The chain for arguments on their way to the backend. -/
def request : Chain := [.bytesToHex, .intToHex, .stringToHex, .addressToHex]

/-- The chain for results on their way back. -/
def result : Chain := [.hexToInt]

/-- Run the normalizers that support a kind, one after the other. -/
def runAll (chain : Chain) (kind : Kind) (v : Json) : Noted Json :=
  .through ((chain.filter fun n => n.supports kind).map fun n => n.run kind) v

/-- Normalize a value of a kind; the elements of a list each by the kind of an array's elements. -/
def normalize (chain : Chain) : Kind → Json → Noted Json
  | .array element, .arr items => Json.arr <$> Noted.each (normalize chain element) items
  | kind, v => runAll chain kind v
termination_by structural kind => kind

/-- The names of the normalizers in brackets. -/
def text (chain : Chain) : String :=
  "[" ++ ", ".intercalate (chain.map fun n => "\"" ++ n.name ++ "\"") ++ "]"

end Chain

end EthGateway
