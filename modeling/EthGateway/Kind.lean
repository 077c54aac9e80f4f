import EthGateway.Text

/-
# EthGateway.Kind -- the kinds of values that arguments may have

A kind is named by an ABI type: `address`, `bool`, `string`, `bytes`, `bytes32` for a hash, `bytesN`
for N from 1 to 31, `uint` or `uintN` for N from 8 to 256 in steps of 8, and `T[]` for arrays at any
depth. Blank characters around a name, and around the name in front of `[]`, do not count. A name
that is none of these is kept as `unknown`, so every text names a kind.
-/

namespace EthGateway

/-- What an argument is meant to be. -/
inductive Kind where
  | address
  | hash
  | fixedBytes (size : Nat)
  | bytes
  | uint
  | bool
  | string
  | array (element : Kind)
  | unknown (name : String)
deriving DecidableEq, Repr, Inhabited

namespace Kind

/-! ## Names -/

/-- The size after a type's stem; it is at most a machine word. -/
def size? (stem : List Char) (name : List Char) : Option Nat :=
  match List.isPrefixOf? stem name with
  | some digits => (Text.Unsigned.parse (Nat.pow 2 64) digits).toOption
  | none => none

/-- The number of bytes of a name `bytesN`. -/
def byteSize? (name : List Char) : Option Nat :=
  (size? ['b', 'y', 't', 'e', 's'] name).filter fun n => 1 ≤ n && n < 32

/-- The number of bits of a name `uintN`. -/
def bitSize? (name : List Char) : Option Nat :=
  (size? ['u', 'i', 'n', 't'] name).filter fun n => 0 < n && n ≤ 256 && n % 8 = 0

/-- The kind of a trimmed name that is not an array's. -/
def ofName (name : List Char) : Kind :=
  if name = ['a', 'd', 'd', 'r', 'e', 's', 's'] then .address
  else if name = ['b', 'o', 'o', 'l'] then .bool
  else if name = ['s', 't', 'r', 'i', 'n', 'g'] then .string
  else if name = ['b', 'y', 't', 'e', 's'] then .bytes
  else if name = ['b', 'y', 't', 'e', 's', '3', '2'] then .hash
  else if name = ['u', 'i', 'n', 't'] then .uint
  else
    match byteSize? name with
    | some n => .fixedBytes n
    | none =>
      match bitSize? name with
      | some _ => .uint
      | none => .unknown (String.ofList name)

/-- The text in front of the mark of an array. -/
def element? (name : List Char) : Option (List Char) :=
  match name.reverse with
  | ']' :: '[' :: r => some r.reverse
  | _ => none

theorem eq_append_of_element? {name e : List Char} (h : element? name = some e) :
    name = e ++ ['[', ']'] := by
  unfold element? at h
  split at h
  · next r hr =>
    obtain rfl := Option.some.inj h
    have := congrArg List.reverse hr
    simpa using this
  · simp at h

theorem length_lt_of_element? {cs e : List Char} (h : element? (Text.trim cs) = some e) :
    e.length < cs.length := by
  have h₁ := Text.length_trim_le cs
  have h₂ := congrArg List.length (eq_append_of_element? h)
  simp at h₂
  omega

/-- Read the name of a kind: an array's element is read in turn, a shorter name. -/
def ofChars (cs : List Char) : Kind :=
  match h : element? (Text.trim cs) with
  | some e =>
    have := length_lt_of_element? h
    .array (ofChars e)
  | none => ofName (Text.trim cs)
termination_by cs.length

/-- The kind that a text names. -/
def parse (name : String) : Kind := ofChars name.toList

/-- The characters of the name. -/
def chars : Kind → List Char
  | .address => ['a', 'd', 'd', 'r', 'e', 's', 's']
  | .hash => ['b', 'y', 't', 'e', 's', '3', '2']
  | .fixedBytes n => ['b', 'y', 't', 'e', 's'] ++ Nat.toDigits 10 n
  | .bytes => ['b', 'y', 't', 'e', 's']
  | .uint => ['u', 'i', 'n', 't']
  | .bool => ['b', 'o', 'o', 'l']
  | .string => ['s', 't', 'r', 'i', 'n', 'g']
  | .array e => e.chars ++ ['[', ']']
  | .unknown name => name.toList

/-- The name of a kind. -/
def text (k : Kind) : String := String.ofList k.chars

/-! ## Bytes -/

/-- The kinds whose values are bytes. -/
def isByteLike : Kind → Bool
  | .bytes | .hash | .fixedBytes _ => true
  | _ => false

/-- The number of bytes that every value of the kind has. -/
def byteWidth? : Kind → Option Nat
  | .hash => some 32
  | .fixedBytes n => some n
  | _ => none

/-- The kind of the elements that are no arrays themselves. -/
def innermost : Kind → Kind
  | .array e => e.innermost
  | k => k

end Kind

end EthGateway
