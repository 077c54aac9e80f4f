/-
# EthGateway.Text -- characters, numbers and bytes in texts

The blank characters are those of the Unicode property `White_Space`: twenty-five code points, of
which six are ASCII. Format characters such as the zero width space and the byte order mark, and the
information separators U+001C to U+001F, are not blank.

The text of an unsigned number is an optional plus sign and one or more ASCII digits; leading zeros
count for nothing. The digits are read from the left, and the first digit that is none, or that
takes the value to the bound, decides the error.

In hexadecimal each byte is two digits, in lower case where it is written. Digits of either case are
read, and an odd count or any other character fails (`Hex.decode?_encode`).

Bytes from outside need not be UTF-8. They are read as symbols: a symbol is a character or, for one
byte that starts no character, `none`. Nothing is replaced, so a reader can accept a stray byte in a
place that it skips and refuse it anywhere else. The bytes of a text are the text's characters, with
no stray byte among them (`Utf8.symbols_toByteArray`).
-/

namespace EthGateway.Text

/-! ## Blank characters and trimming -/

/-- The code points with the property `White_Space`. -/
def blankCodePoints : List Nat :=
  [0x09, 0x0A, 0x0B, 0x0C, 0x0D, 0x20, 0x85, 0xA0, 0x1680,
   0x2000, 0x2001, 0x2002, 0x2003, 0x2004, 0x2005, 0x2006, 0x2007, 0x2008, 0x2009, 0x200A,
   0x2028, 0x2029, 0x202F, 0x205F, 0x3000]

/-- Blank characters separate words and carry no ink. -/
def isBlank (c : Char) : Bool := blankCodePoints.contains c.toNat

/-- Drop the blank characters at the front. -/
def trimStart (cs : List Char) : List Char := cs.dropWhile isBlank

/-- Drop the blank characters at the end. -/
def trimEnd (cs : List Char) : List Char := (trimStart cs.reverse).reverse

/-- Drop the blank characters at both ends. -/
def trim (cs : List Char) : List Char := trimEnd (trimStart cs)

theorem length_trimStart_le (cs : List Char) : (trimStart cs).length ≤ cs.length :=
  (List.dropWhile_suffix _).length_le

theorem length_trimEnd_le (cs : List Char) : (trimEnd cs).length ≤ cs.length := by
  have h := length_trimStart_le cs.reverse
  simpa [trimEnd] using h

theorem length_trim_le (cs : List Char) : (trim cs).length ≤ cs.length :=
  Nat.le_trans (length_trimEnd_le _) (length_trimStart_le _)

/-! ## Unsigned decimal numbers of a bounded width -/

/-- Why a text is not an unsigned number below a bound. -/
inductive UnsignedError where
  | empty
  | invalidDigit
  | tooLarge
deriving DecidableEq, Repr

/-- The wording of each cause. -/
def UnsignedError.message : UnsignedError → String
  | .empty => "cannot parse integer from empty string"
  | .invalidDigit => "invalid digit found in string"
  | .tooLarge => "number too large to fit in target type"

/-- The value of an ASCII decimal digit. -/
def decimalDigit? (c : Char) : Option Nat :=
  if '0' ≤ c ∧ c ≤ '9' then some (c.toNat - '0'.toNat) else none

namespace Unsigned

/-- Read digits on top of the value so far, which stays below the bound. -/
def readDigits (bound : Nat) : Nat → List Char → Except UnsignedError Nat
  | value, [] => .ok value
  | value, c :: cs =>
    match decimalDigit? c with
    | none => .error .invalidDigit
    | some d =>
      if value * 10 + d < bound then readDigits bound (value * 10 + d) cs else .error .tooLarge

/-- Read a whole text; a sign alone is no number. -/
def parse (bound : Nat) : List Char → Except UnsignedError Nat
  | [] => .error .empty
  | '+' :: [] => .error .invalidDigit
  | '+' :: cs => readDigits bound 0 cs
  | cs => readDigits bound 0 cs

end Unsigned

/-! ## Bytes as pairs of hexadecimal digits -/

namespace Hex

/-- The digit of a value below sixteen, in lower case. -/
def digit (value : Nat) : Char := Nat.digitChar value

/-- The value of a digit of either case. -/
def value? (c : Char) : Option Nat :=
  if '0' ≤ c ∧ c ≤ '9' then some (c.toNat - '0'.toNat)
  else if 'a' ≤ c ∧ c ≤ 'f' then some (c.toNat - 'a'.toNat + 10)
  else if 'A' ≤ c ∧ c ≤ 'F' then some (c.toNat - 'A'.toNat + 10)
  else none

/-- An ASCII hexadecimal digit of either case. -/
def isDigit (c : Char) : Bool := (value? c).isSome

/-- The two digits of a byte, the high one first. -/
def pair (b : UInt8) : List Char := [digit (b.toNat / 16), digit (b.toNat % 16)]

/-- Two digits a byte. -/
def encode (bytes : List UInt8) : List Char := bytes.flatMap pair

/-- Read bytes of two digits each. -/
def decode? : List Char → Option (List UInt8)
  | [] => some []
  | [_] => none
  | a :: b :: cs =>
    match value? a, value? b, decode? cs with
    | some high, some low, some bytes => some (UInt8.ofNat (high * 16 + low) :: bytes)
    | _, _, _ => none

theorem value?_digit : ∀ n < 16, value? (digit n) = some n := by decide

theorem length_encode (bytes : List UInt8) : (encode bytes).length = 2 * bytes.length := by
  induction bytes with
  | nil => rfl
  | cons b bytes ih => simp [encode, pair] at ih ⊢; omega

theorem decode?_encode (bytes : List UInt8) : decode? (encode bytes) = some bytes := by
  induction bytes with
  | nil => rfl
  | cons b bytes ih =>
    have hb := b.toNat_lt
    have high := value?_digit (b.toNat / 16) (by omega)
    have low := value?_digit (b.toNat % 16) (by omega)
    have whole : b.toNat / 16 * 16 + b.toNat % 16 = b.toNat := by omega
    have ih' : decode? (List.flatMap pair bytes) = some bytes := ih
    simp [encode, pair, decode?, high, low, ih', whole]

end Hex

/-! ## Bytes as characters, and the bytes that belong to none -/

/-- A character, or a byte that belongs to none. -/
abbrev Symbol := Option Char

namespace Utf8

/-- The symbols of the bytes from a place on; each takes at least one byte of fuel. -/
def symbolsFrom (bytes : ByteArray) : (fuel start : Nat) → List Symbol
  | 0, _ => []
  | fuel + 1, start =>
    if start < bytes.size then
      match bytes.utf8DecodeChar? start with
      | some c => some c :: symbolsFrom bytes fuel (start + c.utf8Size)
      | none => none :: symbolsFrom bytes fuel (start + 1)
    else []

/-- The symbols of bytes. -/
def symbols (bytes : ByteArray) : List Symbol := symbolsFrom bytes bytes.size 0

theorem utf8DecodeChar?_append_size (before after : ByteArray) :
    (before ++ after).utf8DecodeChar? before.size = after.utf8DecodeChar? 0 := by
  rw [ByteArray.utf8DecodeChar?_eq_utf8DecodeChar?_extract,
    ByteArray.extract_append_eq_right rfl ByteArray.size_append]

/-- Characters are read back from their encoding wherever it stands at the end. -/
theorem symbolsFrom_append_utf8Encode (before : ByteArray) (cs : List Char) {fuel : Nat}
    (enough : cs.utf8Encode.size ≤ fuel) :
    symbolsFrom (before ++ cs.utf8Encode) fuel before.size = cs.map some := by
  induction cs generalizing before fuel with
  | nil => cases fuel <;> simp [symbolsFrom]
  | cons c cs ih =>
    have size : (c :: cs).utf8Encode.size = c.utf8Size + cs.utf8Encode.size := by
      rw [List.utf8Encode_cons, ByteArray.size_append, List.utf8Encode_singleton]
      simp
    have positive := c.utf8Size_pos
    obtain ⟨fuel, rfl⟩ : ∃ n, fuel = n + 1 := ⟨fuel - 1, by omega⟩
    have inside : before.size < (before ++ (c :: cs).utf8Encode).size := by
      rw [ByteArray.size_append]; omega
    have next : symbolsFrom _ fuel _ = _ := ih (before ++ [c].utf8Encode) (by omega)
    rw [ByteArray.append_assoc, ← List.utf8Encode_cons] at next
    simp only [symbolsFrom, if_pos inside, utf8DecodeChar?_append_size,
      List.utf8DecodeChar?_utf8Encode_cons, List.map_cons, List.cons.injEq, true_and]
    simpa [List.utf8Encode_singleton] using next

/-- The bytes of a text hold its characters and no stray byte. -/
theorem symbols_toByteArray (s : String) : symbols s.toByteArray = s.toList.map some := by
  rw [symbols, ← String.utf8Encode_toList]
  simpa using symbolsFrom_append_utf8Encode ByteArray.empty s.toList (Nat.le_refl _)

end Utf8

end EthGateway.Text
