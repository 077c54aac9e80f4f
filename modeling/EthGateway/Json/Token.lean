import EthGateway.Json.Numeral
import EthGateway.Text

/-
# EthGateway.Json.Token -- the words of a JSON text

A JSON text is a sequence of punctuation marks, the three names, numbers and strings, with space,
tab, line feed and carriage return between them. `Token.read?` fails on anything else.

A string may escape any UTF-16 unit. Two escaped units that form a surrogate pair are one character;
a surrogate without its partner is no character. Nor is a stray byte, which only a string may hold.
A string with either has no text: its token is `str none`. Whether that is an error is for the
reader of the tokens to say.
-/

namespace EthGateway.Json

open Text (Symbol)

/-- A word of a JSON text. -/
inductive Token where
  | beginArray
  | endArray
  | beginObject
  | endObject
  | comma
  | colon
  | null
  | bool (b : Bool)
  | num (n : Numeral)
  | str (text : Option String)
deriving DecidableEq, Repr

namespace Token

/-! ## Strings -/

/-- The code point of an escape of one letter. -/
def escape? : Char → Option Nat
  | '"' => some 0x22
  | '\\' => some 0x5C
  | '/' => some 0x2F
  | 'b' => some 0x08
  | 'f' => some 0x0C
  | 'n' => some 0x0A
  | 'r' => some 0x0D
  | 't' => some 0x09
  | _ => none

/-- The unit of four hexadecimal digits. -/
def unit? (a b c d : Char) : Option Nat :=
  match Text.Hex.value? a, Text.Hex.value? b, Text.Hex.value? c, Text.Hex.value? d with
  | some a, some b, some c, some d => some (((a * 16 + b) * 16 + c) * 16 + d)
  | _, _, _, _ => none

/-- Put a unit, or the gap of a stray byte, in front of those that were read after it. -/
def consUnit (u : Option Nat) :
    Option (List (Option Nat) × List Symbol) → Option (List (Option Nat) × List Symbol)
  | some (us, rest) => some (u :: us, rest)
  | none => none

/-- Read a string after its opening quote: the code points and escaped units up to the closing one,
with `none` for each stray byte, and what follows it. A control character must be escaped. -/
def units? : List Symbol → Option (List (Option Nat) × List Symbol)
  | [] => none
  | some '"' :: rest => some ([], rest)
  | some '\\' :: some 'u' :: some a :: some b :: some c :: some d :: rest =>
    match unit? a b c d with
    | some u => consUnit (some u) (units? rest)
    | none => none
  | some '\\' :: some e :: rest =>
    match escape? e with
    | some u => consUnit (some u) (units? rest)
    | none => none
  | some '\\' :: _ => none
  | some c :: rest => if c.toNat < 0x20 then none else consUnit (some c.toNat) (units? rest)
  | none :: rest => consUnit none (units? rest)

/-- A unit that starts a surrogate pair. -/
def isHighSurrogate (u : Nat) : Bool := 0xD800 ≤ u && u < 0xDC00

/-- A unit that ends a surrogate pair. -/
def isLowSurrogate (u : Nat) : Bool := 0xDC00 ≤ u && u < 0xE000

/-- The code point of a surrogate pair. -/
def surrogatePair (high low : Nat) : Nat := 0x10000 + (high - 0xD800) * 0x400 + (low - 0xDC00)

/-- The characters of a run of code points and units; `none` if a surrogate stands alone. -/
def characters? : List Nat → Option (List Char)
  | [] => some []
  | high :: low :: rest =>
    if isHighSurrogate high && isLowSurrogate low then
      (characters? rest).map (Char.ofNat (surrogatePair high low) :: ·)
    else if isHighSurrogate high || isLowSurrogate high then none
    else (characters? (low :: rest)).map (Char.ofNat high :: ·)
  | [u] => if isHighSurrogate u || isLowSurrogate u then none else some [Char.ofNat u]

/-- The text of what was read between quotes, unless a part of it is no character. -/
def text? (us : List (Option Nat)) : Option String :=
  ((us.mapM id).bind characters?).map String.ofList

/-! ## All tokens -/

/-- The four characters that may stand between tokens. -/
def isSpace (c : Char) : Bool := c = ' ' || c = '\t' || c = '\n' || c = '\r'

/-- The mark that a character is. -/
def mark? : Char → Option Token
  | '[' => some .beginArray
  | ']' => some .endArray
  | '\x7b' => some .beginObject
  | '\x7d' => some .endObject
  | ',' => some .comma
  | ':' => some .colon
  | _ => none

/-- The three names, with their spelling. -/
def names : List (List Char × Token) :=
  [(['n', 'u', 'l', 'l'], .null), (['t', 'r', 'u', 'e'], .bool true),
    (['f', 'a', 'l', 's', 'e'], .bool false)]

/-- The name at the front of a text, and what follows it. -/
def name? (ss : List Symbol) : Option (Token × List Symbol) :=
  names.findSome? fun n => (List.isPrefixOf? (n.1.map some) ss).map fun rest => (n.2, rest)

/-- The characters that numbers are written with. -/
def isOfNumeral (c : Char) : Bool :=
  ('0' ≤ c && c ≤ '9') || c = '-' || c = '+' || c = '.' || c = 'e' || c = 'E'

/-- The characters of numbers at the front of a text, and what follows them. -/
def numeralSpan : List Symbol → List Char × List Symbol
  | some c :: ss =>
    if isOfNumeral c then
      match numeralSpan ss with
      | (cs, rest) => (c :: cs, rest)
    else ([], some c :: ss)
  | ss => ([], ss)

/-- The number at the front of a text, and what follows it. Nothing that may follow a number starts
with a character of numbers, so all of those at the front are its own. -/
def num? (ss : List Symbol) : Option (Token × List Symbol) :=
  (Numeral.ofChars? (numeralSpan ss).1).map fun n => (.num n, (numeralSpan ss).2)

/-- The token at the front of a text that does not start with a space, and what follows it. -/
def next? : List Symbol → Option (Token × List Symbol)
  | some '"' :: ss =>
    match units? ss with
    | some (us, rest) => some (.str (text? us), rest)
    | none => none
  | some c :: ss =>
    match mark? c with
    | some t => some (t, ss)
    | none =>
      match name? (some c :: ss) with
      | some r => some r
      | none => num? (some c :: ss)
  | _ => none

/-- Read all tokens of a text that is no longer than the fuel. -/
def readAll : (fuel : Nat) → List Symbol → Option (List Token)
  | _, [] => some []
  | 0, _ :: _ => none
  | fuel + 1, s :: ss =>
    if s.any isSpace then readAll fuel ss
    else
      match next? (s :: ss) with
      | some (t, rest) => (readAll fuel rest).map (t :: ·)
      | none => none

/-- The tokens of a text; each takes at least one symbol, so the length is fuel enough. -/
def read? (ss : List Symbol) : Option (List Token) := readAll ss.length ss

end Token

end EthGateway.Json
