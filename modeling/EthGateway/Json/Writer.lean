import EthGateway.Json.Basic

/-
# EthGateway.Json.Writer -- compact JSON text

A value is written without spaces, members in the order of their record. Inside strings only the
quote, the backslash and the control characters below U+0020 are escaped, the common ones by a
letter and the rest by four lower-case hexadecimal digits.
-/

namespace EthGateway.Json

/-- How one character stands in a string. -/
def charText (c : Char) : List Char :=
  if c = '"' then ['\\', '"']
  else if c = '\\' then ['\\', '\\']
  else if c = '\n' then ['\\', 'n']
  else if c = '\r' then ['\\', 'r']
  else if c = '\t' then ['\\', 't']
  else if c.toNat = 0x08 then ['\\', 'b']
  else if c.toNat = 0x0C then ['\\', 'f']
  else if c.toNat < 0x20 then
    ['\\', 'u', '0', '0', Nat.digitChar (c.toNat / 16), Nat.digitChar (c.toNat % 16)]
  else [c]

/-- A string with its quotes. -/
def stringText (s : String) : List Char := '"' :: (s.toList.flatMap charText ++ ['"'])

mutual

/-- The characters of a value. -/
def chars : Json → List Char
  | .null => ['n', 'u', 'l', 'l']
  | .bool true => ['t', 'r', 'u', 'e']
  | .bool false => ['f', 'a', 'l', 's', 'e']
  | .num n => n.chars
  | .str s => stringText s
  | .arr [] => ['[', ']']
  | .arr (v :: vs) => '[' :: (chars v ++ itemsText vs ++ [']'])
  | .obj [] => ['\x7b', '\x7d']
  | .obj ((k, v) :: ms) =>
    '\x7b' :: (stringText k ++ ':' :: chars v ++ membersText ms ++ ['\x7d'])
termination_by structural v => v

/-- The items after the first, a comma before each. -/
def itemsText : List Json → List Char
  | [] => []
  | v :: vs => ',' :: (chars v ++ itemsText vs)
termination_by structural vs => vs

/-- The members after the first, a comma before each. -/
def membersText : List (String × Json) → List Char
  | [] => []
  | (k, v) :: ms => ',' :: (stringText k ++ ':' :: chars v ++ membersText ms)
termination_by structural ms => ms

end

/-- The compact text of a value. -/
def compress (v : Json) : String := String.ofList (chars v)

end EthGateway.Json
