import EthGateway.Json.Token

/-
# EthGateway.Json.Node -- a JSON text as it is written

A node is a JSON value before any reading of it: members stand in the order of the text, a repeated
key is still repeated, and a string with a lone surrogate or a stray byte is there without a text.
Whoever takes a value from a node decides what of this is an error; a reader that skips a member
does not look into it at all.
-/

namespace EthGateway.Json

open Text (Symbol)

/-- A value as it is written. -/
inductive Node where
  | null
  | bool (b : Bool)
  | num (n : Numeral)
  | str (text : Option String)
  | arr (items : List Node)
  | obj (members : List (Option String × Node))
deriving Repr, Inhabited

namespace Node

/-! ## From tokens -/

mutual

/-- Read the value at the front of the tokens. -/
def value? : (fuel : Nat) → List Token → Option (Node × List Token)
  | 0, _ => none
  | _ + 1, .null :: ts => some (.null, ts)
  | _ + 1, .bool b :: ts => some (.bool b, ts)
  | _ + 1, .num n :: ts => some (.num n, ts)
  | _ + 1, .str s :: ts => some (.str s, ts)
  | _ + 1, .beginArray :: .endArray :: ts => some (.arr [], ts)
  | fuel + 1, .beginArray :: ts =>
    match items? fuel ts with
    | some (vs, rest) => some (.arr vs, rest)
    | none => none
  | _ + 1, .beginObject :: .endObject :: ts => some (.obj [], ts)
  | fuel + 1, .beginObject :: ts =>
    match members? fuel ts with
    | some (ms, rest) => some (.obj ms, rest)
    | none => none
  | _ + 1, _ => none

/-- Read one item or more, and the end of their array. -/
def items? : (fuel : Nat) → List Token → Option (List Node × List Token)
  | 0, _ => none
  | fuel + 1, ts =>
    match value? fuel ts with
    | some (v, .endArray :: rest) => some ([v], rest)
    | some (v, .comma :: rest) =>
      match items? fuel rest with
      | some (vs, rest') => some (v :: vs, rest')
      | none => none
    | _ => none

/-- Read one member or more, and the end of their object. -/
def members? : (fuel : Nat) → List Token → Option (List (Option String × Node) × List Token)
  | 0, _ => none
  | fuel + 1, .str key :: .colon :: ts =>
    match value? fuel ts with
    | some (v, .endObject :: rest) => some ([(key, v)], rest)
    | some (v, .comma :: rest) =>
      match members? fuel rest with
      | some (ms, rest') => some ((key, v) :: ms, rest')
      | none => none
    | _ => none
  | _ + 1, _ => none

end

/-- The value that all the tokens spell; a token takes two steps at most. -/
def ofTokens? (ts : List Token) : Option Node :=
  match value? (2 * ts.length + 1) ts with
  | some (v, []) => some v
  | _ => none

/-! ## From texts and bytes -/

/-- The value that all the symbols spell. -/
def ofSymbols? (ss : List Symbol) : Option Node := (Token.read? ss).bind ofTokens?

/-- The value that a whole text spells. -/
def read? (text : String) : Option Node := ofSymbols? (text.toList.map some)

/-- The value that bytes spell; a stray byte may stand in a string. -/
def ofBytes? (bytes : ByteArray) : Option Node := ofSymbols? (Text.Utf8.symbols bytes)

/-- The bytes of a text spell what the text spells. -/
theorem ofBytes?_toByteArray (text : String) : ofBytes? text.toByteArray = read? text := by
  rw [ofBytes?, Text.Utf8.symbols_toByteArray, read?]

end Node

end EthGateway.Json
