import EthGateway.Json.Numeral
import EthGateway.Record

/-
# EthGateway.Json.Basic -- JSON values

Numbers keep their digits (`Numeral`) and records list their members (`Record`). `Json.Ordered` says
that every record at any depth lists its keys in ascending order without repetition: the reader
builds only such values, and two of them are equal exactly if they hold the same members.
-/

namespace EthGateway

/-- A JSON value. -/
inductive Json where
  | null
  | bool (b : Bool)
  | num (n : Numeral)
  | str (s : String)
  | arr (items : List Json)
  | obj (members : List (String × Json))
deriving Repr, Inhabited

namespace Json

/-- The six shapes of a value. -/
inductive Shape where
  | null
  | bool
  | number
  | string
  | list
  | map
deriving DecidableEq, Repr

/-- The name of a shape in messages. -/
def Shape.name : Shape → String
  | .null => "null"
  | .bool => "bool"
  | .number => "number"
  | .string => "string"
  | .list => "list"
  | .map => "map"

/-- The shape of a value. -/
def shape : Json → Shape
  | .null => .null
  | .bool _ => .bool
  | .num _ => .number
  | .str _ => .string
  | .arr _ => .list
  | .obj _ => .map

/-- The value `null`. -/
def isNull : Json → Bool
  | .null => true
  | _ => false

/-- A record. -/
def isRecord : Json → Bool
  | .obj _ => true
  | _ => false

/-- The number that a natural number is written as. -/
def ofNat (n : Nat) : Json := .num (.ofNat n)

/-- The number that an integer is written as. -/
def ofInt (n : Int) : Json := .num (.ofInt n)

/-- A list of texts. -/
def ofStrings (ss : List String) : Json := .arr (ss.map .str)

/-- A record of the given members, the last of several under one key. -/
def ofMembers (members : List (String × Json)) : Json := .obj (Record.ofList members)

/-- The member of a record under a key; no other value has members. -/
def get? : Json → String → Option Json
  | .obj r, key => Record.get? r key
  | _, _ => none

/-! ## Ordered values -/

mutual

/-- Every record inside the value is ordered. -/
def Ordered : Json → Prop
  | .arr items => OrderedItems items
  | .obj members => Record.Ordered members ∧ OrderedMembers members
  | _ => True
termination_by structural v => v

/-- Every value of a list is ordered. -/
def OrderedItems : List Json → Prop
  | [] => True
  | v :: vs => Ordered v ∧ OrderedItems vs
termination_by structural vs => vs

/-- Every value of a list of members is ordered. -/
def OrderedMembers : List (String × Json) → Prop
  | [] => True
  | (_, v) :: ms => Ordered v ∧ OrderedMembers ms
termination_by structural ms => ms

end

theorem orderedItems_iff {vs : List Json} : OrderedItems vs ↔ ∀ v ∈ vs, Ordered v := by
  induction vs with
  | nil => simp [OrderedItems]
  | cons v vs ih => simp [OrderedItems, ih]

theorem orderedMembers_iff {ms : List (String × Json)} :
    OrderedMembers ms ↔ ∀ m ∈ ms, Ordered m.2 := by
  induction ms with
  | nil => simp [OrderedMembers]
  | cons m ms ih => simp [OrderedMembers, ih]

/-! ## Equality is decidable -/

mutual

/-- Decide whether two values are equal. -/
def decEq : (a b : Json) → Decidable (a = b)
  | .null, .null => .isTrue rfl
  | .bool a, .bool b => if h : a = b then .isTrue (by rw [h]) else .isFalse (by simp [h])
  | .num a, .num b => if h : a = b then .isTrue (by rw [h]) else .isFalse (by simp [h])
  | .str a, .str b => if h : a = b then .isTrue (by rw [h]) else .isFalse (by simp [h])
  | .arr a, .arr b =>
    match decEqItems a b with
    | .isTrue h => .isTrue (by rw [h])
    | .isFalse h => .isFalse (by simp [h])
  | .obj a, .obj b =>
    match decEqMembers a b with
    | .isTrue h => .isTrue (by rw [h])
    | .isFalse h => .isFalse (by simp [h])
  | .null, .bool _ | .null, .num _ | .null, .str _ | .null, .arr _ | .null, .obj _
  | .bool _, .null | .bool _, .num _ | .bool _, .str _ | .bool _, .arr _ | .bool _, .obj _
  | .num _, .null | .num _, .bool _ | .num _, .str _ | .num _, .arr _ | .num _, .obj _
  | .str _, .null | .str _, .bool _ | .str _, .num _ | .str _, .arr _ | .str _, .obj _
  | .arr _, .null | .arr _, .bool _ | .arr _, .num _ | .arr _, .str _ | .arr _, .obj _
  | .obj _, .null | .obj _, .bool _ | .obj _, .num _ | .obj _, .str _ | .obj _, .arr _ =>
    .isFalse nofun
termination_by structural a => a

/-- Decide whether two lists of values are equal. -/
def decEqItems : (a b : List Json) → Decidable (a = b)
  | [], [] => .isTrue rfl
  | x :: xs, y :: ys =>
    match decEq x y, decEqItems xs ys with
    | .isTrue h, .isTrue h' => .isTrue (by rw [h, h'])
    | .isFalse h, _ => .isFalse (by simp [h])
    | _, .isFalse h => .isFalse (by simp [h])
  | [], _ :: _ | _ :: _, [] => .isFalse nofun
termination_by structural a => a

/-- Decide whether two lists of members are equal. -/
def decEqMembers : (a b : List (String × Json)) → Decidable (a = b)
  | [], [] => .isTrue rfl
  | (k, x) :: xs, (l, y) :: ys =>
    if hk : k = l then
      match decEq x y, decEqMembers xs ys with
      | .isTrue h, .isTrue h' => .isTrue (by rw [hk, h, h'])
      | .isFalse h, _ => .isFalse (by simp [h])
      | _, .isFalse h => .isFalse (by simp [h])
    else .isFalse (by simp [hk])
  | [], _ :: _ | _ :: _, [] => .isFalse nofun
termination_by structural a => a

end

instance : DecidableEq Json := decEq

end Json

end EthGateway
