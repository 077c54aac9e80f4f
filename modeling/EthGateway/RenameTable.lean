import EthGateway.Json.Basic

/-
# EthGateway.RenameTable -- field names of two conventions

A table pairs the name of a field inside the test backend with its name on the wire. No internal
name and no wire name occurs twice, so a look-up in either direction has one answer. The same word
may be internal in one pair and wire in another: tables may chain or swap names.

Renaming a record takes its members in key order and inserts each under its new name into an empty
record. Where a renamed member and one that keeps its name meet, the one that came later in the
order of the old names stays.
-/

namespace EthGateway

/-- Which way a record goes. -/
inductive Direction where
  | toWire
  | toInternal
deriving DecidableEq, Repr

/-- Pairs of an internal and a wire name, none of them twice. -/
structure RenameTable where
  name : String
  pairs : List (String × String)
  internal_nodup : (pairs.map Prod.fst).Nodup
  wire_nodup : (pairs.map Prod.snd).Nodup
deriving DecidableEq

namespace RenameTable

/-! ## Building a table -/

/-- A table whose pairs use a name twice. -/
structure Clash where
  table : String
  field : String
deriving DecidableEq, Repr

/-- The wording of a clash. -/
def Clash.message (c : Clash) : String :=
  "rename table " ++ c.table ++ " maps more than one field onto " ++ c.field

/-- The first name, in the order of the pairs and the internal one of each pair first, that was used
before in its role. -/
def firstRepeat (internals wires : List String) : List (String × String) → Option String
  | [] => none
  | (i, w) :: pairs =>
    if i ∈ internals then some i
    else if w ∈ wires then some w
    else firstRepeat (i :: internals) (w :: wires) pairs

theorem firstRepeat_eq_none_iff {internals wires : List String} {pairs : List (String × String)} :
    firstRepeat internals wires pairs = none ↔
      ((pairs.map Prod.fst).Nodup ∧ ∀ i ∈ pairs.map Prod.fst, i ∉ internals) ∧
      ((pairs.map Prod.snd).Nodup ∧ ∀ w ∈ pairs.map Prod.snd, w ∉ wires) := by
  induction pairs generalizing internals wires with
  | nil => simp [firstRepeat]
  | cons p pairs ih =>
    obtain ⟨i, w⟩ := p
    unfold firstRepeat
    split
    · next h => simp [h]
    · split
      · next h => simp [h]
      · next hi hw => rw [ih]; grind

/-- The table of the pairs, or the first name that is used twice. -/
def ofPairs (name : String) (pairs : List (String × String)) : Except Clash RenameTable :=
  match h : firstRepeat [] [] pairs with
  | none =>
    .ok ⟨name, pairs, (firstRepeat_eq_none_iff.1 h).1.1, (firstRepeat_eq_none_iff.1 h).2.1⟩
  | some field => .error ⟨name, field⟩

/-- The number of pairs. -/
def size (t : RenameTable) : Nat := t.pairs.length

/-! ## Renaming -/

/-- The name that a field is renamed to; `none` if the table leaves it alone. -/
def lookup (t : RenameTable) (direction : Direction) (field : String) : Option String :=
  match direction with
  | .toWire => (t.pairs.find? fun p => p.1 = field).map Prod.snd
  | .toInternal => (t.pairs.find? fun p => p.2 = field).map Prod.fst

/-- The name of a field afterwards. -/
def target (t : RenameTable) (direction : Direction) (field : String) : String :=
  (t.lookup direction field).getD field

/-- Rename the members of a record. -/
def renameMembers (t : RenameTable) (direction : Direction) (members : Record Json) : Record Json :=
  Record.ofList (members.map fun m => (t.target direction m.1, m.2))

/-- Rename the fields of a record; every other value stays. -/
def rename (t : RenameTable) (direction : Direction) : Json → Json
  | .obj members => .obj (t.renameMembers direction members)
  | v => v

end RenameTable

end EthGateway
