import EthGateway.Proofs.Catalog.Loading

/-
# EthGateway.Proofs.Catalog.Entries -- which tables are accepted, and what a bad one is told

A table is read entry by entry, a schema item by item or field by field. All three readings stop at
the first thing that is wrong, so they are the same traversal, and what was read before the fault
does not show in its error.

Three relations say, without the readers, what is fine and what is not: `ParamSchema.Described` for
the values that describe a schema, `ParamSchema.Refused` for the error of any other value, and
`Catalog.Refused` for the error of a table. The readers agree with them exactly
(`ParamSchema.ofJson_eq_error_iff`, `Catalog.extend_eq_error_iff`): a table that is not refused is
accepted, and one that is refused has one error only.
-/

namespace EthGateway

namespace ParamSchema

/-! ## Schemas -/

/-- A JSON text, read as the name of a kind: every text names one. -/
def IsName (v : Json) : Prop := ∃ name, v = .str name

/-- The name of a kind, or null for an argument that is left alone. -/
def IsNameOrNull (v : Json) : Prop := v = .null ∨ IsName v

/-- The values that describe a schema: a list of type names and nulls, or a record of type names. -/
def Described : Json → Prop
  | .arr items => ∀ v ∈ items, IsNameOrNull v
  | .obj members => ∀ m ∈ members, IsName m.2
  | _ => False

/-- What is wrong with a value that describes no schema: its shape, or else the first item that is
neither a name nor null, at its place in the list, or else the first field that is no name. -/
inductive Refused (method : String) : Json → SchemaError → Prop
  | shape (v : Json) (noList : ∀ items, v ≠ .arr items) (noRecord : ∀ members, v ≠ .obj members) :
      Refused method v (.invalidSchema method v.shape)
  | item (before : List Json) (v : Json) (after : List Json)
      (fine : ∀ w ∈ before, IsNameOrNull w) (bad : ¬ IsNameOrNull v) :
      Refused method (.arr (before ++ v :: after))
        (.invalidEntry method (Nat.repr before.length))
  | field (before : List (String × Json)) (key : String) (v : Json)
      (after : List (String × Json)) (fine : ∀ m ∈ before, IsName m.2) (bad : ¬ IsName v) :
      Refused method (.obj (before ++ (key, v) :: after)) (.invalidEntry method key)

/-- Read one item of a list, at its place. -/
def readKind (method : String) : Json × Nat → Except SchemaError (Option Kind)
  | (.null, _) => .ok none
  | (.str name, _) => .ok (some (.parse name))
  | (_, position) => .error (.invalidEntry method (Nat.repr position))

/-- Read one field of a record. -/
def readField (method : String) : String × Json → Except SchemaError (String × Kind)
  | (field, .str name) => .ok (field, .parse name)
  | (field, _) => .error (.invalidEntry method field)

variable {method : String}

theorem readKinds_eq_mapM (position : Nat) (items : List Json) :
    readKinds method position items = (items.zipIdx position).mapM (readKind method) := by
  induction items generalizing position with
  | nil => rfl
  | cons v items ih =>
    rw [List.zipIdx_cons, List.mapM_cons, ← ih]
    cases v <;> rfl

theorem readFields_eq_mapM (members : List (String × Json)) :
    readFields method members = members.mapM (readField method) := by
  induction members with
  | nil => rfl
  | cons m members ih =>
    obtain ⟨field, v⟩ := m
    rw [List.mapM_cons, ← ih]
    cases v <;> rfl

theorem readKind_eq_ok_iff {v : Json} {position : Nat} :
    (∃ kind, readKind method (v, position) = .ok kind) ↔ IsNameOrNull v := by
  cases v <;> simp [readKind, IsNameOrNull, IsName]

theorem readKind_eq_error_iff {v : Json} {position : Nat} {e : SchemaError} :
    readKind method (v, position) = .error e ↔
      ¬ IsNameOrNull v ∧ e = .invalidEntry method (Nat.repr position) := by
  cases v <;> simp [readKind, IsNameOrNull, IsName, eq_comm]

theorem readField_eq_ok_iff {m : String × Json} :
    (∃ f, readField method m = .ok f) ↔ IsName m.2 := by
  obtain ⟨field, v⟩ := m
  cases v <;> simp [readField, IsName]

theorem readField_eq_error_iff {m : String × Json} {e : SchemaError} :
    readField method m = .error e ↔ ¬ IsName m.2 ∧ e = .invalidEntry method m.1 := by
  obtain ⟨field, v⟩ := m
  cases v <;> simp [readField, IsName, eq_comm]

theorem readKinds_eq_error_iff {items : List Json} {e : SchemaError} :
    readKinds method 0 items = .error e ↔
      ∃ before v after, items = before ++ v :: after ∧ (∀ w ∈ before, IsNameOrNull w) ∧
        ¬ IsNameOrNull v ∧ e = .invalidEntry method (Nat.repr before.length) := by
  rw [readKinds_eq_mapM, mapM_eq_error_iff]
  constructor
  · rintro ⟨front, ⟨v, position⟩, rest, split, fine, h⟩
    -- The numbered items are cut where the items are cut, so the place is the length in front.
    obtain ⟨before, behind, rfl, rfl, numbered⟩ := List.zipIdx_eq_append_iff.1 split
    obtain ⟨w, after, rfl, same, -⟩ := List.zipIdx_eq_cons_iff.1 numbered.symm
    obtain ⟨rfl, rfl⟩ := Prod.mk.inj same
    obtain ⟨bad, rfl⟩ := readKind_eq_error_iff.1 h
    refine ⟨before, v, after, rfl, ?_, bad, ?_⟩
    · intro w hw
      rw [← List.zipIdx_map_fst 0 before] at hw
      obtain ⟨numberedItem, hb, rfl⟩ := List.mem_map.1 hw
      exact readKind_eq_ok_iff.1 (fine numberedItem hb)
    · rw [Nat.zero_add]
  · rintro ⟨before, v, after, rfl, fine, bad, rfl⟩
    refine ⟨before.zipIdx, (v, before.length), after.zipIdx (before.length + 1), ?_, ?_, ?_⟩
    · simp [List.zipIdx_append, List.zipIdx_cons]
    · rintro ⟨w, i⟩ hw
      exact readKind_eq_ok_iff.2 (fine w (List.fst_mem_of_mem_zipIdx hw))
    · exact readKind_eq_error_iff.2 ⟨bad, rfl⟩

theorem readFields_eq_error_iff {members : List (String × Json)} {e : SchemaError} :
    readFields method members = .error e ↔
      ∃ before m after, members = before ++ m :: after ∧ (∀ b ∈ before, IsName b.2) ∧
        ¬ IsName m.2 ∧ e = .invalidEntry method m.1 := by
  simp only [readFields_eq_mapM, mapM_eq_error_iff, readField_eq_ok_iff, readField_eq_error_iff]

/-- A value is refused for exactly what is wrong with it. -/
theorem ofJson_eq_error_iff {v : Json} {e : SchemaError} :
    ofJson method v = .error e ↔ Refused method v e := by
  constructor
  · intro h
    unfold ofJson at h
    split at h
    · obtain ⟨before, v, after, rfl, fine, bad, rfl⟩ :=
        readKinds_eq_error_iff.1 (map_eq_error_iff.1 h)
      exact .item before v after fine bad
    · obtain ⟨before, ⟨key, v⟩, after, rfl, fine, bad, rfl⟩ :=
        readFields_eq_error_iff.1 (map_eq_error_iff.1 h)
      exact .field before key v after fine bad
    · next noList noRecord =>
      cases h
      exact .shape v noList noRecord
  · intro h
    cases h with
    | shape _ noList noRecord =>
      unfold ofJson
      split
      · next items => exact absurd rfl (noList items)
      · next members => exact absurd rfl (noRecord members)
      · rfl
    | item before v after fine bad =>
      exact map_eq_error_iff.2
        (readKinds_eq_error_iff.2 ⟨before, v, after, rfl, fine, bad, rfl⟩)
    | field before key v after fine bad =>
      exact map_eq_error_iff.2
        (readFields_eq_error_iff.2 ⟨before, (key, v), after, rfl, fine, bad, rfl⟩)

/-- Exactly the values that describe a schema are read as one. -/
theorem exists_ofJson_eq_ok_iff {v : Json} :
    (∃ schema, ofJson method v = .ok schema) ↔ Described v := by
  cases v with
  | arr items =>
    show (∃ schema, positional <$> readKinds method 0 items = .ok schema) ↔ _
    rw [exists_map_eq_ok_iff, readKinds_eq_mapM, exists_mapM_eq_ok_iff]
    constructor
    · intro fine w hw
      rw [← List.zipIdx_map_fst 0 items] at hw
      obtain ⟨numberedItem, hb, rfl⟩ := List.mem_map.1 hw
      exact readKind_eq_ok_iff.1 (fine numberedItem hb)
    · rintro fine ⟨w, i⟩ hw
      exact readKind_eq_ok_iff.2 (fine w (List.fst_mem_of_mem_zipIdx hw))
  | obj members =>
    show (∃ schema, (fun fields => keyed (Record.ofList fields)) <$> readFields method members
      = .ok schema) ↔ _
    simp only [exists_map_eq_ok_iff, readFields_eq_mapM, exists_mapM_eq_ok_iff,
      readField_eq_ok_iff, Described]
  | _ => simp [ofJson, Described]

end ParamSchema

namespace Catalog

open ParamSchema (Described exists_ofJson_eq_ok_iff ofJson_eq_error_iff)

/-! ## Tables -/

/-- An entry that a catalog takes: its method has no schema yet, and its value describes one. -/
structure Accepts (c : Catalog) (m : String × Json) : Prop where
  fresh : c.lookup m.1 = none
  described : Described m.2

/-- What is wrong with a table that a catalog does not take: its shape, or else its first bad entry,
for which that the method has a schema already comes before anything about its value. -/
inductive Refused (c : Catalog) : Json → SchemaError → Prop
  | shape (v : Json) (noRecord : ∀ members, v ≠ .obj members) :
      Refused c v (.invalidSchema tableName v.shape)
  | taken (before : List (String × Json)) (method : String) (v : Json)
      (after : List (String × Json)) (fine : ∀ m ∈ before, c.Accepts m)
      (present : c.lookup method ≠ none) :
      Refused c (.obj (before ++ (method, v) :: after)) (.duplicateMethod method)
  | entry (before : List (String × Json)) (method : String) (v : Json)
      (after : List (String × Json)) (e : SchemaError) (fine : ∀ m ∈ before, c.Accepts m)
      (fresh : c.lookup method = none) (bad : ParamSchema.Refused method v e) :
      Refused c (.obj (before ++ (method, v) :: after)) e

/-- Read one entry of a table. -/
def readEntry (c : Catalog) (m : String × Json) : Except SchemaError (String × ParamSchema) :=
  if c.contains m.1 then .error (.duplicateMethod m.1)
  else (fun schema => (m.1, schema)) <$> ParamSchema.ofJson m.1 m.2

variable {c : Catalog}

theorem contains_eq_false_iff {method : String} :
    c.contains method = false ↔ c.lookup method = none := by
  rw [contains, Option.isSome_eq_false_iff, Option.isNone_iff_eq_none]

theorem contains_eq_true_iff {method : String} :
    c.contains method = true ↔ c.lookup method ≠ none := by
  rw [contains, Option.isSome_iff_ne_none]

theorem readEntries_eq_mapM (members : List (String × Json)) :
    c.readEntries members = members.mapM c.readEntry := by
  induction members with
  | nil => rfl
  | cons m members ih =>
    obtain ⟨method, v⟩ := m
    rw [List.mapM_cons, ← ih, readEntries, readEntry]
    split
    · rfl
    · cases ParamSchema.ofJson method v <;> rfl

theorem readEntry_eq_ok_iff {m : String × Json} {entry : String × ParamSchema} :
    c.readEntry m = .ok entry ↔
      c.lookup m.1 = none ∧ m.1 = entry.1 ∧ ParamSchema.ofJson m.1 m.2 = .ok entry.2 := by
  obtain ⟨method, schema⟩ := entry
  cases fresh : c.contains m.1 with
  | true =>
    have present := contains_eq_true_iff.1 fresh
    simp [readEntry, fresh, present]
  | false =>
    have absent := contains_eq_false_iff.1 fresh
    rw [readEntry, fresh]
    constructor
    · intro h
      obtain ⟨s, read, same⟩ := map_eq_ok_iff.1 h
      cases same
      exact ⟨absent, rfl, read⟩
    · rintro ⟨-, rfl, read⟩
      exact map_eq_ok_iff.2 ⟨schema, read, rfl⟩

theorem exists_readEntry_eq_ok_iff {m : String × Json} :
    (∃ entry, c.readEntry m = .ok entry) ↔ c.Accepts m := by
  simp only [readEntry_eq_ok_iff]
  constructor
  · rintro ⟨entry, fresh, -, read⟩
    exact ⟨fresh, exists_ofJson_eq_ok_iff.1 ⟨entry.2, read⟩⟩
  · intro h
    obtain ⟨schema, read⟩ := exists_ofJson_eq_ok_iff.2 h.described
    exact ⟨(m.1, schema), h.fresh, rfl, read⟩

theorem readEntry_eq_error_iff {m : String × Json} {e : SchemaError} :
    c.readEntry m = .error e ↔
      c.lookup m.1 ≠ none ∧ e = .duplicateMethod m.1 ∨
        c.lookup m.1 = none ∧ ParamSchema.Refused m.1 m.2 e := by
  rw [← ofJson_eq_error_iff]
  cases fresh : c.contains m.1 with
  | true =>
    have present := contains_eq_true_iff.1 fresh
    simp [readEntry, fresh, present, eq_comm]
  | false =>
    have absent := contains_eq_false_iff.1 fresh
    simp [readEntry, fresh, absent, map_eq_error_iff]

/-- A table is refused for exactly what is wrong with it. -/
theorem extend_eq_error_iff {table : Json} {e : SchemaError} :
    c.extend table = .error e ↔ c.Refused table e := by
  cases table with
  | obj members =>
    rw [extend, map_eq_error_iff, readEntries_eq_mapM, mapM_eq_error_iff]
    simp only [exists_readEntry_eq_ok_iff, readEntry_eq_error_iff]
    constructor
    · rintro ⟨before, ⟨method, v⟩, after, rfl, fine, ⟨present, rfl⟩ | ⟨fresh, bad⟩⟩
      · exact .taken before method v after fine present
      · exact .entry before method v after e fine fresh bad
    · intro h
      cases h with
      | shape _ noRecord => exact absurd rfl (noRecord members)
      | taken before method v after fine present =>
        exact ⟨before, (method, v), after, rfl, fine, .inl ⟨present, rfl⟩⟩
      | entry before method v after _ fine fresh bad =>
        exact ⟨before, (method, v), after, rfl, fine, .inr ⟨fresh, bad⟩⟩
  | _ =>
    constructor
    · intro h
      cases h
      exact .shape _ nofun
    · intro h
      cases h
      rfl

/-- A table is accepted exactly if it is a record of acceptable entries. -/
theorem exists_extend_eq_ok_iff {table : Json} :
    (∃ d, c.extend table = .ok d) ↔
      ∃ members, table = .obj members ∧ ∀ m ∈ members, c.Accepts m := by
  cases table with
  | obj members =>
    rw [extend, exists_map_eq_ok_iff, readEntries_eq_mapM, exists_mapM_eq_ok_iff]
    simp only [exists_readEntry_eq_ok_iff, Json.obj.injEq, exists_eq_left']
  | _ => simp [extend]

end Catalog

end EthGateway
