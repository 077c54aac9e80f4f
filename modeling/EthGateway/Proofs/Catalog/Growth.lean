import EthGateway.Proofs.Catalog.Entries
import Mathlib.Data.Set.Card

/-
# EthGateway.Proofs.Catalog.Growth -- catalogs only grow

A run is a list of changes that are tried one after the other. What a method has after it is the
schema that it had before, or else the one that the first successful change naming the method has
given it (`lookup_run`); so a schema never changes and never goes, and a change that fails might as
well not have been tried (`run_changes`).

A table goes in as a whole. Carried out in place, entry after entry (`Change.perform`), a change
that fails has put in nothing, because a table is read to its end before its first entry is put in
(`perform_eq`); and a table that is accepted gives the catalog that single insertions give, in
whatever order they come (`insertAll_of_perm`).
-/

namespace EthGateway.Catalog

/-! ## Catalogs and their look-ups -/

theorem ext_lookup {c d : Catalog} (h : ∀ method, c.lookup method = d.lookup method) : c = d := by
  obtain ⟨r, hr⟩ := c
  obtain ⟨s, hs⟩ := d
  obtain rfl : r = s := Record.eq_of_get?_eq hr hs h
  rfl

/-- A catalog has as many schemas as there are methods with a schema. -/
theorem size_eq_ncard (c : Catalog) : c.size = {method | c.lookup method ≠ none}.ncard := by
  have named : {method | c.lookup method ≠ none} = ↑(Record.keys c.schemas).toFinset := by
    ext method
    simp [lookup, Record.get?_eq_none_iff]
  have distinct : (Record.keys c.schemas).Nodup := Record.nodup_keys_of_ordered c.ordered
  rw [named, Set.ncard_coe_finset, List.toFinset_card_of_nodup distinct, Record.keys,
    List.length_map, size]

/-- If no method is named twice, each has the schema it is given, or else the one it had. -/
theorem lookup_setAll_of_distinct (c : Catalog) {entries : List (String × ParamSchema)}
    (distinct : (Record.keys entries).Nodup) (method : String) :
    (c.setAll entries).lookup method = (Record.get? entries method).or (c.lookup method) := by
  rw [lookup_setAll, Record.find?_reverse_of_distinct distinct]

/-! ## One by one -/

/-- Give schemas to methods one after the other; the first that has one already is the end. -/
def insertAll (c : Catalog) (entries : List (String × ParamSchema)) : Except SchemaError Catalog :=
  entries.foldlM (fun c e => c.insert e.1 e.2) c

theorem insert_eq_ok_iff {c d : Catalog} {method : String} {schema : ParamSchema} :
    c.insert method schema = .ok d ↔ c.lookup method = none ∧ d = c.set method schema := by
  unfold insert
  cases fresh : c.contains method with
  | true =>
    have present := contains_eq_true_iff.1 fresh
    simp [present]
  | false =>
    have absent := contains_eq_false_iff.1 fresh
    simp [absent, eq_comm]

theorem insertAll_of_fresh {c : Catalog} {entries : List (String × ParamSchema)}
    (distinct : (Record.keys entries).Nodup) (fresh : ∀ e ∈ entries, c.lookup e.1 = none) :
    c.insertAll entries = .ok (c.setAll entries) := by
  induction entries generalizing c with
  | nil => rfl
  | cons e entries ih =>
    obtain ⟨new, distinct⟩ := List.nodup_cons.1 distinct
    obtain ⟨first, fresh⟩ := List.forall_mem_cons.1 fresh
    have inserted : c.insert e.1 e.2 = .ok (c.set e.1 e.2) := insert_eq_ok_iff.2 ⟨first, rfl⟩
    -- The methods behind the first one have no schema after it either.
    have others : ∀ d ∈ entries, (c.set e.1 e.2).lookup d.1 = none := by
      intro d hd
      have different : d.1 ≠ e.1 := by
        intro same
        exact new (same ▸ List.mem_map_of_mem hd)
      rw [lookup_set, if_neg different]
      exact fresh d hd
    rw [insertAll, List.foldlM_cons, inserted]
    exact ih distinct others

/-- In whatever order they come, schemas of different methods make the same catalog. -/
theorem insertAll_of_perm {c : Catalog} {entries order : List (String × ParamSchema)}
    (distinct : (Record.keys entries).Nodup) (fresh : ∀ e ∈ entries, c.lookup e.1 = none)
    (same : order.Perm entries) : c.insertAll order = .ok (c.setAll entries) := by
  have distinct' : (Record.keys order).Nodup := (same.map Prod.fst).nodup_iff.2 distinct
  have fresh' : ∀ e ∈ order, c.lookup e.1 = none := by
    intro e he
    exact fresh e (same.mem_iff.1 he)
  rw [insertAll_of_fresh distinct' fresh']
  refine congrArg Except.ok (ext_lookup fun method => ?_)
  rw [lookup_setAll_of_distinct c distinct', lookup_setAll_of_distinct c distinct,
    Record.get?_of_perm distinct' same]

/-! ## Tables -/

/-- The entries of a table as they are read: each method with the schema that its value describes. -/
def Parsed (members : List (String × Json)) (entries : List (String × ParamSchema)) : Prop :=
  List.Forall₂ (fun m e => m.1 = e.1 ∧ ParamSchema.ofJson m.1 m.2 = .ok e.2) members entries

theorem Parsed.keys_eq {members : List (String × Json)} {entries : List (String × ParamSchema)}
    (h : Parsed members entries) : Record.keys entries = Record.keys members := by
  induction h with
  | nil => rfl
  | cons first _ ih => exact congrArg₂ List.cons first.1.symm ih

/-- A table is accepted if all its methods are new and all its values describe schemas. -/
theorem extend_obj_eq_ok_iff {c d : Catalog} {members : List (String × Json)} :
    c.extend (.obj members) = .ok d ↔
      ∃ entries, (∀ m ∈ members, c.lookup m.1 = none) ∧ Parsed members entries ∧
        d = c.setAll entries := by
  rw [extend, map_eq_ok_iff, readEntries_eq_mapM]
  simp only [mapM_eq_ok_iff, readEntry_eq_ok_iff, List.forall₂_and_left]
  constructor
  · rintro ⟨entries, ⟨fresh, parsed⟩, rfl⟩
    exact ⟨entries, fresh, parsed, rfl⟩
  · rintro ⟨entries, fresh, parsed, rfl⟩
    exact ⟨entries, ⟨fresh, parsed⟩, rfl⟩

/-- A table has a say in the methods that it names, and in no others. -/
theorem lookup_extend_of_not_named {c d : Catalog} {table : Json} (accepted : c.extend table = .ok d)
    {method : String} (unnamed : table.get? method = none) : d.lookup method = c.lookup method := by
  cases table with
  | obj members =>
    obtain ⟨entries, -, parsed, rfl⟩ := extend_obj_eq_ok_iff.1 accepted
    have absent : method ∉ Record.keys members := Record.get?_eq_none_iff.1 unnamed
    rw [← parsed.keys_eq] at absent
    exact lookup_setAll_of_not_mem c absent
  | _ => cases accepted

theorem Parsed.fresh {c : Catalog} {members : List (String × Json)}
    {entries : List (String × ParamSchema)} (h : Parsed members entries)
    (fresh : ∀ m ∈ members, c.lookup m.1 = none) : ∀ e ∈ entries, c.lookup e.1 = none := by
  intro e he
  have named : e.1 ∈ Record.keys members := h.keys_eq ▸ List.mem_map_of_mem he
  obtain ⟨m, hm, same⟩ := List.mem_map.1 named
  exact same ▸ fresh m hm

/-- What becomes of a table that a catalog is to be extended by. -/
structure Extension (c : Catalog) (table : Json) : Prop where
  /-- It is accepted exactly if it is a record of acceptable entries. -/
  accepted : (∃ d, c.extend table = .ok d) ↔
    ∃ members, table = .obj members ∧ ∀ m ∈ members, c.Accepts m
  /-- Any other table is refused for the first thing that is wrong with it. -/
  refused : ∀ e, c.extend table = .error e ↔ c.Refused table e
  /-- To accept it is to insert its entries one by one, in any order. -/
  oneByOne : ∀ members d, table = .obj members → c.extend table = .ok d →
    ∃ entries, Parsed members entries ∧ ∀ order, order.Perm entries → c.insertAll order = .ok d

theorem extension_of_ordered (c : Catalog) {table : Json} (ordered : table.Ordered) :
    Extension c table := by
  refine ⟨exists_extend_eq_ok_iff, fun e => extend_eq_error_iff, ?_⟩
  rintro members d rfl accepted
  obtain ⟨entries, fresh, parsed, rfl⟩ := extend_obj_eq_ok_iff.1 accepted
  have inOrder : Record.Ordered members := ordered.1
  have distinct : (Record.keys entries).Nodup := by
    rw [parsed.keys_eq]
    exact Record.nodup_keys_of_ordered inOrder
  refine ⟨entries, parsed, ?_⟩
  intro order same
  exact insertAll_of_perm distinct (parsed.fresh fresh) same

/-! ## Changes in place -/

/-- Read an entry of a table into a catalog that is changed in place. -/
def readInPlace (m : String × Json) : ExceptT SchemaError (StateM Catalog) (String × ParamSchema) :=
  ExceptT.mk fun c => (c.readEntry m, c)

/-- Put a schema into a catalog that is changed in place. -/
def putInPlace (e : String × ParamSchema) : ExceptT SchemaError (StateM Catalog) Unit :=
  ExceptT.mk fun c => (.ok (), c.set e.1 e.2)

/-- Carry a change out in place, step after step: what was put in before an error stays in. -/
def Change.perform : Change → ExceptT SchemaError (StateM Catalog) Unit
  | .insert method schema => do
    let c ← get
    if c.contains method then throw (.duplicateMethod method) else putInPlace (method, schema)
  | .extend (.obj members) => do
    let entries ← members.mapM readInPlace
    entries.forM putInPlace
  | .extend v => throw (.invalidSchema tableName v.shape)

/-- Carry a change out on a catalog: what comes of it, and the catalog that is left. -/
def perform (c : Catalog) (s : Change) : Except SchemaError Unit × Catalog := s.perform.run.run c

theorem run_bind_inPlace {α β : Type} (x : ExceptT SchemaError (StateM Catalog) α)
    (f : α → ExceptT SchemaError (StateM Catalog) β) (c : Catalog) :
    (x >>= f).run.run c =
      match x.run.run c with
      | (.ok a, d) => (f a).run.run d
      | (.error e, d) => (.error e, d) := by
  rw [ExceptT.run_bind, StateT.run_bind]
  show (match x.run.run c with | (r, d) => _) = _
  cases x.run.run c with
  | mk r d => cases r <;> rfl

/-- Reading a table, to its end or to its first bad entry, puts nothing in. -/
theorem mapM_readInPlace (c : Catalog) (members : List (String × Json)) :
    (members.mapM readInPlace).run.run c = (c.readEntries members, c) := by
  rw [readEntries_eq_mapM]
  induction members with
  | nil => rfl
  | cons m members ih =>
    have first : (readInPlace m).run.run c = (c.readEntry m, c) := rfl
    rw [List.mapM_cons, List.mapM_cons, run_bind_inPlace, first]
    cases c.readEntry m with
    | error e => rfl
    | ok entry =>
      dsimp only
      rw [run_bind_inPlace, ih]
      cases members.mapM c.readEntry <;> rfl

theorem forM_putInPlace (c : Catalog) (entries : List (String × ParamSchema)) :
    (entries.forM putInPlace).run.run c = (.ok (), c.setAll entries) := by
  induction entries generalizing c with
  | nil => rfl
  | cons e entries ih => exact ih (c.set e.1 e.2)

/-- A change in place leaves the catalog that the change gives, or else the catalog as it was. -/
theorem perform_eq (c : Catalog) (s : Change) :
    c.perform s =
      match c.change s with
      | .ok d => (.ok (), d)
      | .error e => (.error e, c) := by
  cases s with
  | insert method schema =>
    have read : (get : ExceptT SchemaError (StateM Catalog) Catalog).run.run c = (.ok c, c) := rfl
    rw [perform, Change.perform, run_bind_inPlace, read, change, insert]
    cases fresh : c.contains method <;> simp only [fresh] <;> rfl
  | extend table =>
    cases table with
    | obj members =>
      rw [perform, Change.perform, run_bind_inPlace, mapM_readInPlace, change, extend]
      cases c.readEntries members with
      | error e => rfl
      | ok entries => exact forM_putInPlace c entries
    | _ => rfl

/-! ## Runs of changes -/

/-- The catalog after changes that were tried one after the other. -/
def run (c : Catalog) (steps : List Change) : Catalog := steps.foldl after c

/-- The changes of a run that succeed, in their order. -/
def successes : Catalog → List Change → List Change
  | _, [] => []
  | c, s :: steps =>
    if (c.change s).isOk then s :: successes (c.after s) steps else successes (c.after s) steps

/-- The schema that a change gives to a method, if it names the method at all. -/
def Change.given? : Change → String → Option ParamSchema
  | .insert m schema, method => if method = m then some schema else none
  | .extend (.obj members), method =>
    (Record.get? members method).bind fun v => (ParamSchema.ofJson method v).toOption
  | .extend _, _ => none

/-- The table of a change lists its methods in order, as every JSON record does. -/
def Change.Ordered : Change → Prop
  | .insert _ _ => True
  | .extend table => table.Ordered

theorem after_of_ok {c d : Catalog} {s : Change} (h : c.change s = .ok d) : c.after s = d := by
  rw [after, h]
  rfl

theorem after_of_error {c : Catalog} {s : Change} {e : SchemaError} (h : c.change s = .error e) :
    c.after s = c := by
  rw [after, h]
  rfl

theorem run_append (c : Catalog) (front back : List Change) :
    c.run (front ++ back) = (c.run front).run back := List.foldl_append

/-- What a table gives to a method is the schema that was read for it. -/
theorem given?_extend_obj {members : List (String × Json)} {entries : List (String × ParamSchema)}
    (parsed : Parsed members entries) (method : String) :
    (Change.extend (.obj members)).given? method = Record.get? entries method := by
  have same := Record.Related.get?
    (R := fun method v schema => ParamSchema.ofJson method v = .ok schema) parsed method
  rw [Change.given?]
  generalize Record.get? members method = before at same
  generalize Record.get? entries method = after at same
  cases same with
  | none => rfl
  | some read => rw [Option.bind_some, read]; rfl

/-- A change that succeeds names only methods that have no schema, and keeps all others. -/
theorem lookup_of_change {c d : Catalog} {s : Change} (ordered : s.Ordered)
    (h : c.change s = .ok d) (method : String) :
    d.lookup method = (c.lookup method).or (s.given? method) := by
  cases s with
  | insert m schema =>
    obtain ⟨fresh, rfl⟩ := insert_eq_ok_iff.1 h
    rw [lookup_set, Change.given?]
    by_cases same : method = m
    · rw [if_pos same, if_pos same, same, fresh]
      rfl
    · rw [if_neg same, if_neg same, Option.or_none]
  | extend table =>
    cases table with
    | obj members =>
      obtain ⟨entries, fresh, parsed, rfl⟩ := extend_obj_eq_ok_iff.1 h
      have inOrder : Record.Ordered members := ordered.1
      have distinct : (Record.keys entries).Nodup := by
        rw [parsed.keys_eq]
        exact Record.nodup_keys_of_ordered inOrder
      rw [lookup_setAll_of_distinct c distinct, given?_extend_obj parsed]
      cases found : Record.get? entries method with
      | none => rw [Option.none_or, Option.or_none]
      | some schema =>
        have new := parsed.fresh fresh _ (Record.mem_of_get?_eq_some found)
        rw [new]
        rfl
    | _ => cases h

theorem lookup_run (c : Catalog) {steps : List Change} (ordered : ∀ s ∈ steps, s.Ordered)
    (method : String) :
    (c.run steps).lookup method =
      (c.lookup method).or ((c.successes steps).findSome? fun s => s.given? method) := by
  induction steps generalizing c with
  | nil => simp [run, successes]
  | cons s steps ih =>
    obtain ⟨first, ordered⟩ := List.forall_mem_cons.1 ordered
    have others := ih (c.after s) ordered
    rw [successes]
    show ((c.after s).run steps).lookup method = _
    cases tried : c.change s with
    | error e =>
      rw [others, after_of_error tried]
      rfl
    | ok d =>
      rw [others, after_of_ok tried, lookup_of_change first tried, Option.or_assoc]
      simp only [Except.isOk, Except.toBool, if_true, List.findSome?_cons]
      cases s.given? method <;> rfl

/-! ## What a run amounts to -/

/-- What is in a catalog after changes that were tried one after the other. -/
structure Grown (c : Catalog) (steps : List Change) : Prop where
  /-- A method has the schema that it had, or else the one that the first successful change naming
  it has given it, or else none. -/
  lookup : ∀ method, (c.run steps).lookup method =
    (c.lookup method).or ((c.successes steps).findSome? fun s => s.given? method)
  /-- The size is the number of the methods that have one. -/
  size : (c.run steps).size = {method | (c.run steps).lookup method ≠ none}.ncard
  /-- A schema that was there at some time stays as it is. -/
  kept : ∀ front back, steps = front ++ back → ∀ method schema,
    (c.run front).lookup method = some schema → (c.run steps).lookup method = some schema
  /-- Each change can be carried out in place, and one that fails leaves what it found. -/
  inPlace : ∀ front s back, steps = front ++ s :: back →
    ((c.run front).perform s).2 = c.run (front ++ [s]) ∧
      ∀ e, ((c.run front).perform s).1 = .error e → c.run (front ++ [s]) = c.run front

theorem perform_snd (c : Catalog) (s : Change) : (c.perform s).2 = c.after s := by
  rw [perform_eq, after]
  cases c.change s <;> rfl

/-- Any changes, tried on any catalog, only ever add to it, and the next table is accepted or
refused by what is in it then. -/
theorem run_changes (c : Catalog) (steps : List Change) (ordered : ∀ s ∈ steps, s.Ordered) :
    Grown c steps ∧ ∀ table : Json, table.Ordered → Extension (c.run steps) table := by
  refine ⟨⟨lookup_run c ordered, size_eq_ncard _, ?_, ?_⟩, fun _ => extension_of_ordered _⟩
  · rintro front back rfl method schema found
    have later : ∀ s ∈ back, s.Ordered := fun s hs => ordered s (List.mem_append_right front hs)
    rw [run_append, lookup_run _ later, found]
    rfl
  · rintro front s back rfl
    have step : c.run (front ++ [s]) = (c.run front).after s := run_append c front [s]
    refine ⟨by rw [step, perform_snd], ?_⟩
    intro e failed
    rw [step]
    rw [perform_eq] at failed
    cases tried : (c.run front).change s with
    | ok d =>
      rw [tried] at failed
      cases failed
    | error e' => exact after_of_error tried

/-- A table with a bad entry behind a good one leaves nothing behind, so the method of the good one
is still free; and a method that is taken counts before the value that it comes with. -/
theorem run_changes_refused_tables :
    let steps : List Change :=
      [.extend (.obj [("x_count", .arr [.str "uint"]), ("x_send", .bool true)]),
        .insert "x_count" (.ofNames [none]),
        .extend (.obj [("x_count", .bool true), ("x_send", .arr [])]),
        .extend (.obj [("x_send", .arr [.null, .str "bytes32"])])]
    (∀ s ∈ steps, s.Ordered) ∧
      (Grown empty steps ∧
        ∀ table : Json, table.Ordered → Extension (empty.run steps) table) ∧
      (empty.run steps).lookup "x_count" = some (.positional [none]) ∧
      (empty.run steps).lookup "x_send" = some (.positional [none, some .hash]) ∧
      (empty.run steps).size = 2 := by
  intro steps
  have single : ∀ m : String × Json, Record.Ordered [m] := fun m => List.pairwise_singleton _ m
  have pair : ∀ v w : Json, Record.Ordered [("x_count", v), ("x_send", w)] := by
    intro v w
    refine List.pairwise_cons.2 ⟨?_, single ("x_send", w)⟩
    intro m hm
    obtain rfl := List.mem_singleton.1 hm
    show "x_count" < "x_send"
    decide +kernel
  have ordered : ∀ s ∈ steps, s.Ordered := by
    simp [steps, Change.Ordered, Json.Ordered, Json.OrderedMembers, Json.OrderedItems, single, pair]
  exact ⟨ordered, run_changes empty steps ordered, by decide +kernel⟩

end EthGateway.Catalog
