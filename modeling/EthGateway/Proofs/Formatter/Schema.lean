import EthGateway.Proofs.Formatter.Fields

/-
# EthGateway.Proofs.Formatter.Schema -- the arguments and results that a schema describes

What a catalog does to the arguments of a method depends on the method's own schema and on nothing
else in the catalog (`formatRequest_ofCatalog`). A schema by fields changes the record that is the
first argument, by the formatters of its fields (`apply_ofSchema_keyed`). The same formatters change
a result that is a record, where a table is built for results (`formatResult_ofResults`).

If a second pass of the chain changes nothing, as it does not if the steps are builtin, then
formatting the arguments a second time changes nothing either and reports what the first time has
reported (`formatRequest_formatRequest`), and so does formatting a result
(`formatResult_formatResult`). This takes that the fields of a schema differ from one another, as
they do in every schema that is read or listed.
-/

namespace EthGateway

/-- The fields that a schema names differ from one another. -/
def ParamSchema.Distinct : ParamSchema → Prop
  | .positional _ => True
  | .keyed kinds => (Record.keys kinds).Nodup

/-- The fields of every schema of the catalog differ from one another. -/
def Catalog.Distinct (c : Catalog) : Prop :=
  ∀ method schema, c.lookup method = some schema → schema.Distinct

namespace Formatter

/-- The formatters of a schema's fields. -/
def ofFieldKinds (chain : Chain) (kinds : Record Kind) : List (String × Formatter) :=
  List.map (fun k => (k.1, .normalize k.2 chain)) kinds

theorem keys_ofFieldKinds (chain : Chain) (kinds : Record Kind) :
    Record.keys (ofFieldKinds chain kinds) = Record.keys kinds := by
  simp [ofFieldKinds, Record.keys]

/-- A schema by fields formats the record that is the first argument. -/
theorem apply_ofSchema_keyed (chain : Chain) (kinds : Record Kind) (r : Record Json)
    (rest : List Json) :
    apply (ofSchema chain (.keyed kinds)) (.arr (.obj r :: rest)) =
      (fun s => .arr (.obj s :: rest)) <$> applyFields (ofFieldKinds chain kinds) r := by
  simp only [ofSchema, ofFields, apply, onItem, Functor.map_map]
  rfl

/-- A formatter for the results of a schema by fields changes records only. -/
theorem apply_gated_ofFields (chain : Chain) (kinds : Record Kind) (v : Json) :
    apply ((ofFields chain kinds).gated .isRecord) v =
      match v with
      | .obj r => .obj <$> applyFields (ofFieldKinds chain kinds) r
      | v => pure v := by
  cases v <;> rfl

section Stable

variable {chain : Chain} (stable : chain.Stable)

include stable

theorem stable_normalize (kind : Kind) : Noted.Stable (apply (.normalize kind chain)) := fun v => by
  simp only [apply, stable kind v]

theorem stable_of_mem_ofFieldKinds {kinds : Record Kind} {e : String × Formatter}
    (h : e ∈ ofFieldKinds chain kinds) : Noted.Stable e.2.apply := by
  obtain ⟨k, _, rfl⟩ := List.mem_map.1 h
  exact stable_normalize stable k.2

theorem stable_applyFields_ofFieldKinds {kinds : Record Kind}
    (distinct : (Record.keys kinds).Nodup) :
    Noted.Stable (applyFields (ofFieldKinds chain kinds)) :=
  stable_applyFields (keys_ofFieldKinds chain kinds ▸ distinct)
    fun _ => stable_of_mem_ofFieldKinds stable

/-- A list of arguments stays one, and formatting it again changes nothing. -/
theorem stable_ofSchema {schema : ParamSchema} (distinct : schema.Distinct) (params : List Json) :
    ∃ formatted, (apply (ofSchema chain schema) (.arr params)).value = .arr formatted ∧
      apply (ofSchema chain schema) (.arr formatted) =
        apply (ofSchema chain schema) (.arr params) := by
  cases schema with
  | positional kinds =>
    have again : Noted.Stable (applyArgs (kinds.map (ofKind? chain))) := by
      refine stable_applyArgs fun f hf => ?_
      obtain ⟨kind, _, rfl⟩ := List.mem_map.1 hf
      cases kind with
      | none => exact fun v => rfl
      | some kind => exact stable_normalize stable kind
    refine ⟨_, rfl, ?_⟩
    exact congrArg (Json.arr <$> ·) (again params)
  | keyed kinds =>
    cases params with
    | nil => exact ⟨[], rfl, rfl⟩
    | cons v rest =>
      cases v with
      | obj r =>
        refine ⟨_, congrArg Noted.value (apply_ofSchema_keyed chain kinds r rest), ?_⟩
        rw [apply_ofSchema_keyed, apply_ofSchema_keyed]
        exact congrArg _ (stable_applyFields_ofFieldKinds stable distinct r)
      | _ => exact ⟨_, rfl, rfl⟩

/-- A formatter for the fields of records leaves a record as one, so it runs on its own result. -/
theorem stable_gated_ofFields {kinds : Record Kind} (distinct : (Record.keys kinds).Nodup) :
    Noted.Stable (apply ((ofFields chain kinds).gated .isRecord)) := by
  intro v
  simp only [apply_gated_ofFields]
  cases v with
  | obj r =>
    show Json.obj <$> _ = Json.obj <$> _
    exact congrArg _ (stable_applyFields_ofFieldKinds stable distinct r)
  | _ => rfl

end Stable

end Formatter

/-! ## The tables of a catalog -/

namespace FormatterTable

theorem get?_forRequests (catalog : Catalog) (chain : Chain) (method : String) :
    Record.get? (forRequests catalog chain) method =
      (catalog.lookup method).map (Formatter.ofSchema chain) :=
  Record.get?_map (fun _ schema => Formatter.ofSchema chain schema) catalog.schemas method

theorem get?_forResults (catalog : Catalog) (chain : Chain) (method : String) :
    Record.get? (forResults catalog chain) method =
      (catalog.lookup method).bind (resultFormatter? chain) :=
  Record.get?_filterMap _ (Record.nodup_keys_of_ordered catalog.ordered) method

end FormatterTable

namespace Formatting

theorem formatRequest_ofCatalog (catalog : Catalog) (chain : Chain) (method : String)
    (params : List Json) :
    (ofCatalog catalog chain).formatRequest method params =
      match catalog.lookup method with
      | some schema => asParams <$> (Formatter.ofSchema chain schema).apply (.arr params)
      | none => pure params := by
  have found : Record.get? (ofCatalog catalog chain).requests method
      = (catalog.lookup method).map (Formatter.ofSchema chain) :=
    FormatterTable.get?_forRequests catalog chain method
  rw [formatRequest, found]
  cases catalog.lookup method <;> rfl

/-- Formatted arguments are formatted to themselves, with the same notices. -/
theorem formatRequest_formatRequest {catalog : Catalog} {method : String}
    (distinct : ∀ schema, catalog.lookup method = some schema → schema.Distinct) {chain : Chain}
    (stable : chain.Stable) (params : List Json) :
    (ofCatalog catalog chain).formatRequest method
        ((ofCatalog catalog chain).formatRequest method params).value =
      (ofCatalog catalog chain).formatRequest method params := by
  simp only [formatRequest_ofCatalog]
  cases found : catalog.lookup method with
  | none => rfl
  | some schema =>
    obtain ⟨formatted, value, again⟩ :=
      Formatter.stable_ofSchema stable (distinct schema found) params
    simp only [Noted.value_map, value, asParams, again]

/-- Normalize the results of a catalog's methods. -/
def ofResults (catalog : Catalog) (chain : Chain) : Formatting :=
  ⟨"result_normalization", [], .forResults catalog chain⟩

theorem formatResult_ofResults (catalog : Catalog) (chain : Chain) (method : String) (v : Json) :
    (ofResults catalog chain).formatResult method v =
      match (catalog.lookup method).bind (FormatterTable.resultFormatter? chain) with
      | some formatter => formatter.apply v
      | none => pure v := by
  have found : Record.get? (ofResults catalog chain).results method
      = (catalog.lookup method).bind (FormatterTable.resultFormatter? chain) :=
    FormatterTable.get?_forResults catalog chain method
  cases formatter : (catalog.lookup method).bind (FormatterTable.resultFormatter? chain) with
  | none => simp only [formatResult, found, formatter]
  | some f => simp only [formatResult, found, formatter]

/-- A formatted result is formatted to itself, with the same notices. -/
theorem formatResult_formatResult {catalog : Catalog} (distinct : catalog.Distinct) {chain : Chain}
    (stable : chain.Stable) (method : String) (v : Json) :
    (ofResults catalog chain).formatResult method
        ((ofResults catalog chain).formatResult method v).value =
      (ofResults catalog chain).formatResult method v := by
  simp only [formatResult_ofResults]
  cases found : catalog.lookup method with
  | none => rfl
  | some schema =>
    cases schema with
    | positional kinds => rfl
    | keyed fields => exact Formatter.stable_gated_ofFields stable (distinct method _ found) v

end Formatting

end EthGateway
