import EthGateway.Proofs.Catalog.Loading
import EthGateway.Proofs.Formatter.Schema

/-
# EthGateway.Proofs.Formatter.Coverage -- what a schema covers and what it leaves alone

A schema by positions covers the arguments at the places where it has a kind; a schema by fields
covers the fields that it names, of the first argument if this is a record. What is covered is
normalized by its kind, and everything else stays: arguments behind the last place, places without a
kind, fields without one, a first argument that is no record. The number of arguments and the keys
of a record never change (`followed_ofSchema`). A table for results treats a record in the same way
(`recordFollowed_gated`), and it has a formatter exactly for the schemas by fields.

`follows_catalog` says both of every catalog, every method and every chain, whatever functions its
steps are; a method without a schema is left alone.
-/

namespace EthGateway

/-! ## Covered values -/

/-- The arguments at places with a kind are normalized, and the others stay. -/
structure PositionsFollowed (chain : Chain) (kinds : List (Option Kind)) (params out : List Json) :
    Prop where
  covered : ∀ (i : Nat) (kind : Kind), kinds[i]? = some (some kind) →
    out[i]? = params[i]?.map fun v => (chain.normalize kind v).value
  uncovered : ∀ i : Nat, (∀ kind, kinds[i]? ≠ some (some kind)) → out[i]? = params[i]?

/-- The fields with a kind are normalized, and the others stay. -/
structure FieldsFollowed (chain : Chain) (kinds : Record Kind) (r out : Record Json) : Prop where
  keys : Record.keys out = Record.keys r
  covered : ∀ field kind, Record.get? kinds field = some kind →
    Record.get? out field = (Record.get? r field).map fun v => (chain.normalize kind v).value
  uncovered : ∀ field, Record.get? kinds field = none → Record.get? out field = Record.get? r field

/-- A record is normalized field by field, and any other value stays. -/
structure RecordFollowed (chain : Chain) (kinds : Record Kind) (v out : Json) : Prop where
  record : ∀ r, v = .obj r → ∃ s, out = .obj s ∧ FieldsFollowed chain kinds r s
  other : v.isRecord = false → out = v

/-- What becomes of the arguments of a method. -/
structure Followed (chain : Chain) (schema : Option ParamSchema) (params out : List Json) : Prop
    where
  length : out.length = params.length
  unknown : schema = none → out = params
  positional : ∀ kinds, schema = some (.positional kinds) →
    PositionsFollowed chain kinds params out
  /-- Only the first argument is looked into. -/
  keyed : ∀ kinds, schema = some (.keyed kinds) →
    (∀ v, params[0]? = some v → ∃ w, out[0]? = some w ∧ RecordFollowed chain kinds v w) ∧
      ∀ i : Nat, 1 ≤ i → out[i]? = params[i]?

namespace Formatter

/-! ## Positions -/

theorem positionsFollowed_applyArgs (chain : Chain) (kinds : List (Option Kind))
    (params : List Json) :
    PositionsFollowed chain kinds params
      (applyArgs (kinds.map (ofKind? chain)) params).value := by
  refine ⟨?_, ?_⟩
  · intro i kind covered
    rw [getElem?_applyArgs, List.getElem?_map, covered]
    rfl
  · intro i uncovered
    have identity : (kinds.map (ofKind? chain))[i]?.getD .identity = .identity := by
      rw [List.getElem?_map]
      cases place : kinds[i]? with
      | none => rfl
      | some kind? =>
        cases kind? with
        | none => rfl
        | some kind => exact absurd place (uncovered kind)
    rw [getElem?_applyArgs, identity]
    simp [apply]

/-! ## Fields -/

theorem onField_ofFieldKinds (chain : Chain) (kinds : Record Kind) (field : String) (v : Json) :
    onField (ofFieldKinds chain kinds) field v =
      match Record.get? kinds field with
      | some kind => chain.normalize kind v
      | none => pure v := by
  have found : Record.get? (ofFieldKinds chain kinds) field
      = (Record.get? kinds field).map fun kind => .normalize kind chain :=
    Record.get?_map (fun _ kind => Formatter.normalize kind chain) kinds field
  rw [onField, found]
  cases Record.get? kinds field with
  | none => rfl
  | some kind => simp [apply]

theorem fieldsFollowed_applyFields (chain : Chain) {kinds : Record Kind}
    (distinct : (Record.keys kinds).Nodup) (r : Record Json) :
    FieldsFollowed chain kinds r (applyFields (ofFieldKinds chain kinds) r).value := by
  rw [value_applyFields (keys_ofFieldKinds chain kinds ▸ distinct)]
  have found : ∀ field, Record.get? (List.map
      (fun m => (m.1, (onField (ofFieldKinds chain kinds) m.1 m.2).value)) r) field
        = (Record.get? r field).map fun v => (onField (ofFieldKinds chain kinds) field v).value :=
    Record.get?_map (fun key v => (onField (ofFieldKinds chain kinds) key v).value) r
  refine ⟨?_, ?_, ?_⟩
  · simp [Record.keys]
  · intro field kind covered
    rw [found]
    simp only [onField_ofFieldKinds, covered]
  · intro field uncovered
    rw [found]
    simp only [onField_ofFieldKinds, uncovered, Noted.value_pure, Option.map_id']

theorem recordFollowed_gated (chain : Chain) {kinds : Record Kind}
    (distinct : (Record.keys kinds).Nodup) (v : Json) :
    RecordFollowed chain kinds v (apply ((ofFields chain kinds).gated .isRecord) v).value := by
  rw [apply_gated_ofFields]
  refine ⟨?_, ?_⟩
  · rintro r rfl
    exact ⟨_, rfl, fieldsFollowed_applyFields chain distinct r⟩
  · intro other
    cases v with
    | obj r => cases other
    | _ => rfl

/-! ## Schemas -/

/-- The list of arguments that a schema makes of one. -/
theorem followed_ofSchema {schema : ParamSchema} (distinct : schema.Distinct) (chain : Chain)
    (params : List Json) :
    ∃ out, (apply (ofSchema chain schema) (.arr params)).value = .arr out ∧
      Followed chain (some schema) params out := by
  cases schema with
  | positional kinds =>
    refine ⟨(applyArgs (kinds.map (ofKind? chain)) params).value, rfl, ?_, nofun, ?_, nofun⟩
    · exact length_applyArgs _ params
    · rintro _ ⟨rfl⟩
      exact positionsFollowed_applyArgs chain kinds params
  | keyed kinds =>
    -- The first argument decides: a record is formatted, and anything else leaves all as it is.
    have unchanged : (∀ r, params[0]? ≠ some (.obj r)) →
        Followed chain (some (.keyed kinds)) params params := by
      intro norecord
      refine ⟨rfl, nofun, nofun, ?_⟩
      rintro _ ⟨rfl⟩
      refine ⟨fun v first => ⟨v, first, ?_, fun _ => rfl⟩, fun i _ => rfl⟩
      rintro r rfl
      exact absurd first (norecord r)
    cases params with
    | nil => exact ⟨[], rfl, unchanged nofun⟩
    | cons v rest =>
      cases v with
      | obj r =>
        refine ⟨_, congrArg Noted.value (apply_ofSchema_keyed chain kinds r rest), rfl, nofun,
          nofun, ?_⟩
        rintro _ ⟨rfl⟩
        refine ⟨?_, ?_⟩
        · rintro _ ⟨rfl⟩
          refine ⟨_, rfl, ?_, nofun⟩
          rintro _ ⟨rfl⟩
          exact ⟨_, rfl, fieldsFollowed_applyFields chain distinct r⟩
        · rintro (_ | i) later
          · omega
          · rfl
      | _ => exact ⟨_, rfl, unchanged nofun⟩

end Formatter

/-! ## Catalogs -/

namespace FormatterTable

theorem resultFormatter?_eq_some_iff {chain : Chain} {schema : ParamSchema} {f : Formatter} :
    resultFormatter? chain schema = some f ↔
      ∃ kinds, schema = .keyed kinds ∧ f = (Formatter.ofFields chain kinds).gated .isRecord := by
  cases schema with
  | positional kinds => exact ⟨nofun, fun ⟨_, h, _⟩ => nomatch h⟩
  | keyed kinds =>
    refine ⟨fun h => ⟨kinds, rfl, (Option.some.inj h).symm⟩, ?_⟩
    rintro ⟨_, ⟨rfl⟩, rfl⟩
    rfl

theorem get?_forResults_eq_some_iff {catalog : Catalog} {chain : Chain} {method : String}
    {f : Formatter} :
    Record.get? (forResults catalog chain) method = some f ↔
      ∃ kinds, catalog.lookup method = some (.keyed kinds) ∧
        f = (Formatter.ofFields chain kinds).gated .isRecord := by
  rw [get?_forResults, Option.bind_eq_some_iff]
  refine ⟨?_, ?_⟩
  · rintro ⟨schema, found, formatter⟩
    obtain ⟨kinds, rfl, rfl⟩ := resultFormatter?_eq_some_iff.1 formatter
    exact ⟨kinds, found, rfl⟩
  · rintro ⟨kinds, found, rfl⟩
    exact ⟨.keyed kinds, found, rfl⟩

end FormatterTable

namespace Formatting

/-- The arguments of a method follow the schema that the catalog has for it. -/
theorem followed_formatRequest {catalog : Catalog} (distinct : catalog.Distinct) (chain : Chain)
    (method : String) (params : List Json) :
    Followed chain (catalog.lookup method) params
      ((ofCatalog catalog chain).formatRequest method params).value := by
  rw [formatRequest_ofCatalog]
  cases found : catalog.lookup method with
  | none => exact ⟨rfl, fun _ => rfl, nofun, nofun⟩
  | some schema =>
    obtain ⟨out, value, followed⟩ :=
      Formatter.followed_ofSchema (distinct method schema found) chain params
    simp only [Noted.value_map, value, asParams]
    exact followed

/-- Arguments follow their schemas, and results of records follow the schemas by fields. -/
theorem follows_catalog {catalog : Catalog} (distinct : catalog.Distinct) (chain : Chain)
    (method : String) :
    (∀ params, Followed chain (catalog.lookup method) params
      ((ofCatalog catalog chain).formatRequest method params).value) ∧
    ((∃ f, Record.get? (FormatterTable.forResults catalog chain) method = some f) ↔
      ∃ kinds, catalog.lookup method = some (.keyed kinds)) ∧
    ∀ f kinds, Record.get? (FormatterTable.forResults catalog chain) method = some f →
      catalog.lookup method = some (.keyed kinds) →
      ∀ v, RecordFollowed chain kinds v (f.apply v).value := by
  refine ⟨followed_formatRequest distinct chain method, ⟨?_, ?_⟩, ?_⟩
  · rintro ⟨f, formatter⟩
    obtain ⟨kinds, found, _⟩ := FormatterTable.get?_forResults_eq_some_iff.1 formatter
    exact ⟨kinds, found⟩
  · rintro ⟨kinds, found⟩
    exact ⟨_, FormatterTable.get?_forResults_eq_some_iff.2 ⟨kinds, found, rfl⟩⟩
  · intro f kinds formatter found v
    obtain ⟨others, same, rfl⟩ := FormatterTable.get?_forResults_eq_some_iff.1 formatter
    cases found.symm.trans same
    exact Formatter.recordFollowed_gated chain (distinct method _ found) v

/-- With a step of one's own that puts quantities into lists, behind the builtin ones: a transaction
has its price respelt and keeps its note; what stands behind it stays, whatever it is. -/
theorem follows_catalog_call :
    let boxed : Normalizer := ⟨"boxed", fun kind => kind = .uint, fun _ v => pure (.arr [v])⟩
    let chain : Chain := Chain.request ++ [boxed]
    let f := ofCatalog Catalog.standard chain
    let schema := Catalog.standard.lookup "eth_call"
    let sent : List Json := [.obj [("gasPrice", .ofNat 10), ("note", .ofNat 10)], .ofNat 10]
    let out : List Json := [.obj [("gasPrice", .arr [.str "0xa"]), ("note", .ofNat 10)], .ofNat 10]
    Catalog.standard.Distinct ∧ (f.formatRequest "eth_call" sent).value = out ∧
      Followed chain schema sent out ∧
      ∃ g kinds, Record.get? (FormatterTable.forResults Catalog.standard .result) "eth_call"
          = some g ∧ schema = some (.keyed kinds) ∧
        ∀ v, RecordFollowed .result kinds v (g.apply v).value := by
  have distinct := Catalog.distinct_standard
  intro boxed chain f schema sent out
  have value : (f.formatRequest "eth_call" sent).value = out := by decide +kernel
  obtain ⟨arguments, _, _⟩ := follows_catalog distinct chain "eth_call"
  obtain ⟨_, formatters, results⟩ := follows_catalog distinct .result "eth_call"
  have keyed : ∃ kinds, schema = some (.keyed kinds) := ⟨_, rfl⟩
  obtain ⟨g, found⟩ := formatters.2 keyed
  obtain ⟨kinds, described⟩ := keyed
  exact ⟨distinct, value, value ▸ arguments sent, g, kinds, found, described,
    results g kinds found described⟩

end Formatting

end EthGateway
