import EthGateway.Proofs.Catalog.Loading
import EthGateway.Proofs.Gateway.Layout
import EthGateway.Proofs.Pipeline.Filling

/-
# EthGateway.Proofs.Gateway.Prenormalized -- a caller may normalize in advance

Arguments that a caller has normalized already, by the catalog and under the name of the method that
the call stands for, are served exactly as the arguments were before: the same calls reach the
backend, the same notices are reported and the same answer comes back (`run_prenormalized`).

The formattings inside the default fields cannot tell the two apart, because normalizing is
stable. The default fields could: they look at the transaction before it is normalized, and send it
on in an estimate. So the relation that is carried through them is that of two transactions whose
fields are normalized alike (`Formatter.Alike`). It keeps what is missing
(`keepsMissing_transactionFormatters`), and the formattings of every method that takes a transaction
are blind to it (`Blind`), for the catalog has the same schema for all of them.
-/

namespace EthGateway

namespace DefaultFields

open Formatter (Alike)

/-! ## Transactions that a layer cannot tell apart -/

/-- A layer does not see the difference of transactions whose fields are formatted alike. -/
def Blind (inners : List (String × Formatter)) (inner : Layer) : Prop :=
  ∀ method ∈ senderMethods, ∀ rest t u, Alike inners t u →
    inner (resend method rest t) = inner (resend method rest u)

/-- Formatting a field leaves null and all else apart. -/
def KeepsNull (inners : List (String × Formatter)) : Prop :=
  ∀ key v, (Formatter.onField inners key v).value.isNull = v.isNull

end DefaultFields

/-! ## A catalog normalizes alike what it has normalized -/

section Catalog

open DefaultFields (KeepsMissing KeepsNull senderMethods)

/-- The kinds of the fields of a transaction. -/
def transactionKinds : Record Kind :=
  Record.ofList (Catalog.transactionFields.map fun f => (f.1, .parse f.2))

/-- The formatters of the fields of a transaction. -/
def transactionFormatters : List (String × Formatter) :=
  Formatter.ofFieldKinds .request transactionKinds

theorem nodup_keys_transactionFormatters : (Record.keys transactionFormatters).Nodup := by
  rw [transactionFormatters, Formatter.keys_ofFieldKinds]
  exact Record.nodup_keys_of_ordered (Record.ordered_ofList _)

theorem keepsNull_transactionFormatters : KeepsNull transactionFormatters := by
  intro key v
  unfold Formatter.onField
  cases found : Record.get? transactionFormatters key with
  | none => rfl
  | some f =>
    obtain ⟨k, _, hk⟩ := List.mem_map.1 (Record.mem_of_get?_eq_some found)
    obtain ⟨-, rfl⟩ := Prod.mk.inj hk
    simp only [Formatter.apply, Chain.isNull_normalize Chain.request_subset_builtin]

/-- Values that are formatted alike are both null or neither is. -/
theorem keepsMissing_transactionFormatters : KeepsMissing fun key v w =>
    Formatter.onField transactionFormatters key v = Formatter.onField transactionFormatters key w := by
  refine ⟨fun _ _ => rfl, ?_⟩
  intro key v w same
  rw [← keepsNull_transactionFormatters key v, same, keepsNull_transactionFormatters key w]

variable {catalog : Catalog} (loadable : catalog.Loadable)
include loadable

/-- The arguments of a method that takes a transaction: the fields of the transaction are
normalized, and nothing else is. -/
theorem formatRequest_transaction {method : String} (h : method ∈ senderMethods) (t : Record Json)
    (rest : List Json) :
    (Formatting.ofCatalog catalog .request).formatRequest method (.obj t :: rest) =
      (fun t => .obj t :: rest) <$> Formatter.applyFields transactionFormatters t := by
  have schema : catalog.lookup method = some (.keyed transactionKinds) :=
    loadable.lookup_standard (Catalog.lookup_standard_of_mem_senderMethods h)
  simp only [Formatting.formatRequest_ofCatalog, schema, Formatter.apply_ofSchema_keyed,
    Functor.map_map, Formatting.asParams, transactionFormatters]

theorem formatRequest_no_transaction {method : String} (h : method ∈ senderMethods)
    {params : List Json} (none : ∀ t rest, params ≠ .obj t :: rest) :
    (Formatting.ofCatalog catalog .request).formatRequest method params = pure params := by
  have schema : catalog.lookup method = some (.keyed transactionKinds) :=
    loadable.lookup_standard (Catalog.lookup_standard_of_mem_senderMethods h)
  simp only [Formatting.formatRequest_ofCatalog, schema]
  cases params with
  | nil => rfl
  | cons v rest =>
    cases v with
    | obj t => exact absurd rfl (none t rest)
    | _ => rfl

end Catalog

namespace Server

open DefaultFields (Blind senderMethods resend)

section Loaded

variable (config : Config) {catalog : Catalog} (loadable : catalog.Loadable)
include loadable

theorem blind_inside : Blind transactionFormatters (inside config catalog) := by
  intro method h rest t u alike
  have same : (Formatting.ofCatalog catalog .request).formatRequest method (.obj t :: rest)
      = (Formatting.ofCatalog catalog .request).formatRequest method (.obj u :: rest) := by
    rw [formatRequest_transaction loadable h, formatRequest_transaction loadable h,
      Formatter.applyFields_congr nodup_keys_transactionFormatters alike]
  rw [inside_eq, Layer.around_formatting, Layer.around_formatting]
  simp only [resend, same]

theorem inside_normalized (method : String) (params : List Json) :
    inside config catalog ⟨method,
        ((Formatting.ofCatalog catalog .request).formatRequest method params).value⟩ =
      inside config catalog ⟨method, params⟩ := by
  have distinct : ∀ schema, catalog.lookup method = some schema → schema.Distinct :=
    fun _ => loadable.distinct
  have again := Formatting.formatRequest_formatRequest distinct Chain.stable_request params
  rw [inside_eq, Layer.around_formatting, Layer.around_formatting]
  simp only [again]

/-- The default fields and what is inside them serve a transaction and its normal form alike. -/
theorem filled_normalized (policy : GasPolicy) {method : String} (sender : method ∈ senderMethods)
    (t : Record Json) (rest : List Json) :
    Layer.around (.defaultFields policy) (inside config catalog)
        (resend method rest (Formatter.applyFields transactionFormatters t).value) =
      Layer.around (.defaultFields policy) (inside config catalog) (resend method rest t) := by
  -- What has been normalized is normalized like what it came from.
  have alike := Formatter.alike_applyFields nodup_keys_transactionFormatters
    (fun _ => Formatter.stable_of_mem_ofFieldKinds Chain.stable_request) t
  exact DefaultFields.blindTo_defaultFields keepsMissing_transactionFormatters
    (blind_inside config loadable) policy method sender rest _ t alike

theorem behindNames_normalized (method : String) (params : List Json) :
    behindNames config catalog ⟨method,
        ((Formatting.ofCatalog catalog .request).formatRequest method params).value⟩ =
      behindNames config catalog ⟨method, params⟩ := by
  unfold behindNames
  split
  · by_cases sender : method ∈ senderMethods
    · by_cases brought : ∃ t rest, params = .obj t :: rest
      · obtain ⟨t, rest, rfl⟩ := brought
        rw [formatRequest_transaction loadable sender]
        exact filled_normalized config loadable config.gasPolicy sender t rest
      · have unchanged := formatRequest_no_transaction loadable sender
          fun t rest h => brought ⟨t, rest, h⟩
        rw [unchanged, Noted.value_pure]
    · -- Such a method is none that the default fields look at.
      rw [Layer.around_defaultFields, Layer.around_defaultFields,
        DefaultFields.transaction?_of_not_sender sender,
        DefaultFields.transaction?_of_not_sender sender]
      exact inside_normalized config loadable method params
  · exact inside_normalized config loadable method params

/-- Arguments that are normalized in advance make no difference to anything. -/
theorem run_prenormalized (method : String) (params : List Json) (backend : Backend)
    (earlier : List Call) :
    let canonical := Alias.canonical Alias.standard method
    let normalized := (Formatting.ofCatalog catalog .request).formatRequest canonical params
    (pipeline config catalog ⟨method, normalized.value⟩).run backend earlier =
      (pipeline config catalog ⟨method, params⟩).run backend earlier := by
  unfold Alias.canonical
  cases name : Alias.resolve? Alias.standard method with
  | none =>
    simp only [pipeline_of_not_alias config catalog name]
    rw [behindNames_normalized config loadable]
  | some a =>
    simp only [pipeline_of_alias config catalog name]
    rw [behindNames_normalized config loadable]

end Loaded

/-- Normalizing in advance changes the arguments of this call, and nothing else. -/
theorem run_prenormalized_call :
    let config : Config := { Config.standard with dialect := .tester }
    let params : List Json := [.obj [("data", .str "ab"), ("value", .ofNat 10)], .str "latest"]
    let normalized := (Formatting.ofCatalog Catalog.standard .request).formatRequest
      (Alias.canonical Alias.standard "eth_call") params
    let backend := Backend.ofScript [("eth_estimateGas", .ok (.str "0x5208"))]
    Catalog.standard.Loadable ∧
      normalized.value = [.obj [("data", .str "0xab"), ("value", .str "0xa")], .str "latest"] ∧
      (pipeline config Catalog.standard ⟨"eth_call", normalized.value⟩).run backend [] =
        (pipeline config Catalog.standard ⟨"eth_call", params⟩).run backend [] :=
  ⟨.inl rfl, by decide +kernel,
    run_prenormalized { Config.standard with dialect := .tester } (.inl rfl) "eth_call" _ _ []⟩

end Server

end EthGateway
