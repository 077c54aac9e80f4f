import EthGateway.Config
import EthGateway.Pipeline.Layer
import EthGateway.Proofs.Formatter.Schema
import EthGateway.Proofs.Steps

/-
# EthGateway.Proofs.Catalog.Loading -- the catalogs that a gateway starts with

A gateway starts with the standard catalog, or with the standard catalog extended by a table that
was accepted (`Catalog.Loadable`, `loadable_of_loadCatalog`). A table is accepted only if it names
no method that has a schema, so every standard schema is still there (`Loadable.lookup_standard`):
in particular the methods that take a transaction have the fields of a transaction, whatever the
table says. All schemas that are read or listed name their fields once (`Loadable.distinct`), and a
catalog stays so when it is extended (`Distinct.extend`).
-/

namespace EthGateway

/-! ## Schemas name their fields once -/

namespace ParamSchema

theorem distinct_keyed_ofList (fields : List (String × Kind)) :
    (keyed (Record.ofList fields)).Distinct :=
  Record.nodup_keys_of_ordered (Record.ordered_ofList fields)

theorem distinct_ofJson {method : String} {v : Json} {schema : ParamSchema}
    (h : ofJson method v = .ok schema) : schema.Distinct := by
  unfold ofJson at h
  split at h
  · obtain ⟨kinds, _, rfl⟩ := map_eq_ok_iff.1 h
    trivial
  · obtain ⟨fields, _, rfl⟩ := map_eq_ok_iff.1 h
    exact distinct_keyed_ofList fields
  · cases h

end ParamSchema

namespace Catalog

/-! ## Putting schemas in -/

theorem lookup_setAll (c : Catalog) (entries : List (String × ParamSchema)) (method : String) :
    (c.setAll entries).lookup method =
      ((entries.reverse.find? fun e => e.1 = method).map Prod.snd).or (c.lookup method) := by
  have schemas : ∀ (entries : List (String × ParamSchema)) (c : Catalog),
      (c.setAll entries).schemas =
        entries.foldl (fun r e => Record.insert r e.1 e.2) c.schemas := by
    intro entries
    induction entries with
    | nil => intro c; rfl
    | cons e entries ih => intro c; exact ih (c.set e.1 e.2)
  rw [lookup, schemas, Record.get?_foldl_insert]
  rfl

/-- A method that is not named keeps what it has. -/
theorem lookup_setAll_of_not_mem (c : Catalog) {entries : List (String × ParamSchema)}
    {method : String} (unnamed : method ∉ Record.keys entries) :
    (c.setAll entries).lookup method = c.lookup method := by
  have others : entries.reverse.find? (fun e => e.1 = method) = none := by
    rw [List.find?_eq_none]
    intro e he hk
    have named : e.1 ∈ Record.keys entries := List.mem_map_of_mem (List.mem_reverse.1 he)
    exact unnamed (of_decide_eq_true hk ▸ named)
  rw [lookup_setAll, others]
  rfl

theorem lookup_ofList (entries : List (String × ParamSchema)) (method : String) :
    (ofList entries).lookup method =
      (entries.reverse.find? fun e => e.1 = method).map Prod.snd := by
  rw [ofList, lookup_setAll, lookup_empty, Option.or_none]

/-- The entries that were read are for methods without a schema, and name their fields once. -/
theorem fresh_of_readEntries {c : Catalog} {members : List (String × Json)}
    {entries : List (String × ParamSchema)} (h : c.readEntries members = .ok entries) :
    ∀ e ∈ entries, c.lookup e.1 = none ∧ e.2.Distinct := by
  induction members generalizing entries with
  | nil =>
    cases h
    intro e he
    cases he
  | cons m members ih =>
    unfold readEntries at h
    split at h
    · cases h
    · next fresh =>
      obtain ⟨schema, read, h⟩ := bind_eq_ok_iff.1 h
      obtain ⟨others, readOthers, h⟩ := bind_eq_ok_iff.1 h
      cases h
      intro e he
      rcases List.mem_cons.1 he with rfl | he
      · exact ⟨by simpa [contains] using fresh, ParamSchema.distinct_ofJson read⟩
      · exact ih readOthers e he

theorem extend_eq_ok {c extended : Catalog} {table : Json} (h : c.extend table = .ok extended) :
    ∃ entries, extended = c.setAll entries ∧
      ∀ e ∈ entries, c.lookup e.1 = none ∧ e.2.Distinct := by
  unfold extend at h
  split at h
  · obtain ⟨entries, read, rfl⟩ := map_eq_ok_iff.1 h
    exact ⟨entries, rfl, fresh_of_readEntries read⟩
  · cases h

/-- What has a schema keeps it. -/
theorem lookup_of_extend {c extended : Catalog} {table : Json}
    (h : c.extend table = .ok extended) {method : String} {schema : ParamSchema}
    (found : c.lookup method = some schema) : extended.lookup method = some schema := by
  obtain ⟨entries, rfl, fresh⟩ := extend_eq_ok h
  have unnamed : method ∉ Record.keys entries := by
    intro named
    obtain ⟨e, he, same⟩ := List.mem_map.1 named
    have new := (fresh e he).1
    rw [same, found] at new
    cases new
  rw [lookup_setAll_of_not_mem c unnamed, found]

/-! ## Loadable catalogs -/

/-- The standard catalog, or the standard catalog extended by a table that was accepted. -/
def Loadable (c : Catalog) : Prop := c = standard ∨ ∃ table, standard.extend table = .ok c

theorem loadable_of_loadCatalog {files : Files} {config : Config} {c : Catalog}
    (h : config.loadCatalog files = .ok c) : c.Loadable := by
  unfold Config.loadCatalog at h
  split at h
  · exact .inl (Except.ok.inj h).symm
  · split at h
    · cases h
    · unfold Config.catalogOfText at h
      split at h
      · cases h
      · next table _ => exact .inr ⟨table, mapError_eq_ok_iff.1 h⟩

theorem Loadable.lookup_standard {c : Catalog} (h : c.Loadable) {method : String}
    {schema : ParamSchema} (found : standard.lookup method = some schema) :
    c.lookup method = some schema := by
  rcases h with rfl | ⟨table, extended⟩
  · exact found
  · exact lookup_of_extend extended found

/-! ## Catalogs name the fields of a schema once -/

theorem distinct_empty : empty.Distinct := fun _ _ => nofun

theorem Distinct.set {c : Catalog} (h : c.Distinct) {schema : ParamSchema}
    (distinct : schema.Distinct) (method : String) : (c.set method schema).Distinct := by
  intro m other found
  rw [lookup_set] at found
  split at found
  · exact Option.some.inj found ▸ distinct
  · exact h m other found

theorem Distinct.setAll {c : Catalog} (h : c.Distinct) {entries : List (String × ParamSchema)}
    (distinct : ∀ e ∈ entries, e.2.Distinct) : (c.setAll entries).Distinct := by
  induction entries generalizing c with
  | nil => exact h
  | cons e entries ih =>
    obtain ⟨first, rest⟩ := List.forall_mem_cons.1 distinct
    exact ih (h.set first e.1) rest

theorem Distinct.extend {c extended : Catalog} (h : c.Distinct) {table : Json}
    (accepted : c.extend table = .ok extended) : extended.Distinct := by
  obtain ⟨entries, rfl, fresh⟩ := extend_eq_ok accepted
  exact h.setAll fun e he => (fresh e he).2

theorem distinct_standard : standard.Distinct := by
  refine distinct_empty.setAll fun e he => ?_
  rcases List.mem_append.1 he with he | he
  · obtain ⟨fields, _, rfl⟩ := List.mem_map.1 he
    exact ParamSchema.distinct_keyed_ofList _
  · obtain ⟨names, _, rfl⟩ := List.mem_map.1 he
    trivial

theorem Loadable.distinct {c : Catalog} (h : c.Loadable) {method : String} {schema : ParamSchema}
    (found : c.lookup method = some schema) : schema.Distinct := by
  have catalog : c.Distinct := by
    rcases h with rfl | ⟨table, extended⟩
    · exact distinct_standard
    · exact distinct_standard.extend extended
  exact catalog method schema found

/-! ## Transactions -/

/-- The schema of a transaction. -/
def transactionSchema : ParamSchema := .ofFields transactionFields

/-- The methods that take a transaction and get its missing fields have its schema. -/
theorem lookup_standard_of_mem_senderMethods {method : String}
    (h : method ∈ DefaultFields.senderMethods) :
    standard.lookup method = some transactionSchema := by
  rw [standard, lookup_ofList]
  rcases (by simpa [DefaultFields.senderMethods] using h : _ ∨ _ ∨ _ ∨ _) with rfl | rfl | rfl | rfl
    <;> rfl

end Catalog

end EthGateway
