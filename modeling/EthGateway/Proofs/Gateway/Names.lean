import EthGateway.Proofs.Catalog.Growth
import EthGateway.Proofs.Gateway.Layout
import EthGateway.Proofs.Pipeline.Sending

/-
# EthGateway.Proofs.Gateway.Names -- whose names count for a request

A request counts under the name of its method. Under a deprecated name it does what it does under
that of the method, after one notice (`run_deprecated`).

So a schema counts for the requests of its own method and for no others. A request of another method
may send calls of methods that the schema is for, but these are look-ups without arguments, and
there is nothing in them to format; all the other calls that it may send besides its own are of
methods whose schemas are fixed. What a gateway does with a call depends on the catalog only in the
schema of the call's method and in those of the methods that take a transaction (`pipeline_congr`),
and a table that is accepted leaves the latter as they are (`run_of_not_named`).
-/

namespace EthGateway

/-! ## The schema of one method -/

namespace Formatting

/-- Where there are no arguments a schema has nothing to do. -/
theorem formatRequest_ofCatalog_nil (catalog : Catalog) (chain : Chain) (method : String) :
    (ofCatalog catalog chain).formatRequest method [] = pure [] := by
  rw [formatRequest_ofCatalog]
  cases catalog.lookup method with
  | none => rfl
  | some schema =>
    cases schema with
    | positional kinds => cases kinds <;> rfl
    | keyed fields => rfl

theorem formatRequest_ofCatalog_congr {catalog other : Catalog} {c : Call}
    (same : catalog.lookup c.method = other.lookup c.method ∨ c.params = []) (chain : Chain) :
    (ofCatalog catalog chain).formatRequest c.method c.params =
      (ofCatalog other chain).formatRequest c.method c.params := by
  rcases same with schema | none
  · rw [formatRequest_ofCatalog, formatRequest_ofCatalog, schema]
  · rw [none, formatRequest_ofCatalog_nil, formatRequest_ofCatalog_nil]

end Formatting

namespace Server

open DefaultFields (senderMethods)

/-! ## Deprecated names -/

section Deprecated

variable (config : Config) (catalog : Catalog)

/-- What the log says of a call under a deprecated name. -/
theorem line_notice (a : Alias) :
    a.notice.line = "WARN " ++ a.name ++ " is deprecated in favor of " ++ a.replacement
      ++ " (" ++ a.method ++ ")" := by
  have word : "WARN " = "WARN" ++ " " := by decide
  show "WARN" ++ " " ++ (a.name ++ " is deprecated in favor of " ++ a.replacement ++ " ("
    ++ a.method ++ ")") = _
  rw [word]
  simp only [String.append_assoc]

/-- Under a deprecated name a request makes the calls and comes to the result that it does under the
name of the method, and its log has one more line, in front. -/
theorem run_deprecated {a : Alias} (deprecated : a ∈ Alias.standard) (params : List Json)
    (backend : Backend) (earlier : List Call) :
    let own := (pipeline config catalog ⟨a.method, params⟩).run backend earlier
    let o := (pipeline config catalog ⟨a.name, params⟩).run backend earlier
    o.contacts = own.contacts ∧ o.result = own.result ∧
      o.notices.map Notice.line =
        ("WARN " ++ a.name ++ " is deprecated in favor of " ++ a.replacement ++ " (" ++ a.method
          ++ ")") :: own.notices.map Notice.line := by
  have run := Layer.run_around_deprecation (behindNames config catalog)
    (Alias.resolve?_name deprecated) (Alias.resolve?_method deprecated) params backend earlier
  rw [← pipeline_eq] at run
  dsimp only
  rw [run]
  refine ⟨rfl, rfl, ?_⟩
  rw [List.map_cons, line_notice]

end Deprecated

/-- The notice comes first also where the call fails, and a schema under the deprecated name does
not count. -/
theorem run_deprecated_nodeInfo :
    let a : Alias := ⟨"nodeInfo", "node_info", "admin_nodeInfo"⟩
    let catalog := Catalog.empty.set "nodeInfo" (.ofNames [some "uint"])
    let backend : Backend := fun _ _ => pure (.error (.backend (-32601) "no such method" none))
    let own := (pipeline Config.standard catalog ⟨a.method, [.ofNat 10]⟩).run backend []
    let o := (pipeline Config.standard catalog ⟨a.name, [.ofNat 10]⟩).run backend []
    a ∈ Alias.standard ∧
      (o.contacts = own.contacts ∧ o.result = own.result ∧
        o.notices.map Notice.line =
          ("WARN " ++ a.name ++ " is deprecated in favor of " ++ a.replacement ++ " (" ++ a.method
            ++ ")") :: own.notices.map Notice.line) ∧
      o.calls = [⟨"admin_nodeInfo", [.ofNat 10]⟩] ∧ own.notices = [] := by
  intro a catalog backend own o
  have deprecated : a ∈ Alias.standard := by decide
  exact ⟨deprecated,
    run_deprecated Config.standard catalog deprecated [.ofNat 10] backend [], by decide +kernel⟩

/-! ## Schemas of other methods -/

section Catalogs

variable (config : Config) {catalog other : Catalog}

theorem inside_congr {c : Call}
    (same : catalog.lookup c.method = other.lookup c.method ∨ c.params = []) :
    inside config catalog c = inside config other c := by
  rw [inside_eq, inside_eq, Layer.around_formatting, Layer.around_formatting,
    Formatting.formatRequest_ofCatalog_congr same]
  simp only [Formatting.answered_ofCatalog]
  rfl

theorem behindNames_congr {c : Call} (own : catalog.lookup c.method = other.lookup c.method)
    (senders : ∀ method ∈ senderMethods, catalog.lookup method = other.lookup method) :
    behindNames config catalog c = behindNames config other c := by
  unfold behindNames
  split
  · refine Exchange.through_congr (DefaultFields.sends_defaultFields_call config.gasPolicy c) ?_
    rintro d (rfl | sender | none)
    · exact inside_congr config (.inl own)
    · exact inside_congr config (.inl (senders d.method sender))
    · exact inside_congr config (.inr none)
  · exact inside_congr config (.inl own)

/-- Catalogs that agree on the method of a call and on those that take a transaction serve the call
alike. -/
theorem pipeline_congr {c : Call}
    (own : catalog.lookup (Alias.canonical Alias.standard c.method) =
      other.lookup (Alias.canonical Alias.standard c.method))
    (senders : ∀ method ∈ senderMethods, catalog.lookup method = other.lookup method) :
    pipeline config catalog c = pipeline config other c := by
  rw [pipeline_eq, pipeline_eq, Layer.around_deprecation, Layer.around_deprecation]
  unfold Alias.canonical at own
  cases found : Alias.resolve? Alias.standard c.method with
  | none =>
    rw [found] at own
    exact behindNames_congr config own senders
  | some a =>
    rw [found] at own
    have served : behindNames config catalog ⟨a.method, c.params⟩
        = behindNames config other ⟨a.method, c.params⟩ := behindNames_congr config own senders
    exact congrArg (Exchange.note a.notice) served

/-- A table of schemas makes no difference to a request whose method it does not name. -/
theorem run_of_not_named {table : Json} {extended : Catalog}
    (accepted : Catalog.standard.extend table = .ok extended) {c : Call}
    (unnamed : table.get? (Alias.canonical Alias.standard c.method) = none) (backend : Backend)
    (earlier : List Call) :
    (pipeline config extended c).run backend earlier =
      (pipeline config Catalog.standard c).run backend earlier := by
  refine congrArg (Exchange.run backend earlier) (pipeline_congr config ?_ ?_)
  · exact Catalog.lookup_extend_of_not_named accepted unnamed
  · intro method sender
    have schema := Catalog.lookup_standard_of_mem_senderMethods sender
    rw [schema, Catalog.lookup_of_extend accepted schema]

end Catalogs

/-- Schemas for the methods that a sender is looked up by, and one under a deprecated name, make no
difference to a call for which a sender is looked up, nor to one under that name. They do to the
requests of these methods. -/
theorem run_of_not_named_lookups :
    let table : Json := .obj [("eth_accounts", .arr [.str "uint"]),
      ("eth_coinbase", .obj [("data", .str "bytes")]), ("nodeInfo", .arr [.str "uint"])]
    let extended := Catalog.standard.setAll [("eth_accounts", .ofNames [some "uint"]),
      ("eth_coinbase", .ofFields [("data", "bytes")]), ("nodeInfo", .ofNames [some "uint"])]
    let backend := Backend.ofScript [("eth_estimateGas", .ok (.str "0x5208"))]
    let served := fun (catalog : Catalog) (c : Call) =>
      (pipeline Config.standard catalog c).run backend []
    Catalog.standard.extend table = .ok extended ∧
      table.get? (Alias.canonical Alias.standard "eth_call") = none ∧
      table.get? (Alias.canonical Alias.standard "nodeInfo") = none ∧
      served extended ⟨"eth_call", [.obj []]⟩ = served Catalog.standard ⟨"eth_call", [.obj []]⟩ ∧
      served extended ⟨"nodeInfo", [.ofNat 10]⟩
        = served Catalog.standard ⟨"nodeInfo", [.ofNat 10]⟩ ∧
      (served extended ⟨"eth_call", [.obj []]⟩).calls.map Call.method
        = ["eth_coinbase", "eth_accounts", "eth_estimateGas", "eth_call"] ∧
      (served extended ⟨"eth_accounts", [.ofNat 10]⟩).calls = [⟨"eth_accounts", [.str "0xa"]⟩] := by
  intro table extended backend served
  have accepted : Catalog.standard.extend table = .ok extended := by
    refine Catalog.extend_obj_eq_ok_iff.2 ⟨_, ?_, ?_, rfl⟩
    · intro m hm
      rw [Catalog.standard, Catalog.lookup_ofList]
      revert m
      decide +kernel
    · exact .cons ⟨rfl, rfl⟩ (.cons ⟨rfl, rfl⟩ (.cons ⟨rfl, rfl⟩ .nil))
  have unnamed : ∀ name ∈ ["eth_call", "nodeInfo"],
      table.get? (Alias.canonical Alias.standard name) = none := by decide
  have alike : ∀ name ∈ ["eth_call", "nodeInfo"], ∀ params,
      served extended ⟨name, params⟩ = served Catalog.standard ⟨name, params⟩ := by
    intro name named params
    exact run_of_not_named Config.standard accepted (unnamed name named) backend []
  exact ⟨accepted, unnamed _ (by decide), unnamed _ (by decide), alike _ (by decide) _,
    alike _ (by decide) _, by decide +kernel⟩

end Server

end EthGateway
