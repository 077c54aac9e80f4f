import EthGateway.Proofs.Pipeline.Filling
import EthGateway.Server.Dispatch

/-
# EthGateway.Proofs.Gateway.Layout -- the layers of a gateway, from the outside

A call under a deprecated name gives a notice and goes on under the name of its method
(`pipeline_of_alias`); any other call goes on as it is (`pipeline_of_not_alias`). Behind the names
stand the default fields, if they are to be filled (`pipeline_of_filling`), and inside them one or
two formattings (`conventions`). In front of a test backend the gateway is the one in front of a
node with one more formatting behind it (`pipeline_tester`). The layers inside the default fields
make one contact for a call, and in front of a test backend it is the call in the spelling of the
catalog and then of the backend (`run_inside_tester`).
-/

namespace EthGateway.Server

variable (config : Config) (catalog : Catalog)

/-- The formattings inside the default fields. -/
def conventions : List Formatting :=
  .ofCatalog catalog .request :: if config.dialect = .tester then [Tester.formatting] else []

/-- The layers inside the default fields. -/
def inside : Layer := .stack ((conventions config catalog).map Layer.formatting)

/-- The layers behind the deprecated names. -/
def behindNames : Layer :=
  if config.fillDefaultFields then .around (.defaultFields config.gasPolicy) (inside config catalog)
  else inside config catalog

theorem pipeline_eq :
    pipeline config catalog =
      .around (.deprecation Alias.standard) (behindNames config catalog) := by
  unfold pipeline stages behindNames inside conventions
  cases config.fillDefaultFields <;> by_cases h : config.dialect = .tester <;> simp [h] <;> rfl

theorem pipeline_of_alias {a : Alias} {method : String}
    (h : Alias.resolve? Alias.standard method = some a) (params : List Json) :
    pipeline config catalog ⟨method, params⟩ =
      .note a.notice (behindNames config catalog ⟨a.method, params⟩) := by
  rw [pipeline_eq, Layer.around_deprecation, h]

theorem pipeline_of_not_alias {method : String}
    (h : Alias.resolve? Alias.standard method = none) (params : List Json) :
    pipeline config catalog ⟨method, params⟩ = behindNames config catalog ⟨method, params⟩ := by
  rw [pipeline_eq, Layer.around_deprecation, h]

theorem pipeline_of_filling (filling : config.fillDefaultFields = true) {method : String}
    (notAlias : Alias.resolve? Alias.standard method = none) (params : List Json) :
    pipeline config catalog ⟨method, params⟩ =
      Layer.around (.defaultFields config.gasPolicy) (inside config catalog) ⟨method, params⟩ := by
  rw [pipeline_of_not_alias config catalog notAlias, behindNames, if_pos filling]

/-- A call that gets no default fields goes to the layers inside them as it is. -/
theorem pipeline_of_plain {method : String}
    (notAlias : Alias.resolve? Alias.standard method = none)
    (notSender : method ∉ DefaultFields.senderMethods) (params : List Json) :
    pipeline config catalog ⟨method, params⟩ = inside config catalog ⟨method, params⟩ := by
  rw [pipeline_of_not_alias config catalog notAlias, behindNames]
  split
  · rw [Layer.around_defaultFields, DefaultFields.transaction?_of_not_sender notSender]
  · rfl

theorem inside_eq :
    inside config catalog =
      .around (.formatting (.ofCatalog catalog .request))
        (.stack (((conventions config catalog).drop 1).map Layer.formatting)) := rfl

/-- The same settings for a backend that is a node. -/
def asNode (config : Config) : Config := { config with dialect := .node }

theorem pipeline_tester (tester : config.dialect = .tester) :
    pipeline config catalog =
      .around (pipeline (asNode config) catalog) (.formatting Tester.formatting) := by
  have cut : stages config catalog
      = stages (asNode config) catalog ++ [.formatting Tester.formatting] := by
    unfold stages asNode
    cases config.fillDefaultFields <;> simp [tester, Config.gasPolicy]
  have last : Layer.stack [Layer.formatting Tester.formatting] = .formatting Tester.formatting :=
    Layer.around_forward _
  rw [pipeline, cut, List.map_append, Layer.stack_append, pipeline]
  exact congrArg (Layer.around _) last

/-! ## The layers inside the default fields of a test backend -/

theorem inside_tester (tester : config.dialect = .tester) :
    inside config catalog =
      .around (.formatting (.ofCatalog catalog .request)) (.formatting Tester.formatting) := by
  have last : Layer.stack [Layer.formatting Tester.formatting] = .formatting Tester.formatting :=
    Layer.around_forward _
  rw [inside_eq, conventions, if_pos tester]
  exact congrArg (Layer.around _) last

/-- The call that arrives at a test backend for a call to the layers inside the default fields. -/
def arrival (c : Call) : Call :=
  Tester.formatting.received ((Formatting.ofCatalog catalog .request).received c)

theorem method_arrival (c : Call) : (arrival catalog c).method = c.method := by
  rw [arrival, Formatting.received, Formatting.received]

/-- One call arrives, and its answer is handed out in the spelling of the wire. -/
theorem run_inside_tester (tester : config.dialect = .tester) (c : Call) (backend : Backend)
    (earlier : List Call) :
    let o := (inside config catalog c).run backend earlier
    let answer := (backend earlier (arrival catalog c)).value
    o.contacts = [⟨arrival catalog c, answer⟩] ∧
      o.result = (Tester.formatting.answered c.method answer).value := by
  have innermost := Layer.run_formatting Tester.formatting
    ((Formatting.ofCatalog catalog .request).received c) backend earlier []
  rw [List.map_nil, List.append_nil] at innermost
  dsimp only
  rw [inside_tester config catalog tester, Layer.run_around_formatting, innermost]
  refine ⟨rfl, ?_⟩
  -- The catalog has no say in results.
  dsimp only
  rw [Formatting.answered_ofCatalog, Noted.value_pure, Backend.behind, List.map_nil,
    List.append_nil]
  rfl

end EthGateway.Server
