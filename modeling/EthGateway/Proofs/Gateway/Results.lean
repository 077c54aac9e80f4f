import EthGateway.Proofs.Gateway.Layout
import EthGateway.Proofs.Pipeline.Discipline
import EthGateway.Proofs.Tester.Results

/-
# EthGateway.Proofs.Gateway.Results -- what callers get for the backend's answer

The result of a request is made of the backend's answer to the last call. In front of a node it is
this answer as it is. In front of a test backend it is the answer in the spelling of the wire, as
the method of the request has it, whatever name the request came under (`handedOut_of_result`).
Neither the names, nor the default fields, nor the catalog have a say in it (`returned_stages`).
-/

namespace EthGateway.Server

open Stage (returned resolved)

variable (config : Config) (catalog : Catalog)

theorem standardNames_stages : Stage.StandardNames (stages config catalog) := by
  intro aliases h
  unfold stages at h
  rcases List.mem_cons.1 h with same | h
  · exact Stage.deprecation.inj same
  · exfalso
    revert h
    cases config.fillDefaultFields <;> by_cases tester : config.dialect = .tester <;>
      simp [tester]

theorem resolved_stages (name : String) :
    resolved (stages config catalog) name = Alias.canonical Alias.standard name := by
  rw [Stage.resolved_eq_canonical (standardNames_stages config catalog)]
  rfl

/-- Only the formatting of a test backend changes a result. -/
theorem returned_stages (name : String) (v : Json) :
    returned (stages config catalog) name v =
      if config.dialect = .tester then
        (Tester.formatting.formatResult (Alias.canonical Alias.standard name) v).value
      else v := by
  have kept : ∀ name v,
      ((Formatting.ofCatalog catalog .request).formatResult name v).value = v := fun _ _ => rfl
  unfold stages
  cases config.fillDefaultFields <;> by_cases tester : config.dialect = .tester <;>
    simp only [tester, returned, kept, List.nil_append, List.cons_append, if_true, if_false,
      Bool.false_eq_true]

/-- The result of a request is what goes out for the answer to its last call. -/
theorem handedOut_of_result (c : Call) (backend : Backend) (earlier : List Call) {w : Json}
    (result : ((pipeline config catalog c).run backend earlier).result = .ok w) :
    let method := Alias.canonical Alias.standard c.method
    ∃ before last v,
      ((pipeline config catalog c).run backend earlier).contacts = before ++ [last] ∧
        last.call.method = method ∧ last.answer = .ok v ∧
        (config.dialect = .node → w = v) ∧
        (config.dialect = .tester → v.Ordered → Tester.HandedOut method v w) := by
  have trail := Stage.trail_stack (standardNames_stages config catalog) backend c earlier
  rw [← pipeline] at trail
  unfold Stage.Trail Stage.Course at trail
  rw [result] at trail
  obtain ⟨before, last, v, contacts, -, own, answered, rfl⟩ := trail
  rw [resolved_stages] at own
  rw [returned_stages]
  refine ⟨before, last, v, contacts, own, answered, ?_, ?_⟩
  · intro node
    rw [node]
    rfl
  · intro tester ordered
    rw [if_pos tester]
    exact Tester.handedOut_formatResult _ ordered

/-- A receipt with a field under both its names, and with a list of logs that holds something else
than log entries. -/
theorem handedOut_of_result_receipt :
    let config : Config := { Config.standard with dialect := .tester }
    let answer : Json := .obj [("block_hash", .null), ("gasUsed", .ofNat 1), ("gas_used", .ofNat 2),
      ("logs", .arr [.obj [("log_index", .ofNat 0)], .bool true])]
    let backend : Backend := fun _ _ => pure (.ok answer)
    let w : Json := .obj [("blockHash", .null), ("gasUsed", .ofNat 2),
      ("logs", .arr [.obj [("logIndex", .ofNat 0)], .bool true])]
    let o := (pipeline config Catalog.empty ⟨"eth_getTransactionReceipt", []⟩).run backend []
    o.result = .ok w ∧ config.dialect = .tester ∧ answer.Ordered ∧
      Tester.HandedOut "eth_getTransactionReceipt" answer w := by
  intro config answer backend w o
  have run := run_inside_tester config Catalog.empty rfl ⟨"eth_getTransactionReceipt", []⟩ backend []
  dsimp only at run
  rw [← pipeline_of_plain config Catalog.empty (by decide) (by decide)] at run
  have result : o.result = .ok w := by
    rw [run.2]
    decide +kernel
  have ordered : answer.Ordered := by
    refine ⟨show List.Pairwise _ _ by decide +kernel, ?_⟩
    simp [Json.OrderedMembers, Json.Ordered, Json.OrderedItems, Record.Ordered, Json.ofNat]
  obtain ⟨before, last, v, contacts, -, answered, -, out⟩ :=
    handedOut_of_result config Catalog.empty ⟨"eth_getTransactionReceipt", []⟩ backend [] result
  -- The backend has answered one call, and every call alike.
  have only : before ++ [last] = [] ++ [⟨_, .ok answer⟩] := contacts.symm.trans run.1
  obtain ⟨-, same⟩ := List.append_inj' only rfl
  obtain rfl := (List.cons.inj same).1
  obtain rfl : answer = v := Except.ok.inj answered
  exact ⟨result, rfl, ordered, out rfl ordered⟩

end EthGateway.Server
