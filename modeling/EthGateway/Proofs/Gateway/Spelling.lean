import EthGateway.Proofs.Gateway.Prenormalized
import EthGateway.Proofs.Pipeline.Sending
import EthGateway.Proofs.Tester.Spelling

/-
# EthGateway.Proofs.Gateway.Spelling -- the spelling of a quantity does not matter

A transaction may have its gas, its gas price and its value as integers or as hexadecimal text, in
any letter case and with any leading zeros. In front of a test backend two requests that differ in
such spellings only are served by the same calls, with the same notices and the same result, and
every call that brings the transaction brings the integers (`run_agree`).

The catalog writes integers out and leaves text alone, so behind it all quantities are text, but not
the same text (`related_normalized`). Only the formatting of the backend makes the two transactions
one. The layers inside the default fields are therefore blind to the spelling as a whole
(`blindTo_inside`), and so are the default fields in front of them, with the estimate that they send.
-/

namespace EthGateway

open DefaultFields (BlindTo Filled KeepsMissing senderMethods resend)
open Quantity (Denotes Spells)
open Tester (Agree HoldsIntegers quantityFields)

/-! ## Behind the catalog -/

/-- The catalog writes the integers of quantity fields out. -/
theorem onField_quantity {key : String} (h : key ∈ quantityFields.map Prod.fst) (v : Json) :
    Formatter.onField transactionFormatters key v = pure v.integerToHex := by
  have kinds : ∀ key ∈ quantityFields.map Prod.fst,
      Record.get? transactionKinds key = some .uint := by decide +kernel
  have formatter : Record.get? transactionFormatters key = some (.normalize .uint .request) := by
    rw [transactionFormatters, Formatter.ofFieldKinds,
      Record.get?_map fun _ kind => Formatter.normalize kind .request, kinds key h]
    rfl
  rw [Formatter.onField, formatter]
  rfl

/-- Quantities that differ in their spelling are text behind the catalog. -/
theorem related_normalized {t u : Record Json} (h : Record.Related (Agree Denotes) t u) :
    Record.Related (Agree Spells) (Formatter.applyFields transactionFormatters t).value
      (Formatter.applyFields transactionFormatters u).value := by
  refine Formatter.related_applyFields nodup_keys_transactionFormatters (h.imp ?_)
  rintro ⟨key, v⟩ ⟨_, w⟩ ⟨rfl, agree⟩
  refine ⟨rfl, ?_⟩
  rcases agree with rfl | ⟨quantity, n, hv, hw⟩
  · exact .inl rfl
  · refine .inr ⟨quantity, n, ?_⟩
    rw [onField_quantity quantity, onField_quantity quantity]
    exact ⟨hv.spells_integerToHex, hw.spells_integerToHex⟩

theorem notices_normalized {t u : Record Json} (h : Record.Related (Agree Denotes) t u) :
    (Formatter.applyFields transactionFormatters t).notices =
      (Formatter.applyFields transactionFormatters u).notices := by
  refine Formatter.notices_applyFields_congr nodup_keys_transactionFormatters (h.imp ?_)
  rintro ⟨key, v⟩ ⟨_, w⟩ ⟨rfl, agree⟩
  refine ⟨rfl, ?_⟩
  rcases agree with rfl | ⟨quantity, -⟩
  · rfl
  · rw [onField_quantity quantity, onField_quantity quantity]
    rfl

theorem keepsMissing_agree : KeepsMissing (Agree Denotes) := by
  refine ⟨fun _ _ => .inl rfl, ?_⟩
  rintro key v w (rfl | ⟨-, n, hv, hw⟩)
  · rfl
  · rw [hv.isNull, hw.isNull]

theorem ordered_normalized {t : Record Json} (h : Record.Ordered t) :
    Record.Ordered (Formatter.applyFields transactionFormatters t).value := by
  rw [Formatter.value_applyFields nodup_keys_transactionFormatters]
  exact List.pairwise_map.2 h

theorem keys_normalized (t : Record Json) :
    Record.keys (Formatter.applyFields transactionFormatters t).value = Record.keys t := by
  rw [Formatter.value_applyFields nodup_keys_transactionFormatters, Record.keys, List.map_map]
  rfl

theorem get?_normalized {t : Record Json} {key : String} (h : key ∈ quantityFields.map Prod.fst)
    {v : Json} (found : Record.get? t key = some v) :
    Record.get? (Formatter.applyFields transactionFormatters t).value key
      = some v.integerToHex := by
  rw [Formatter.value_applyFields nodup_keys_transactionFormatters,
    Record.get?_map fun key v => (Formatter.onField transactionFormatters key v).value, found,
    Option.map_some, onField_quantity h]
  rfl

namespace Server

/-- Methods that take a transaction take it in the backend's conventions. -/
theorem mem_methods_of_sender {method : String} (h : method ∈ senderMethods) :
    method ∈ Tester.transactionRecord.methods := by
  revert method
  decide

theorem not_alias_of_sender {method : String} (h : method ∈ senderMethods) :
    Alias.resolve? Alias.standard method = none := by
  revert method
  decide

section Loaded

variable (config : Config) (tester : config.dialect = .tester) {catalog : Catalog}
  (loadable : catalog.Loadable)
include tester loadable

/-! ## The layers do not see the spelling -/

theorem blindTo_inside : BlindTo (Agree Denotes) (inside config catalog) := by
  intro method sender rest t u h
  rw [inside_tester config catalog tester, Layer.around_formatting, Layer.around_formatting]
  dsimp only [resend]
  rw [formatRequest_transaction loadable sender, formatRequest_transaction loadable sender]
  refine Exchange.ofNoted_bind_congr ?_ ?_
  · rw [Noted.notices_map, Noted.notices_map]
    exact notices_normalized h
  · have same := Tester.formatRequest_of_agree (related_normalized h)
      (mem_methods_of_sender sender) rest
    rw [Noted.value_map, Noted.value_map, Layer.formatting_eq, Layer.formatting_eq]
    dsimp only
    rw [same]

theorem blindTo_behindNames : BlindTo (Agree Denotes) (behindNames config catalog) := by
  have inside := blindTo_inside config tester loadable
  unfold behindNames
  split
  · exact DefaultFields.blindTo_defaultFields keepsMissing_agree inside config.gasPolicy
  · exact inside

/-! ## The integers arrive -/

omit loadable in
/-- One call arrives for a call to the layers inside the default fields. -/
theorem sends_inside (c : Call) :
    (inside config catalog c).Sends fun d => d = arrival catalog c := by
  rw [inside_tester config catalog tester]
  refine Exchange.sends_through (Layer.sends_formatting _ c) ?_
  rintro _ rfl
  exact Layer.sends_formatting Tester.formatting _

omit loadable in
/-- Every call that arrives with a transaction arrives with that of the request, filled or as it
is. -/
theorem sends_behindNames {method : String} (sender : method ∈ senderMethods) (t : Record Json)
    (rest : List Json) :
    (behindNames config catalog (resend method rest t)).Sends fun d =>
      d.method ∈ senderMethods → ∃ filled behind, Filled t filled ∧
        d = arrival catalog ⟨d.method, .obj filled :: behind⟩ := by
  have brought : ∀ c, DefaultFields.Brings t c → (inside config catalog c).Sends fun d =>
      d.method ∈ senderMethods → ∃ filled behind, Filled t filled ∧
        d = arrival catalog ⟨d.method, .obj filled :: behind⟩ := by
    intro c brings
    refine (sends_inside config tester c).mono ?_
    rintro _ rfl takes
    rw [method_arrival] at takes ⊢
    obtain ⟨filled, behind, params, kept⟩ := brings takes
    refine ⟨filled, behind, kept, ?_⟩
    rw [← params]
  unfold behindNames
  split
  · exact DefaultFields.sends_defaultFields brought config.gasPolicy sender rest
  · exact brought _ (DefaultFields.brings_resend (Filled.refl t) method rest)

omit tester in
/-- A transaction arrives with its quantities as integers, whatever was filled in. -/
theorem holdsIntegers_arrival {method : String} (sender : method ∈ senderMethods)
    {t filled : Record Json} (ordered : Record.Ordered t) (h : Filled t filled)
    (rest : List Json) :
    ∃ arrived behind,
      (arrival catalog ⟨method, .obj filled :: rest⟩).params = .obj arrived :: behind ∧
        HoldsIntegers Denotes t arrived := by
  have received : (Formatting.ofCatalog catalog .request).received ⟨method, .obj filled :: rest⟩
      = ⟨method, .obj (Formatter.applyFields transactionFormatters filled).value :: rest⟩ := by
    rw [Formatting.received, formatRequest_transaction loadable sender, Noted.value_map]
  obtain ⟨arrived, behind, params, holds⟩ := Tester.holdsIntegers_received
    (ordered_normalized (h.ordered ordered)) (mem_methods_of_sender sender) rest
  rw [arrival, received]
  refine ⟨arrived, behind, params, ?_⟩
  intro f quantity v n found denotes alone
  have present : DefaultFields.isMissing t f.1 = false := by
    rw [DefaultFields.isMissing, found]
    exact denotes.isNull
  have kept : Record.get? filled f.1 = some v := (h.kept f.1 present).trans found
  refine holds f quantity v.integerToHex n (get?_normalized (List.mem_map_of_mem quantity) kept)
    denotes.spells_integerToHex ?_
  rw [keys_normalized]
  rcases alone with unmapped | absent
  · exact .inl unmapped
  · by_cases unmapped : f.2 = f.1
    · exact .inl unmapped
    · -- No field that is filled in has a name of its own in the backend.
      have names : ∀ f ∈ quantityFields, f.2 ≠ f.1 → f.2 ∉ ["from", "gas"] := by decide
      rw [← Record.get?_eq_none_iff] at absent ⊢
      exact .inr ((h.others f.2 (names f quantity unmapped)).trans absent)

/-- Requests whose transactions differ in the spelling of quantities are served alike. Every call
that brings the transaction, the call of the request and the estimate for it, brings the quantities
as integers. -/
theorem run_agree {method : String} (sender : method ∈ senderMethods) {t u : Record Json}
    (agree : Record.Related (Agree Denotes) t u) (rest : List Json) (backend : Backend)
    (earlier : List Call) :
    let o := (pipeline config catalog ⟨method, .obj t :: rest⟩).run backend earlier
    (pipeline config catalog ⟨method, .obj u :: rest⟩).run backend earlier = o ∧
      (Record.Ordered t → ∀ d ∈ o.calls, d.method ∈ senderMethods →
        ∃ arrived behind, d.params = .obj arrived :: behind ∧ HoldsIntegers Denotes t arrived) := by
  have name := not_alias_of_sender sender
  dsimp only
  rw [pipeline_of_not_alias config catalog name, pipeline_of_not_alias config catalog name]
  refine ⟨?_, ?_⟩
  · have same := blindTo_behindNames config tester loadable method sender rest t u agree
    exact congrArg (Exchange.run backend earlier) same.symm
  · intro ordered d hd takes
    have sent := Exchange.forall_calls_run (sends_behindNames config tester sender t rest) backend
      earlier d hd
    obtain ⟨filled, behind, kept, arrives⟩ := sent takes
    rw [arrives]
    exact holdsIntegers_arrival loadable takes ordered kept behind

end Loaded

/-- Zeros in front, capital letters and an integer: the estimate and the call are the same. -/
theorem run_agree_call :
    let config : Config := { Config.standard with dialect := .tester }
    let t : Record Json := [("from", .bool true), ("gasPrice", .ofNat 171), ("value", .str "0X00aB")]
    let u : Record Json := [("from", .bool true), ("gasPrice", .str "0xAB"), ("value", .ofNat 171)]
    let backend := Backend.ofScript [("eth_estimateGas", .ok (.ofNat 21000))]
    let o := (pipeline config Catalog.standard ⟨"eth_call", [.obj t]⟩).run backend []
    let estimate : Record Json :=
      [("from", .bool true), ("gas_price", .ofNat 171), ("value", .ofNat 171)]
    config.dialect = .tester ∧ Catalog.standard.Loadable ∧ "eth_call" ∈ senderMethods ∧
      Record.Related (Agree Denotes) t u ∧
      ((pipeline config Catalog.standard ⟨"eth_call", [.obj u]⟩).run backend [] = o ∧
        (Record.Ordered t → ∀ d ∈ o.calls, d.method ∈ senderMethods →
          ∃ arrived behind, d.params = .obj arrived :: behind ∧ HoldsIntegers Denotes t arrived)) ∧
      Record.Ordered t ∧
      o.calls = [⟨"eth_estimateGas", [.obj estimate]⟩,
        ⟨"eth_call", [.obj (Record.insert estimate "gas" (.ofNat 42000))]⟩] := by
  intro config t u backend o estimate
  have capitals : Denotes (.str "0xAB") 171 := by
    have digits : ['A', 'B'].all Text.Hex.isDigit = true := by decide
    exact .inr ⟨"0xAB", ['A', 'B'], rfl, .inl (by decide), nofun, List.all_eq_true.1 digits,
      by decide, by decide⟩
  have zeros : Denotes (.str "0X00aB") 171 := by
    have digits : ['0', '0', 'a', 'B'].all Text.Hex.isDigit = true := by decide
    exact .inr ⟨"0X00aB", ['0', '0', 'a', 'B'], rfl, .inr (by decide), nofun,
      List.all_eq_true.1 digits, by decide, by decide⟩
  have integer : Denotes (.ofNat 171) 171 := .inl ⟨rfl, by decide⟩
  have agree : Record.Related (Agree Denotes) t u :=
    .cons ⟨rfl, .inl rfl⟩ (.cons ⟨rfl, .inr ⟨by decide, 171, integer, capitals⟩⟩
      (.cons ⟨rfl, .inr ⟨by decide, 171, zeros, integer⟩⟩ .nil))
  have sender : "eth_call" ∈ senderMethods := by decide
  refine ⟨rfl, .inl rfl, sender, agree, ?_, ?_, ?_⟩
  · exact run_agree config rfl (.inl rfl) sender agree [] backend []
  · show List.Pairwise _ _
    decide +kernel
  · decide +kernel

end Server

end EthGateway
