import EthGateway.Proofs.Formatter.Schema
import EthGateway.Proofs.Gateway.Layout
import EthGateway.Proofs.Tester.Arguments

/-
# EthGateway.Proofs.Gateway.TesterBoundary -- every call that reaches the test backend

The layer that speaks the conventions of the test backend is the innermost one, so whatever the
layers in front of it send, the calls of a request and the look-ups of the default fields alike,
arrives through it. In front of it the gateway does what it does for a node that answers as this
backend does (`Backend.behind`); behind it every record is in the conventions of the backend, with
the integers of the quantities that were sent (`native_and_converted`).

A caller receives the handle of a filter or a snapshot as the test backend's number in the spelling
of the wire, and passes it on to another method later. What the backend is given then is the number
that it issued, digit for digit, also where that is no quantity: a fraction, a number below zero, or
one beyond 256 bits (`run_consumer_of_issued`).
-/

namespace EthGateway

namespace Tester

/-! ## One call -/

/-- A call in the conventions of the backend. -/
def NativeCall (c : Call) : Prop :=
  ∀ a ∈ recordArguments, c.method ∈ a.methods →
    ∀ arrived rest, c.params = .obj arrived :: rest → Native a arrived

/-- A call that arrives has the record of the call that was sent. -/
def ConvertedCall (sent arrived : Call) : Prop :=
  arrived.method = sent.method ∧
    ∀ a ∈ recordArguments, sent.method ∈ a.methods → ∀ r rest, sent.params = .obj r :: rest →
      ∃ s others, arrived.params = .obj s :: others ∧ Converted a r s

theorem nativeCall_received (c : Call) : NativeCall (formatting.received c) := by
  obtain ⟨method, params⟩ := c
  intro a listed h arrived rest arrives
  have takes : method ∈ a.methods := h
  obtain ⟨f, others, found, serves⟩ := requests_of_mem_methods listed takes
  cases params with
  | nil =>
    rw [Formatting.params_received found] at arrives
    cases arrives
  | cons v behind =>
    have first : (f.apply v).value = .obj arrived := by
      rw [Formatting.params_received found, Formatter.applyArgs] at arrives
      exact (List.cons.inj arrives).1
    cases record : v.isRecord with
    | false =>
      -- What is no record stays as it is, so no record arrives.
      rw [serves.other v record] at first
      rw [first] at record
      cases record
    | true =>
      cases v with
      | obj sent =>
        obtain ⟨s, value, -, native⟩ := serves.record sent
        rw [value] at first
        exact Json.obj.inj first ▸ native
      | _ => cases record

theorem convertedCall_received (c : Call) : ConvertedCall c (formatting.received c) := by
  obtain ⟨method, params⟩ := c
  refine ⟨rfl, ?_⟩
  rintro a listed h r rest rfl
  obtain ⟨f, others, found, serves⟩ := requests_of_mem_methods listed h
  obtain ⟨s, value, converted, -⟩ := serves.record r
  refine ⟨s, (Formatter.applyArgs others rest).value, ?_, converted⟩
  rw [Formatting.params_received found, Formatter.applyArgs, Noted.value_bind, Noted.value_map,
    value]

end Tester

/-! ## A whole run -/

namespace Server

/-- Every call that reaches the test backend is in its conventions, and arrives as a call that the
gateway sends to a node that answers alike. -/
theorem native_and_converted (config : Config) (tester : config.dialect = .tester)
    (catalog : Catalog) (c : Call) (backend : Backend) (earlier : List Call) :
    let arrived := ((pipeline config catalog c).run backend earlier).calls
    let sent := ((pipeline (asNode config) catalog c).run
      (backend.behind Tester.formatting earlier) []).calls
    (∀ d ∈ arrived, Tester.NativeCall d) ∧ List.Forall₂ Tester.ConvertedCall sent arrived := by
  intro arrived sent
  have through : arrived = sent.map Tester.formatting.received := by
    have runs := Layer.run_through_formatting Tester.formatting backend earlier []
      (pipeline (asNode config) catalog c)
    rw [List.map_nil, List.append_nil] at runs
    show ((pipeline config catalog c).run backend earlier).calls = _
    rw [pipeline_tester config catalog tester]
    exact runs.1
  rw [through]
  refine ⟨?_, ?_⟩
  · intro d hd
    obtain ⟨e, _, rfl⟩ := List.mem_map.1 hd
    exact Tester.nativeCall_received e
  · rw [List.forall₂_map_right_iff, List.forall₂_same]
    intro d _
    exact Tester.convertedCall_received d

/-- The look-up of the gas limit arrives in the backend's conventions like the call itself, and so
does the limit that comes of it. -/
theorem native_and_converted_call :
    let config : Config := { Config.standard with dialect := .tester }
    let c : Call :=
      ⟨"eth_call", [.obj [("from", .bool true), ("gasPrice", .str "0x10"), ("nonce", .str "0x1")]]⟩
    let backend := Backend.ofScript [("eth_estimateGas", .ok (.ofNat 21000))]
    let arrived := ((pipeline config Catalog.empty c).run backend []).calls
    let sent := ((pipeline (asNode config) Catalog.empty c).run
      (backend.behind Tester.formatting []) []).calls
    config.dialect = .tester ∧
      ((∀ d ∈ arrived, Tester.NativeCall d) ∧ List.Forall₂ Tester.ConvertedCall sent arrived) ∧
      arrived =
        [⟨"eth_estimateGas", [.obj [("from", .bool true), ("gas_price", .ofNat 16)]]⟩,
          ⟨"eth_call",
            [.obj [("from", .bool true), ("gas", .ofNat 42000), ("gas_price", .ofNat 16)]]⟩] :=
  ⟨rfl, native_and_converted { Config.standard with dialect := .tester } rfl _ _ _ [],
    by decide +kernel⟩

end Server

/-! ## Handles -/

namespace Server

open Tester

/-- Neither method has a deprecated name or a transaction to be filled. -/
theorem plain_of_handle {method : String} (h : method ∈ issuers ∨ method ∈ consumers) :
    Alias.resolve? Alias.standard method = none ∧ method ∉ DefaultFields.senderMethods := by
  have plain : ∀ m ∈ issuers ++ consumers,
      Alias.resolve? Alias.standard m = none ∧ m ∉ DefaultFields.senderMethods := by decide
  exact plain method (List.mem_append.2 h)

theorem received_of_no_schema {catalog : Catalog} {method : String}
    (noSchema : catalog.lookup method = none) (chain : Chain) (params : List Json) :
    (Formatting.ofCatalog catalog chain).received ⟨method, params⟩ = ⟨method, params⟩ := by
  rw [Formatting.received, Formatting.formatRequest_ofCatalog, noSchema]
  rfl

/-- A request for a handle is one call to the backend. If its answer is a number, the caller gets a
handle for which any later request is one call with this number and with the further arguments as
they are, provided the catalog has no schema for the method of that request. -/
theorem run_consumer_of_issued (config : Config) (tester : config.dialect = .tester)
    (catalog : Catalog) {issuer consumer : String} (issues : issuer ∈ issuers)
    (consumes : consumer ∈ consumers) (noSchema : catalog.lookup consumer = none)
    (params rest : List Json) (backend backend' : Backend) (earlier later : List Call) :
    let issued := (pipeline config catalog ⟨issuer, params⟩).run backend earlier
    ∃ d, issued.calls = [d] ∧ d.method = issuer ∧
      ∀ n : Numeral, (backend earlier d).value = .ok (.num n) →
        ∃ handle, issued.result = .ok handle ∧
          ((pipeline config catalog ⟨consumer, handle :: rest⟩).run backend' later).calls
            = [⟨consumer, .num n :: rest⟩] := by
  obtain ⟨issuerName, issuerPlain⟩ := plain_of_handle (.inl issues)
  obtain ⟨consumerName, consumerPlain⟩ := plain_of_handle (.inr consumes)
  dsimp only
  rw [pipeline_of_plain config catalog issuerName issuerPlain]
  obtain ⟨contacts, result⟩ :=
    run_inside_tester config catalog tester ⟨issuer, params⟩ backend earlier
  refine ⟨arrival catalog ⟨issuer, params⟩, ?_, rfl, ?_⟩
  · rw [Outcome.calls, contacts]
    rfl
  · intro n answer
    rw [answer, Formatting.answered, formatResult_of_issuer issues] at result
    refine ⟨(Json.num n).integerToHex, result, ?_⟩
    -- The handle passes the catalog as it is, and the backend's layer undoes its own work.
    have arrives : arrival catalog ⟨consumer, (Json.num n).integerToHex :: rest⟩
        = ⟨consumer, .num n :: rest⟩ := by
      rw [arrival, received_of_no_schema noSchema, received_of_consumer consumes,
        hexToInteger_integerToHex_num]
    have second := run_inside_tester config catalog tester
      ⟨consumer, (Json.num n).integerToHex :: rest⟩ backend' later
    rw [pipeline_of_plain config catalog consumerName consumerPlain, Outcome.calls, second.1,
      arrives]
    rfl

/-- A snapshot whose number is beyond 256 bits comes back too, and what else the caller passes comes
with it. -/
theorem run_consumer_of_issued_snapshot :
    let config : Config := { Config.standard with dialect := .tester }
    let backend : Backend := fun _ _ => pure (.ok (.ofNat (2 ^ 256)))
    let issued := (pipeline config Catalog.empty ⟨"evm_snapshot", []⟩).run backend []
    config.dialect = .tester ∧ "evm_snapshot" ∈ issuers ∧ "evm_revert" ∈ consumers ∧
      Catalog.empty.lookup "evm_revert" = none ∧
      ∃ handle, issued.result = .ok handle ∧
        ((pipeline config Catalog.empty ⟨"evm_revert", [handle, .bool true]⟩).run
          backend issued.calls).calls = [⟨"evm_revert", [.ofNat (2 ^ 256), .bool true]⟩] := by
  intro config backend issued
  obtain ⟨d, -, -, comesBack⟩ := run_consumer_of_issued config rfl Catalog.empty
    (show "evm_snapshot" ∈ issuers by decide) (show "evm_revert" ∈ consumers by decide) rfl
    [] [.bool true] backend backend [] issued.calls
  exact ⟨rfl, by decide, by decide, rfl, comesBack _ rfl⟩

end Server

end EthGateway
