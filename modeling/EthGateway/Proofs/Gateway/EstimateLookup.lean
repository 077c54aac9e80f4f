import EthGateway.Proofs.Gateway.Layout

/-
# EthGateway.Proofs.Gateway.EstimateLookup -- the gas limit is looked up as a caller would do it

An `eth_call` without a gas limit makes the calls that `eth_estimateGas` makes for the same
transaction, in the same order and with the same answers, and goes on from there: it fails as the
estimate fails, it fails if the estimate is no quantity, and otherwise it makes one more call
(`goesOnFrom_estimate`). So the estimate passes the same layers as a caller's own, and none twice.

Both requests search for a sender first, in the same way, and then send an estimate with the sender
that was found (`pipeline_estimate`, `pipeline_call`). What one run adds to another that stops
earlier is said once for all conversations (`run_bind_extended`).
-/

namespace EthGateway

namespace Attempt

/-- Two runs of which the second goes on where the first is done: until then they do the same, and
an error of the first is the end of both. -/
theorem run_bind_extended {α β : Type} (x : Exchange (Except RpcError α))
    (f : α → Exchange (Except RpcError β)) (g : α → β → Exchange (Except RpcError β))
    (backend : Backend) (earlier : List Call) :
    let first := (x >>= orStop f).run backend earlier
    let second := (x >>= orStop fun a => f a >>= orStop (g a)).run backend earlier
    match first.result with
    | .error _ => second = first
    | .ok b => ∃ a, second = first.followedBy ((g a b).run backend (earlier ++ first.calls)) := by
  dsimp only
  rw [run_bind_orStop, run_bind_orStop]
  generalize x.run backend earlier = o
  cases o.result with
  | error e => rfl
  | ok a =>
    dsimp only
    rw [run_bind_orStop, Outcome.result_followedBy]
    generalize (f a).run backend (earlier ++ o.calls) = p
    cases ended : p.result with
    | error e =>
      -- The second run stops with the same outcome, rebuilt from its parts.
      have same : (⟨p.contacts, p.notices, .error e⟩ : Outcome (Except RpcError β)) = p := by
        rw [← ended]
      dsimp only
      rw [same]
    | ok b =>
      refine ⟨a, ?_⟩
      rw [Outcome.followedBy_assoc, Outcome.calls_followedBy, List.append_assoc]

end Attempt

namespace DefaultFields

open Attempt (against orStop)

/-- A sender that is filled in does not touch the gas limit. -/
theorem fillSender_orStop_congr {α : Type} (inner : Layer) (t : Record Json)
    {f g : Record Json → Exchange (Except RpcError α)}
    (h : ∀ u, isMissing u "gas" = isMissing t "gas" → f u = g u) :
    (against inner (fillSender t) >>= orStop f) = (against inner (fillSender t) >>= orStop g) := by
  rw [against_fillSender_orStop, against_fillSender_orStop]
  split
  · refine Attempt.bind_orStop_congr fun sender => h _ ?_
    exact isMissing_insert_of_ne (by decide) t sender
  · exact h t rfl

end DefaultFields

namespace Server

open Attempt (against orStop)
open DefaultFields (fillSender gasOfEstimate isMissing resend)

/-! ## The two requests against the layers inside -/

section Requests

variable (config : Config) (filling : config.fillDefaultFields = true) (catalog : Catalog)
include filling

theorem pipeline_filling {method : String} (notAlias : Alias.resolve? Alias.standard method = none)
    (sender : method ∈ DefaultFields.senderMethods) (t : Record Json) (rest : List Json) :
    pipeline config catalog ⟨method, .obj t :: rest⟩ =
      (against (inside config catalog) (fillSender t) >>= orStop fun u =>
        against (inside config catalog) (DefaultFields.fillGas config.gasPolicy method u) >>=
          orStop fun u => inside config catalog (resend method rest u)) := by
  have brought : DefaultFields.transaction? ⟨method, .obj t :: rest⟩ = some (t, rest) :=
    DefaultFields.transaction?_eq_some_iff.2 ⟨sender, rfl⟩
  rw [pipeline_of_filling config catalog filling notAlias, Layer.around_defaultFields, brought]
  exact DefaultFields.against_fill_orStop _ config.gasPolicy method t _

theorem pipeline_estimate (t : Record Json) :
    pipeline config catalog ⟨"eth_estimateGas", [.obj t]⟩ =
      (against (inside config catalog) (fillSender t) >>= orStop fun u =>
        inside config catalog ⟨"eth_estimateGas", [.obj u]⟩) := by
  rw [pipeline_filling config filling catalog (by decide) (by decide)]
  refine DefaultFields.fillSender_orStop_congr _ t fun u _ => ?_
  -- An estimate asks for no gas limit.
  exact DefaultFields.against_fillGas_orStop _ config.gasPolicy "eth_estimateGas" u _

theorem pipeline_call {t : Record Json} (missing : isMissing t "gas" = true) (rest : List Json) :
    pipeline config catalog ⟨"eth_call", .obj t :: rest⟩ =
      (against (inside config catalog) (fillSender t) >>= orStop fun u =>
        inside config catalog ⟨"eth_estimateGas", [.obj u]⟩ >>= orStop fun estimate =>
          orStop
            (fun gas => inside config catalog (resend "eth_call" rest (Record.insert u "gas" gas)))
            (gasOfEstimate config.gasPolicy estimate)) := by
  rw [pipeline_filling config filling catalog (by decide) (by decide)]
  refine DefaultFields.fillSender_orStop_congr _ t fun u same => ?_
  have asks : (DefaultFields.gasMethods.contains "eth_call" && isMissing u "gas") = true := by
    rw [same, missing]
    decide
  rw [DefaultFields.against_fillGas_orStop, if_pos asks]

end Requests

/-! ## One run goes on from the other -/

/-- A request does all that an estimate does, and goes on from the answer to it. -/
structure GoesOnFrom (estimate call : Outcome Answer) : Prop where
  calls : estimate.contacts <+: call.contacts
  failed : ∀ e, estimate.result = .error e →
    call.contacts = estimate.contacts ∧ call.result = .error e
  noQuantity : ∀ v, estimate.result = .ok v → Quantity.ofJson? v = none →
    call.contacts = estimate.contacts ∧
      call.result = .error (.invalidQuantity ("eth_estimateGas returned " ++ v.compress))
  quantity : ∀ v, estimate.result = .ok v → Quantity.ofJson? v ≠ none →
    ∃ k, call.contacts = estimate.contacts ++ [k] ∧ k.call.method = "eth_call"

/-- An `eth_call` without a gas limit goes on from the estimate that its caller could have asked
for, whatever stands behind the transaction. -/
theorem goesOnFrom_estimate (config : Config) (filling : config.fillDefaultFields = true)
    (catalog : Catalog) (t : Record Json)
    (missing : Record.get? t "gas" = none ∨ Record.get? t "gas" = some .null) (rest : List Json)
    (backend : Backend) (earlier : List Call) :
    GoesOnFrom
      ((pipeline config catalog ⟨"eth_estimateGas", [.obj t]⟩).run backend earlier)
      ((pipeline config catalog ⟨"eth_call", .obj t :: rest⟩).run backend earlier) := by
  rw [pipeline_estimate config filling catalog,
    pipeline_call config filling catalog (DefaultFields.isMissing_iff.2 missing)]
  have extended := Attempt.run_bind_extended
    (against (inside config catalog) (fillSender t))
    (fun u => inside config catalog ⟨"eth_estimateGas", [.obj u]⟩)
    (fun u estimate =>
      orStop (fun gas => inside config catalog (resend "eth_call" rest (Record.insert u "gas" gas)))
        (gasOfEstimate config.gasPolicy estimate)) backend earlier
  dsimp only at extended
  generalize Exchange.run backend earlier (against (inside config catalog) (fillSender t) >>=
    orStop fun u => inside config catalog ⟨"eth_estimateGas", [.obj u]⟩) = estimate at *
  cases result : estimate.result with
  | error e =>
    rw [result] at extended
    rw [extended]
    have noValue : ∀ v, estimate.result ≠ .ok v := by
      intro v ended
      rw [result] at ended
      cases ended
    refine ⟨List.prefix_refl _, ?_, ?_, ?_⟩
    · intro e' ended
      exact ⟨rfl, ended⟩
    · intro v ended
      exact absurd ended (noValue v)
    · intro v ended
      exact absurd ended (noValue v)
  | ok v =>
    rw [result] at extended
    obtain ⟨u, continued⟩ := extended
    rw [continued]
    refine ⟨List.prefix_append _ _, ?_, ?_, ?_⟩
    · intro e ended
      rw [result] at ended
      cases ended
    · intro v' ended noQuantity
      obtain rfl : v = v' := Except.ok.inj (result.symm.trans ended)
      simp only [gasOfEstimate, noQuantity, orStop, Exchange.run_done,
        Outcome.contacts_followedBy, Outcome.result_followedBy, List.append_nil, and_self]
    · intro v' ended isQuantity
      obtain rfl : v = v' := Except.ok.inj (result.symm.trans ended)
      obtain ⟨q, quantity⟩ := Option.ne_none_iff_exists'.1 isQuantity
      simp only [gasOfEstimate, quantity, orStop, Outcome.contacts_followedBy]
      have one := Layer.contacts_stack_formatting (conventions config catalog)
        (resend "eth_call" rest (Record.insert u "gas" (.str (config.gasPolicy.limit q).encode)))
        backend (earlier ++ estimate.calls)
      obtain ⟨k, contacts, method⟩ := one
      exact ⟨k, congrArg (estimate.contacts ++ ·) contacts, method⟩

/-- A gas limit of null counts as none, and the sender is looked up once, before the estimate. -/
theorem goesOnFrom_estimate_null_gas :
    let t : Record Json := [("gas", .null), ("value", .ofNat 10)]
    let backend := Backend.ofScript [("eth_estimateGas", .ok (.str "0x5208"))]
    let estimate :=
      (pipeline Config.standard Catalog.empty ⟨"eth_estimateGas", [.obj t]⟩).run backend []
    let call := (pipeline Config.standard Catalog.empty
      ⟨"eth_call", [.obj t, .str "latest"]⟩).run backend []
    Config.standard.fillDefaultFields = true ∧ Record.get? t "gas" = some .null ∧
      GoesOnFrom estimate call ∧
      call.calls.map Call.method
        = ["eth_coinbase", "eth_accounts", "eth_estimateGas", "eth_call"] :=
  ⟨rfl, rfl, goesOnFrom_estimate _ rfl _ _ (.inr rfl) [.str "latest"] _ [], by decide +kernel⟩

end Server

end EthGateway
