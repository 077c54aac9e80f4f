import EthGateway.Proofs.Config.Settings
import EthGateway.Proofs.Gateway.Spelling
import EthGateway.Proofs.Pipeline.Protocol
import EthGateway.Proofs.Pipeline.Run
import Mathlib.Data.Nat.Basic
import Mathlib.Order.Monotone.Defs

/-
# EthGateway.Proofs.Gateway.GasLimit -- the gas limit that reaches the backend

The gas limit of an `eth_call` without one is the estimate of the backend, times the multiplier of
the environment, or the largest quantity if that is less. It reaches a node as canonical text and a
test backend as an integer (`gasLimit_arrives`). Since no multiplier is zero, the limit is never
below the estimate; since the product is cut off and not reduced, it never falls where the estimate
rises.

The limit is made in front of the formattings and read behind them. The estimate comes through them
as it is (`formatResults_estimate`), and each spells the limit as its backend has it
(`gas_formatRequests`).
-/

namespace EthGateway

open DefaultFields (Answered Estimated FilledIn Missing resend)

/-! ## Quantities -/

/-- The value is the quantity, spelled as an integer or as text, or is read as it all the same. -/
def Json.Says (v : Json) (q : Quantity) : Prop :=
  Quantity.Denotes v q.val ∨ Quantity.ofJson? v = some q

theorem Json.Says.ofJson? {v : Json} {q : Quantity} (h : v.Says q) : Quantity.ofJson? v = some q :=
  h.elim Quantity.Denotes.ofJson? id

/-- The multiple of a number, or the largest quantity if that is less. -/
def saturated (multiplier n : Nat) : Nat := min (multiplier * n) (2 ^ 256 - 1)

theorem val_limit (policy : GasPolicy) (q : Quantity) :
    (policy.limit q).val = saturated policy.multiplier q.val := by
  rw [saturated, Nat.mul_comm]
  rfl

theorem monotone_saturated (multiplier : Nat) : Monotone (saturated multiplier) := by
  intro n n' h
  have scaled : multiplier * n ≤ multiplier * n' := Nat.mul_le_mul_left multiplier h
  simp only [saturated]
  omega

theorem le_saturated {multiplier : Nat} (positive : 0 < multiplier) (q : Quantity) :
    q.val ≤ saturated multiplier q.val := by
  have scaled : q.val ≤ multiplier * q.val := Nat.le_mul_of_pos_left q.val positive
  have small : q.val < 2 ^ 256 := q.isLt
  simp only [saturated]
  omega

/-- The spelling that the backend of a dialect has for a number: canonical text for a node, and the
digits of an integer for a test backend. -/
def SpelledFor : Dialect → Json → Nat → Prop
  | .node, v, n => ∃ s, v = .str s ∧ Quantity.Canonical s ∧ Quantity.Spells v n
  | .tester, v, n => v = .ofNat n ∧ v.compress = Nat.repr n

theorem Json.compress_ofNat (n : Nat) : (Json.ofNat n).compress = Nat.repr n := by
  simp [compress, ofNat, chars, Numeral.chars, Numeral.ofNat, Numeral.fractionText,
    Numeral.exponentText, Nat.repr]

/-! ## Through the formattings -/

namespace Server

open Formatting (formatRequests formatResults)

section Formattings

variable (config : Config) {catalog : Catalog}

/-- No backend's estimates are respelt. -/
theorem formatResults_estimate (v : Json) :
    formatResults (conventions config catalog) "eth_estimateGas" v = v := by
  unfold conventions
  split <;> rfl

/-- A limit that was filled in arrives in the spelling of the backend. -/
theorem gas_formatRequests (loadable : catalog.Loadable) {t : Record Json}
    (ordered : Record.Ordered t) {q : Quantity}
    (limit : Record.get? t "gas" = some (.str q.encode)) (rest : List Json) :
    ∃ arrived others v,
      formatRequests (conventions config catalog) "eth_call" (.obj t :: rest)
        = .obj arrived :: others ∧
      Record.get? arrived "gas" = some v ∧ SpelledFor config.dialect v q.val := by
  have sender : "eth_call" ∈ DefaultFields.senderMethods := by decide
  have received :
      ((Formatting.ofCatalog catalog .request).formatRequest "eth_call" (.obj t :: rest)).value
        = .obj (Formatter.applyFields transactionFormatters t).value :: rest := by
    rw [formatRequest_transaction loadable sender, Noted.value_map]
  have normalized := get?_normalized (by decide) limit
  unfold conventions
  cases config.dialect with
  | node =>
    refine ⟨_, rest, .str q.encode, received, normalized, ?_⟩
    exact ⟨q.encode, rfl, Quantity.canonical_encode q, Quantity.spells_encode q⟩
  | tester =>
    obtain ⟨arrived, others, params, holds⟩ := Tester.holdsIntegers_received
      (ordered_normalized ordered) (mem_methods_of_sender sender) rest
    refine ⟨arrived, others, .ofNat q.val, ?_, ?_, rfl, Json.compress_ofNat q.val⟩
    · rw [← params, ← received]
      rfl
    · exact holds ("gas", "gas") (by decide) (.str q.encode) q.val normalized
        (Quantity.spells_encode q) (.inl rfl)

end Formattings

/-! ## One run -/

/-- Every look-up is answered, and every estimate says the quantity. -/
def LookupsSucceed (contacts : List Contact) (q : Quantity) : Prop :=
  ∀ k ∈ contacts, k.call.method ≠ "eth_call" →
    ∃ v, k.answer = .ok v ∧ (k.call.method = "eth_estimateGas" → v.Says q)

/-- Look-ups succeed in every run against a backend that answers all of them. -/
theorem lookupsSucceed_run {backend : Backend} {q : Quantity}
    (answers : ∀ earlier c, c.method ≠ "eth_call" →
      ∃ v, (backend earlier c).value = .ok v ∧ (c.method = "eth_estimateGas" → v.Says q))
    {α : Type} (x : Exchange α) (earlier : List Call) :
    LookupsSucceed (x.run backend earlier).contacts q := by
  intro k made other
  obtain ⟨before, after, contacts⟩ := List.append_of_mem made
  rw [Exchange.answer_of_contacts backend earlier contacts]
  exact answers _ k.call other

/-- The last contact, and the only one of its name, is an `eth_call` with this gas limit. -/
def CallBringsGas (dialect : Dialect) (contacts : List Contact) (gas : Nat) : Prop :=
  ∃ lookups arrived others answer v,
    contacts = lookups ++ [⟨⟨"eth_call", .obj arrived :: others⟩, answer⟩] ∧
    (∀ k ∈ lookups, k.call.method ≠ "eth_call") ∧
    Record.get? arrived "gas" = some v ∧ SpelledFor dialect v gas

section Run

variable (config : Config) {catalog : Catalog}

/-- In front of the formattings the look-ups succeed as they do behind them. -/
theorem LookupsSucceed.carried {contacts : List Contact} {q : Quantity}
    (succeed : LookupsSucceed contacts q) {k arrived : Contact} (made : arrived ∈ contacts)
    (carried : Formatting.Carried (conventions config catalog) k arrived)
    (other : k.call.method ≠ "eth_call") :
    ∃ v, k.answer = .ok v ∧
      (k.call.method = "eth_estimateGas" → Quantity.ofJson? v = some q) := by
  obtain ⟨v, answer, told⟩ := succeed arrived made (carried.method ▸ other)
  refine ⟨formatResults (conventions config catalog) k.call.method v, ?_, ?_⟩
  · rw [carried.answer, answer]
    rfl
  · intro estimate
    rw [estimate, formatResults_estimate]
    exact (told (carried.method.trans estimate)).ofJson?

variable (catalog) in
/-- A request with a transaction is a transmission, each contact of which the formattings carry out
by one of the backend. -/
theorem transmission_carried (filling : config.fillDefaultFields = true) {c : Call}
    {t : Record Json} {rest : List Json}
    (brought : DefaultFields.transaction? c = some (t, rest)) (backend : Backend)
    (earlier : List Call) :
    ∃ seen result,
      DefaultFields.Transmission config.gasPolicy c.method t rest seen result ∧
      List.Forall₂ (Formatting.Carried (conventions config catalog)) seen
        ((pipeline config catalog c).run backend earlier).contacts := by
  have direct : Alias.resolve? Alias.standard c.method = none :=
    not_alias_of_sender (DefaultFields.transaction?_eq_some_iff.1 brought).1
  have whole : pipeline config catalog c
      = Layer.around (.defaultFields config.gasPolicy) (inside config catalog) c :=
    pipeline_of_filling config catalog filling direct c.params
  rw [whole]
  have transmission := DefaultFields.transmission_run
    (backend.seenThrough (inside config catalog) earlier) [] config.gasPolicy brought
  exact ⟨_, _, transmission, Formatting.carried_run _ _ backend earlier⟩

theorem callBringsGas_run (filling : config.fillDefaultFields = true)
    (loadable : catalog.Loadable) {t : Record Json} (ordered : Record.Ordered t)
    (missing : Missing t "gas") (rest : List Json) (backend : Backend) (earlier : List Call)
    {q : Quantity} :
    let o := (pipeline config catalog ⟨"eth_call", .obj t :: rest⟩).run backend earlier
    LookupsSucceed o.contacts q →
      CallBringsGas config.dialect o.contacts (saturated config.gasMultiplier q.val) := by
  intro o succeed
  have brought : DefaultFields.transaction? ⟨"eth_call", .obj t :: rest⟩ = some (t, rest) := rfl
  obtain ⟨seen, result, transmission, carried⟩ :=
    transmission_carried config catalog filling brought backend earlier
  have looked : ∀ k ∈ seen, k.call.method ≠ "eth_call" → ∃ v, k.answer = .ok v ∧
      (k.call.method = "eth_estimateGas" → Quantity.ofJson? v = some q) := by
    intro k hk other
    obtain ⟨arrived, made, relation⟩ := exists_related_of_mem carried hk
    exact succeed.carried config made relation other
  have answered : ∀ k ∈ seen, k.call.method ≠ "eth_call" →
      Answered k ∧ (k.call.method = "eth_estimateGas" → Estimated k) := by
    intro k hk other
    obtain ⟨v, answer, estimate⟩ := looked k hk other
    exact ⟨⟨v, answer⟩, fun asked => ⟨v, q, answer, estimate asked⟩⟩
  have sender : "eth_call" ∈ DefaultFields.senderMethods := by decide
  obtain ⟨lookups, u, contacts, others, filled⟩ := transmission.sent_of_answered sender answered
  obtain ⟨estimate, p, ⟨before, w, k, ends⟩, read, limit⟩ := filled.limit rfl missing
  -- The estimate that the limit is made of is the one that succeeded.
  obtain rfl : p = q := by
    obtain ⟨v, answer, told⟩ := looked ⟨⟨"eth_estimateGas", [.obj w]⟩, .ok estimate⟩
      (by simp [ends]) (by simp)
    obtain rfl := Except.ok.inj answer
    exact Option.some.inj (read.symm.trans (told rfl))
  rw [contacts] at carried
  obtain ⟨lookups', last, behind, relations, relation⟩ := exists_related_of_concat carried
  obtain ⟨arrived, behind', v, formatted, gas, spelled⟩ :=
    gas_formatRequests config loadable (filled.ordered ordered) limit rest
  rw [val_limit] at spelled
  have call : last.call = ⟨"eth_call", .obj arrived :: behind'⟩ := by
    rw [relation.call, ← formatted]
    rfl
  refine ⟨lookups', arrived, behind', last.answer, v, ?_, ?_, gas, spelled⟩
  · rw [← call]
    exact behind
  · intro k' hk'
    obtain ⟨k, hk, same⟩ := exists_related_of_mem relations.flip hk'
    rw [same.method]
    exact others k hk

end Run

/-! ## From the environment to the backend -/

/-- With every environment that is accepted and fills default fields, and every catalog that can be
loaded, the gas limit that arrives is the estimate times the multiplier of the environment, cut off
at the largest quantity. It is not below the estimate, and it rises with the estimate. -/
theorem gasLimit_arrives {env : Environment} {config : Config} {files : Files} {catalog : Catalog}
    (accepted : Config.ofEnvironment env = .ok config) (filling : config.fillDefaultFields = true)
    (loaded : config.loadCatalog files = .ok catalog) :
    Config.setting env "GAS_ESTIMATE_MULTIPLIER" Config.readMultiplier
        GasPolicy.standard.multiplier = .ok config.gasMultiplier ∧
      Monotone (saturated config.gasMultiplier) ∧
      (∀ q : Quantity, q.val ≤ saturated config.gasMultiplier q.val) ∧
      ∀ (t : Record Json) (rest : List Json) (backend : Backend) (earlier : List Call)
        (q : Quantity),
        let o := (pipeline config catalog ⟨"eth_call", .obj t :: rest⟩).run backend earlier
        Record.Ordered t → Missing t "gas" → LookupsSucceed o.contacts q →
          CallBringsGas config.dialect o.contacts (saturated config.gasMultiplier q.val) := by
  have settings := Config.ofEnvironment_eq_ok_iff.1 accepted
  refine ⟨settings.gasMultiplier, monotone_saturated _, le_saturated settings.positive, ?_⟩
  intro t rest backend earlier q o ordered missing succeed
  exact callBringsGas_run config filling (Catalog.loadable_of_loadCatalog loaded) ordered missing
    rest backend earlier succeed

/-- Three times the estimate is no quantity any more, so the largest one arrives. -/
theorem gasLimit_arrives_saturated :
    let env : Environment := Record.get? [("BACKEND_DIALECT", "Tester"),
      ("GAS_ESTIMATE_MULTIPLIER", "+3")]
    let config : Config := { Config.standard with dialect := .tester, gasMultiplier := 3 }
    let t : Record Json := [("from", .str "0x1"), ("gas", .null)]
    let backend : Backend := fun _ c =>
      pure (.ok (if c.method = "eth_estimateGas" then .ofNat (2 ^ 255) else .null))
    let o := (pipeline config Catalog.standard ⟨"eth_call", [.obj t, .str "latest"]⟩).run backend []
    Config.ofEnvironment env = .ok config ∧ config.fillDefaultFields = true ∧
      config.loadCatalog (fun _ => none) = .ok Catalog.standard ∧ Record.Ordered t ∧
      Missing t "gas" ∧ LookupsSucceed o.contacts ⟨2 ^ 255, by decide⟩ ∧
      CallBringsGas .tester o.contacts (2 ^ 256 - 1) := by
  intro env config t backend o
  have accepted : Config.ofEnvironment env = .ok config := by decide +kernel
  have ordered : Record.Ordered t := show List.Pairwise _ _ by decide +kernel
  have missing : Missing t "gas" := .inr rfl
  have succeed : LookupsSucceed o.contacts ⟨2 ^ 255, by decide⟩ := by
    refine lookupsSucceed_run ?_ _ []
    intro earlier c _
    refine ⟨_, rfl, ?_⟩
    intro estimate
    rw [if_pos estimate]
    exact .inl (.inl ⟨rfl, by decide⟩)
  have cutOff : saturated 3 (2 ^ 255) = 2 ^ 256 - 1 := by decide
  have loaded : config.loadCatalog (fun _ => none) = .ok Catalog.standard := rfl
  obtain ⟨-, -, -, arrives⟩ := gasLimit_arrives accepted rfl loaded
  refine ⟨accepted, rfl, loaded, ordered, missing, succeed, ?_⟩
  rw [← cutOff]
  exact arrives t [.str "latest"] backend [] _ ordered missing succeed

end Server

end EthGateway
