import EthGateway.Proofs.Pipeline.Run
import EthGateway.Proofs.Tester.Arguments

/-
# EthGateway.Proofs.Tester.Spelling -- transactions with their quantities spelt in different ways

Two transactions may differ in how the numbers in their quantity fields are spelt (`Agree`). If all
of these are in the spelling of the wire, in whatever letter case and with whatever leading zeros,
the test backend is given one and the same transaction for both (`formatRequest_of_agree`), which
holds the integers of these numbers under the backend's names (`holdsIntegers_received`).
-/

namespace EthGateway.Tester

open Quantity (Spells Denotes)

/-- The fields of a transaction that hold quantities, each with its name in the backend. -/
def quantityFields : List (String × String) :=
  [("gas", "gas"), ("gasPrice", "gas_price"), ("value", "value")]

/-- Two values of a field are the same, or the field holds a quantity and both are one number. -/
def Agree (number : Json → Nat → Prop) (key : String) (v w : Json) : Prop :=
  v = w ∨ key ∈ quantityFields.map Prod.fst ∧ ∃ n, number v n ∧ number w n

/-! ## The same transaction arrives -/

theorem apply_integerIfHex_of_spells {v : Json} {n : Nat} (h : Spells v n) :
    Formatter.apply .integerIfHex v = pure (.ofNat n) := by
  ext1
  · exact (Quantity.respelled_integerIfHex v).quantity n h
  · have hex : Condition.isHexString.holds v = true := (Quantity.spells_iff.1 h).1
    rw [Formatter.integerIfHex, Formatter.apply, if_pos hex]
    rfl

/-- The backend's names of the quantity fields are those of its integers. -/
theorem target_mem_integers {key : String} (h : key ∈ quantityFields.map Prod.fst) :
    transactionParams.target .toInternal key ∈ transactionRecord.integers := by
  revert key
  decide

theorem nodup_integerFormatters :
    (Record.keys (integerFormatters transactionRecord.integers)).Nodup := by
  rw [keys_integerFormatters]
  decide

/-- Behind the new names, the formatters of the integers cannot tell two such transactions apart. -/
theorem alike_renameMembers {t u : Record Json} (h : Record.Related (Agree Spells) t u) :
    Formatter.Alike (integerFormatters transactionRecord.integers)
      (transactionParams.renameMembers .toInternal t)
      (transactionParams.renameMembers .toInternal u) := by
  refine RenameTable.related_renameMembers
    (S := fun key v w => Formatter.onField (integerFormatters transactionRecord.integers) key v
      = Formatter.onField (integerFormatters transactionRecord.integers) key w) h ?_
  intro key v w agree
  rcases agree with rfl | ⟨quantity, n, hv, hw⟩
  · rfl
  · have listed : (transactionParams.target .toInternal key, Formatter.integerIfHex)
        ∈ integerFormatters transactionRecord.integers :=
      List.mem_map_of_mem (target_mem_integers quantity)
    rw [Formatter.onField_of_mem nodup_integerFormatters listed,
      Formatter.onField_of_mem nodup_integerFormatters listed, apply_integerIfHex_of_spells hv,
      apply_integerIfHex_of_spells hw]

/-- A transaction is renamed, respelt, and relieved of its nonce. -/
theorem apply_transactionArgument (t : Record Json) :
    transactionArgument.apply (.obj t) =
      (fun s => .obj (Record.erase s "nonce")) <$>
        Formatter.applyFields (integerFormatters transactionRecord.integers)
          (transactionParams.renameMembers .toInternal t) := by
  have last : ∀ v, Formatter.applySteps [.removeKey "nonce"] v
      = pure (Formatter.dropKey "nonce" v) := fun _ => rfl
  rw [transactionArgument, Formatter.apply, Formatter.applySteps, Formatter.apply, pure_bind,
    Formatter.applySteps, integerFields, RenameTable.rename, Formatter.apply, bind_map_left]
  simp only [last]
  exact bind_pure_comp _ _

theorem formatRequest_of_agree {t u : Record Json} (h : Record.Related (Agree Spells) t u)
    {method : String} (takes : method ∈ transactionRecord.methods) (rest : List Json) :
    formatting.formatRequest method (.obj t :: rest) =
      formatting.formatRequest method (.obj u :: rest) := by
  have same : transactionArgument.apply (.obj t) = transactionArgument.apply (.obj u) := by
    rw [apply_transactionArgument, apply_transactionArgument,
      Formatter.applyFields_congr nodup_integerFormatters (alike_renameMembers h)]
  obtain ⟨others, found⟩ := requests_transaction takes
  -- The arguments behind the transaction are the same anyway.
  rw [Formatting.formatRequest, Formatting.formatRequest, found]
  dsimp only
  rw [Formatter.apply, Formatter.apply, Formatter.applyArgs, Formatter.applyArgs, same]

/-! ## It holds the integers -/

/-- What arrives has the quantities of a transaction as integers, each under its name in the backend,
unless the transaction has another field of this name. -/
def HoldsIntegers (number : Json → Nat → Prop) (t arrived : Record Json) : Prop :=
  ∀ f ∈ quantityFields, ∀ v n, Record.get? t f.1 = some v → number v n →
    f.2 = f.1 ∨ f.2 ∉ Record.keys t → Record.get? arrived f.2 = some (.ofNat n)

/-- Only a quantity field and the field with its name in the backend arrive under this name. -/
theorem eq_or_eq_of_target {f : String × String} (quantity : f ∈ quantityFields) {key : String}
    (h : transactionParams.target .toInternal key = f.2) : key = f.1 ∨ key = f.2 := by
  by_cases price : key ∈ transactionParams.pairs.map (RenameTable.source .toInternal)
  · left
    obtain rfl : key = "gasPrice" := List.mem_singleton.1 price
    revert f
    decide
  · right
    rwa [RenameTable.target_of_not_source .toInternal price] at h

/-- A transaction in the spelling of the wire arrives with its quantities as integers. -/
theorem holdsIntegers_received {t : Record Json} (ordered : Record.Ordered t) {method : String}
    (takes : method ∈ transactionRecord.methods) (rest : List Json) :
    ∃ arrived behind,
      (formatting.received ⟨method, .obj t :: rest⟩).params = .obj arrived :: behind ∧
        HoldsIntegers Spells t arrived := by
  obtain ⟨others, formatter⟩ := requests_transaction takes
  obtain ⟨arrived, value, converted, -⟩ := serves_transactionArgument.record t
  have params := Formatting.params_received formatter (.obj t :: rest)
  rw [Formatter.applyArgs, Noted.value_bind, Noted.value_map, value] at params
  refine ⟨arrived, _, params, ?_⟩
  intro f quantity v n found spelled alone
  have names : ∀ f ∈ quantityFields, transactionParams.target .toInternal f.1 = f.2 ∧
      f.2 ∈ transactionRecord.integers := by decide
  obtain ⟨name, integer⟩ := names f quantity
  have sent : (f.1, v) ∈ t := Record.mem_of_get?_eq_some found
  have present : f.2 ∈ Record.keys arrived :=
    name ▸ converted.kept (f.1, v) sent (name.symm ▸ integer)
  cases there : Record.get? arrived f.2 with
  | none => exact absurd present (Record.get?_eq_none_iff.1 there)
  | some w =>
    -- What is there comes from a field with this name, and the quantity is the only one.
    obtain ⟨m, hm, same, respelled⟩ :=
      converted.fromSent (f.2, w) (Record.mem_of_get?_eq_some there) integer
    have distinct := Record.nodup_keys_of_ordered ordered
    have own : m.1 = f.1 := by
      rcases eq_or_eq_of_target quantity same with own | other
      · exact own
      · rcases alone with unmapped | absent
        · rw [other, unmapped]
        · exact absurd (other ▸ List.mem_map_of_mem hm) absent
    have value : Record.get? t f.1 = some m.2 := own ▸ Record.get?_of_mem distinct hm
    obtain rfl : v = m.2 := Option.some.inj (found.symm.trans value)
    exact congrArg some (respelled.quantity n spelled)

end EthGateway.Tester
