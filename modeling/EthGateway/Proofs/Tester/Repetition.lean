import EthGateway.Proofs.Formatter.Settling
import EthGateway.Proofs.Pipeline.Repetition
import EthGateway.Proofs.Tester.Arguments
import EthGateway.Proofs.Tester.Results

/-
# EthGateway.Proofs.Tester.Repetition -- the conventions of the test backend, applied twice

Every formatter of the test backend settles. Its tables have no name on both sides, a quantity
becomes a value that is none, and what is left of a converted record when the nonce is taken away is
converted already (`rests_of_sublist_converted`). In a result the fields that are formatted get their
names from no other field. Arguments and results that are in the conventions of their side are
therefore given on as they are, and two layers of the formatting, one directly around the other, do
what one does (`repeatable_formatting`).
-/

namespace EthGateway

/-- A formatting is settled if all the formatters of its tables settle. -/
theorem Formatting.settled_of_settles {f : Formatting}
    (requests : ∀ e ∈ f.requests, ∃ fs, e.2 = .args fs ∧ ∀ g ∈ fs, g.Settles)
    (results : ∀ e ∈ f.results, e.2.Settles) : f.Settled := by
  refine ⟨?_, ?_⟩
  · intro method params
    unfold formatRequest
    cases found : Record.get? f.requests method with
    | none => rfl
    | some formatter =>
      obtain ⟨fs, rfl, settle⟩ := requests (method, formatter) (Record.mem_of_get?_eq_some found)
      exact Json.arr.inj (Formatter.settles_args settle (.arr params))
  · intro method v
    unfold formatResult
    cases found : Record.get? f.results method with
    | none => rfl
    | some formatter =>
      exact results (method, formatter) (Record.mem_of_get?_eq_some found) v

namespace Tester

open Formatter (Rests Settles settles_identity settles_hexToInteger settles_integerToHex
  settles_emptyToNull)

/-! ## Arguments -/

theorem settles_integerIfHex : Settles .integerIfHex := settles_hexToInteger.when .isHexString

theorem settles_blockNumberOrName : Settles .blockNumberOrName :=
  settles_integerIfHex.when .isNotNamedBlock

section

variable {table : RenameTable} {integers : List String} (distinct : integers.Nodup)
include distinct

theorem ordered_converted (r : Record Json) : Record.Ordered (converted table integers r) := by
  have keys : (Record.keys (converted table integers r)).Pairwise (· < ·) := by
    rw [keys_converted distinct]
    exact List.pairwise_map.2 (table.ordered_renameMembers .toInternal r)
  exact List.pairwise_map.1 keys

/-- Whatever is left of a converted record is converted already. -/
theorem rests_of_sublist_converted (apart : table.Apart) {r s : Record Json}
    (part : s.Sublist (converted table integers r)) :
    Rests (.rename table .toInternal) (.obj s) ∧ Rests (integerFields integers) (.obj s) := by
  refine ⟨?_, ?_⟩
  · have renamed : ∀ key ∈ Record.keys s,
        key ∈ Record.keys (table.renameMembers .toInternal r) := by
      intro key hkey
      rw [← keys_converted distinct]
      exact (part.map Prod.fst).subset hkey
    exact Formatter.rests_rename apart .toInternal ((ordered_converted distinct r).sublist part)
      renamed
  · refine Formatter.rests_fields ((keys_integerFormatters integers).symm ▸ distinct) ?_
    intro m hm
    have whole := part.subset hm
    rw [converted_eq_map distinct] at whole
    obtain ⟨l, -, rfl⟩ := List.mem_map.1 whole
    refine Formatter.value_onField_onField (fun e he => ?_) l.1 l.2
    obtain ⟨n, -, rfl⟩ := List.mem_map.1 he
    exact settles_integerIfHex

end

theorem settles_filterArgument : Settles filterArgument := by
  intro v
  cases v with
  | obj r =>
    have distinct : filterRecord.integers.Nodup := by decide
    have apart : filterParams.Apart := by unfold RenameTable.Apart; decide
    obtain ⟨names, integers⟩ := rests_of_sublist_converted distinct apart
      (List.Sublist.refl (converted filterParams filterRecord.integers r))
    refine Formatter.rests_steps (List.forall_mem_cons.2 ⟨names, ?_⟩)
    exact List.forall_mem_singleton.2 integers
  | _ => rfl

theorem settles_transactionArgument : Settles transactionArgument := by
  intro v
  cases v with
  | obj r =>
    have distinct : transactionRecord.integers.Nodup := by decide
    have apart : transactionParams.Apart := by unfold RenameTable.Apart; decide
    let arrived := Record.erase (converted transactionParams transactionRecord.integers r) "nonce"
    obtain ⟨names, integers⟩ := rests_of_sublist_converted distinct apart
      (List.filter_sublist : arrived.Sublist _)
    have nonce : Rests (.removeKey "nonce") (.obj arrived) := by
      refine Formatter.rests_removeKey ?_
      intro present
      exact (Record.mem_keys_erase.1 present).2 rfl
    refine Formatter.rests_steps (List.forall_mem_cons.2 ⟨names, ?_⟩)
    exact List.forall_mem_cons.2 ⟨integers, List.forall_mem_singleton.2 nonce⟩
  | _ => rfl

theorem settles_requests : ∀ e ∈ requests, ∃ fs, e.2 = .args fs ∧ ∀ f ∈ fs, f.Settles := by
  refine FormatterTable.forall_mem_ofList
    (P := fun f => ∃ fs, f = .args fs ∧ ∀ g ∈ fs, g.Settles) ?_
  simp only [List.forall_mem_cons, List.not_mem_nil, false_imp_iff, implies_true, and_true,
    Formatter.args.injEq, exists_eq_left', settles_identity, settles_hexToInteger,
    settles_integerIfHex, settles_blockNumberOrName, settles_filterArgument,
    settles_transactionArgument]

/-! ## Results -/

theorem settles_renamed {table : RenameTable} (apart : table.Apart) : Settles (renamed table) :=
  (Formatter.settles_rename apart .toWire).when .isRecord

theorem settles_logs : Settles Tester.logs :=
  (Formatter.settles_rename apart_log .toWire).each.when .isListOfRecords

/-- One field is formatted before all are renamed, and no other field gets its name. -/
theorem settles_field_renamed {field : String} {f : Formatter} {table : RenameTable}
    (settle : f.Settles) (apart : table.Apart) (unnamed : field ∉ table.pairs.map Prod.snd) :
    Settles
      ((Formatter.steps [.fields [(field, f)], .rename table .toWire]).gated .isRecord) := by
  refine (Formatter.settles_fields_rename ?_ ?_ apart .toWire ?_).when .isRecord
  · exact List.nodup_singleton field
  · exact List.forall_mem_singleton.2 settle
  · exact List.forall_mem_singleton.2 unnamed

theorem settles_transactionResult : Settles transactionResult :=
  settles_field_renamed settles_emptyToNull (by unfold RenameTable.Apart; decide) (by decide)

theorem settles_receiptResult : Settles receiptResult :=
  settles_field_renamed (Formatter.settles_rename apart_log .toWire).each
    (by unfold RenameTable.Apart; decide) (by decide)

theorem settles_results : ∀ e ∈ results, e.2.Settles := by
  have block : Settles (renamed block) := settles_renamed (by unfold RenameTable.Apart; decide)
  have transaction : Settles (renamed transaction) :=
    settles_renamed (by unfold RenameTable.Apart; decide)
  refine FormatterTable.forall_mem_ofList ?_
  simp only [List.forall_mem_cons, List.not_mem_nil, false_imp_iff, implies_true, and_true, block,
    transaction, settles_transactionResult, settles_receiptResult, settles_integerToHex,
    settles_logs]

/-! ## Both ways -/

/-- The formatting of the test backend does no more if it is done twice: neither to arguments and
results, nor as two layers in the place of one, wherever they stand in a stack. -/
theorem repeatable_formatting : formatting.Repeatable :=
  (Formatting.settled_of_settles (f := formatting) settles_requests settles_results).repeatable

end Tester

end EthGateway
