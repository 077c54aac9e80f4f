import EthGateway.Proofs.Normalization.Stability
import EthGateway.Proofs.Record.Lookup
import EthGateway.Tester

/-
# EthGateway.Proofs.Formatter.Notices -- what formatters report

A formatter reports what the normalizers inside it report and nothing else
(`Formatter.reports_apply`): chains, lists, records and formatters inside formatters pass on what is
reported inside them, and `Noted.Reports` is closed under each of these ways of putting things
together. Of the builtin normalizers only the one for bytes reports anything, bytes that are too many
for their kind (`Normalizer.reports_builtin`).
-/

namespace EthGateway

/-- A notice of bytes that are too many for their kind. -/
def Notice.IsOverlong (n : Notice) : Prop := ∃ kind length, n = .overlong kind length

namespace Noted

variable {α β : Type} {P : Notice → Prop}

/-- All the notices that a value gave rise to have a property. -/
def Reports (P : Notice → Prop) (x : Noted α) : Prop := ∀ n ∈ x.notices, P n

theorem reports_pure (a : α) : (pure a : Noted α).Reports P := nofun

theorem reports_bind {x : Noted α} {f : α → Noted β} (first : x.Reports P)
    (next : ∀ a, (f a).Reports P) : (x >>= f).Reports P :=
  List.forall_mem_append.2 ⟨first, next x.value⟩

theorem Reports.map {x : Noted α} (h : x.Reports P) (f : α → β) : (f <$> x).Reports P := by
  rw [Reports, notices_map]
  exact h

theorem reports_each {f : α → Noted β} (h : ∀ a, (f a).Reports P) (as : List α) :
    (each f as).Reports P := by
  induction as with
  | nil => exact reports_pure []
  | cons a as ih => exact reports_bind (h a) fun b => reports_bind ih fun bs => reports_pure _

theorem reports_through {fs : List (α → Noted α)} (h : ∀ f ∈ fs, ∀ a, (f a).Reports P) (a : α) :
    (through fs a).Reports P := by
  induction fs generalizing a with
  | nil => exact reports_pure a
  | cons f fs ih =>
    obtain ⟨first, rest⟩ := List.forall_mem_cons.1 h
    exact reports_bind (first a) (ih rest)

end Noted

open Noted (reports_pure reports_bind)
open Notice (IsOverlong)

variable {P : Notice → Prop}

/-! ## Normalizers -/

namespace Normalizer

/-- All that a normalizer ever reports has a property. -/
def Reports (P : Notice → Prop) (n : Normalizer) : Prop := ∀ kind v, (n.run kind v).Reports P

theorem reports_canonicalBytes (kind : Kind) (v : Json) :
    (canonicalBytes kind v).Reports IsOverlong := by
  unfold canonicalBytes
  split
  · exact reports_pure v
  · next bytes _ =>
    split
    · exact reports_pure _
    · split
      · -- The one notice there is.
        intro n hn
        exact ⟨kind, bytes.length, List.mem_singleton.1 hn⟩
      · exact reports_pure _

theorem reports_builtin {n : Normalizer} (h : n ∈ builtin) : n.Reports IsOverlong := by
  intro kind v
  cases n, h using builtin_cases with
  | bytesToHex => exact reports_canonicalBytes kind v
  | intToHex | stringToHex | addressToHex | hexToInt => exact reports_pure _

end Normalizer

namespace Chain

variable {chain : Chain} (h : ∀ n ∈ chain, n.Reports P)

include h

theorem reports_runAll (kind : Kind) (v : Json) : (chain.runAll kind v).Reports P := by
  refine Noted.reports_through ?_ v
  intro f hf
  obtain ⟨n, place, rfl⟩ := List.mem_map.1 hf
  exact h n (List.mem_filter.1 place).1 kind

theorem reports_normalize (kind : Kind) (v : Json) : (chain.normalize kind v).Reports P := by
  induction kind, v using induction_on_depth with
  | once kind v single =>
    rw [normalize_eq_runAll chain single]
    exact reports_runAll h kind v
  | list element items ih =>
    rw [normalize_array_arr]
    exact (Noted.reports_each ih items).map _

end Chain

/-! ## Formatters -/

namespace Formatter

mutual

/-- The normalizers inside a formatter. -/
def normalizers : Formatter → List Normalizer
  | .when _ inner | .atIndex _ inner | .each inner => inner.normalizers
  | .steps inners | .args inners => normalizersOfList inners
  | .fields inners => normalizersOfFields inners
  | .normalize _ chain => chain
  | .identity | .hexToInteger | .integerToHex | .emptyToNull | .rename _ _ | .removeKey _
  | .custom _ => []
termination_by structural f => f

/-- The normalizers inside formatters in a row. -/
def normalizersOfList : List Formatter → List Normalizer
  | [] => []
  | f :: fs => f.normalizers ++ normalizersOfList fs
termination_by structural fs => fs

/-- The normalizers inside the formatters of fields. -/
def normalizersOfFields : List (String × Formatter) → List Normalizer
  | [] => []
  | (_, f) :: fs => f.normalizers ++ normalizersOfFields fs
termination_by structural fs => fs

end

theorem normalizers_ofSchema_subset (chain : Chain) (schema : ParamSchema) :
    (ofSchema chain schema).normalizers ⊆ chain := by
  cases schema with
  | positional kinds =>
    show normalizersOfList (kinds.map (ofKind? chain)) ⊆ chain
    induction kinds with
    | nil => exact List.nil_subset _
    | cons kind kinds ih =>
      refine List.append_subset.2 ⟨?_, ih⟩
      cases kind with
      | none => exact List.nil_subset _
      | some kind => exact List.Subset.refl _
  | keyed kinds =>
    show normalizersOfFields (List.map (fun k => (k.1, .normalize k.2 chain)) kinds) ⊆ chain
    induction kinds with
    | nil => exact List.nil_subset _
    | cons k kinds ih => exact List.append_subset.2 ⟨List.Subset.refl _, ih⟩

theorem reports_onItem {f : Json → Noted Json} (h : ∀ v, (f v).Reports P) (index : Nat)
    (items : List Json) : (onItem f index items).Reports P := by
  induction items generalizing index with
  | nil => cases index <;> exact reports_pure []
  | cons v vs ih =>
    cases index with
    | zero => exact (h v).map _
    | succ index => exact (ih index).map _

theorem reports_onMember (key : String) {f : Json → Noted Json}
    (h : ∀ v, (f v).Reports P) (members : List (String × Json)) :
    (onMember key f members).Reports P := by
  refine Noted.reports_each ?_ members
  intro m
  split
  · exact (h m.2).map _
  · exact reports_pure m

mutual

/-- A formatter reports what its normalizers report. -/
theorem reports_apply : (f : Formatter) → (∀ n ∈ f.normalizers, n.Reports P) → (v : Json) →
    (f.apply v).Reports P
  | .identity, _, v => reports_pure v
  | .hexToInteger, _, _ | .integerToHex, _, _ | .emptyToNull, _, _ | .rename _ _, _, _
  | .removeKey _, _, _ | .custom _, _, _ => reports_pure _
  | .when condition inner, h, v => by
    unfold apply
    split
    · exact reports_apply inner h v
    · exact reports_pure v
  | .steps inners, h, v => reports_applySteps inners h v
  | .args inners, h, v => by
    unfold apply
    cases v with
    | arr items => exact (reports_applyArgs inners h items).map _
    | _ => exact reports_pure _
  | .atIndex index inner, h, v => by
    unfold apply
    cases v with
    | arr items => exact (reports_onItem (reports_apply inner h) index items).map _
    | _ => exact reports_pure _
  | .fields inners, h, v => by
    unfold apply
    cases v with
    | obj members => exact (reports_applyFields inners h members).map _
    | _ => exact reports_pure _
  | .each inner, h, v => by
    unfold apply
    cases v with
    | arr items => exact (Noted.reports_each (reports_apply inner h) items).map _
    | _ => exact reports_pure _
  | .normalize kind _, h, v => Chain.reports_normalize h kind v
termination_by structural f => f

theorem reports_applySteps : (fs : List Formatter) →
    (∀ n ∈ normalizersOfList fs, n.Reports P) → (v : Json) → (applySteps fs v).Reports P
  | [], _, v => reports_pure v
  | f :: fs, h, v =>
    have ⟨first, rest⟩ := List.forall_mem_append.1 h
    reports_bind (reports_apply f first v) (reports_applySteps fs rest)
termination_by structural fs => fs

theorem reports_applyArgs : (fs : List Formatter) →
    (∀ n ∈ normalizersOfList fs, n.Reports P) → (vs : List Json) → (applyArgs fs vs).Reports P
  | [], _, vs => reports_pure vs
  | _ :: _, _, [] => reports_pure []
  | f :: fs, h, v :: vs =>
    have ⟨first, rest⟩ := List.forall_mem_append.1 h
    reports_bind (reports_apply f first v) fun w => (reports_applyArgs fs rest vs).map (w :: ·)
termination_by structural fs => fs

theorem reports_applyFields : (fs : List (String × Formatter)) →
    (∀ n ∈ normalizersOfFields fs, n.Reports P) → (ms : List (String × Json)) →
    (applyFields fs ms).Reports P
  | [], _, ms => reports_pure ms
  | (key, f) :: fs, h, ms =>
    have ⟨first, rest⟩ := List.forall_mem_append.1 h
    reports_bind (reports_onMember key (reports_apply f first) ms) (reports_applyFields fs rest)
termination_by structural fs => fs

end

end Formatter

namespace Formatting

/-- All that the formatters of a formatting report has a property. -/
structure Reports (P : Notice → Prop) (f : Formatting) : Prop where
  requests : ∀ e ∈ f.requests, ∀ n ∈ e.2.normalizers, n.Reports P
  results : ∀ e ∈ f.results, ∀ n ∈ e.2.normalizers, n.Reports P

theorem reports_ofCatalog (catalog : Catalog) {chain : Chain} (h : ∀ n ∈ chain, n.Reports P) :
    (ofCatalog catalog chain).Reports P := by
  refine ⟨?_, nofun⟩
  intro e he n inside
  obtain ⟨s, -, rfl⟩ := List.mem_map.1 he
  exact h n (Formatter.normalizers_ofSchema_subset chain s.2 inside)

/-- The formatting for the test backend normalizes nothing. -/
theorem reports_tester : Tester.formatting.Reports P := by
  have tables : ∀ entries : List (String × Formatter), (∀ e ∈ entries, e.2.normalizers = []) →
      ∀ e ∈ FormatterTable.ofList entries, ∀ n ∈ e.2.normalizers, n.Reports P := by
    intro entries without e he n inside
    have empty : e.2.normalizers = [] :=
      FormatterTable.forall_mem_ofList (P := fun f => f.normalizers = []) without e he
    rw [empty] at inside
    cases inside
  rw [Tester.formatting]
  exact ⟨tables _ (by decide), tables _ (by decide)⟩

variable {f : Formatting} (h : f.Reports P) (method : String)

include h

theorem reports_formatRequest (params : List Json) :
    (f.formatRequest method params).Reports P := by
  unfold formatRequest
  split
  · next formatter found =>
    have listed := Record.mem_of_get?_eq_some found
    exact (Formatter.reports_apply formatter (h.requests _ listed) _).map _
  · exact reports_pure params

theorem reports_formatResult (result : Json) : (f.formatResult method result).Reports P := by
  unfold formatResult
  split
  · next formatter found =>
    have listed := Record.mem_of_get?_eq_some found
    exact Formatter.reports_apply formatter (h.results _ listed) result
  · exact reports_pure result

end Formatting

end EthGateway
