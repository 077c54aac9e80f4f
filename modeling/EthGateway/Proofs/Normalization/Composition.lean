import EthGateway.Proofs.Normalization.Stability
import Mathlib.Data.List.Perm.Basic

/-
# EthGateway.Proofs.Normalization.Composition -- chains one after the other, and their order

A chain of builtin steps that goes on with the steps of another comes to what the two come to one
after the other, at any depth of arrays (`value_normalize_append`). The notices are those of both
passes, but in another order if there is a list: its items go through all the steps one by one
(`notices_normalize_append`). A step that is not builtin may make a list where there was none under
the kind of an array, and only a pass of its own looks into that list.

Of the normalizers for arguments no two support the same kind. So in a chain of these a value meets
one normalizer at most, and comes to the same however often and wherever that one stands
(`value_runAll_of_mem`). For each of them there is a value that exactly the chains with it
change (`exists_changed_iff`). Two such chains therefore normalize alike if and only if they have the
same members (`alike_iff`). The normalizer of quantities for results is another matter: it undoes
what the one for arguments does, so that there the last of the two decides.

Both together are the main statement, `inSequence_and_alike_iff`.
-/

namespace EthGateway

theorem Noted.through_append {α : Type} (fs gs : List (α → Noted α)) (a : α) :
    through (fs ++ gs) a = through fs a >>= through gs := by
  induction fs generalizing a with
  | nil => rw [List.nil_append, through, pure_bind]
  | cons f fs ih =>
    rw [List.cons_append, through, through, bind_assoc]
    exact bind_congr ih

namespace Chain

open Normalizer

/-! ## One chain after the other -/

theorem runAll_append (c d : Chain) (kind : Kind) (v : Json) :
    runAll (c ++ d) kind v = c.runAll kind v >>= fun w => d.runAll kind w := by
  simp only [runAll, List.filter_append, List.map_append, Noted.through_append]

section Sequence

variable {c : Chain} (builtin : c ⊆ builtin) (d : Chain)

include builtin

/-- What goes through the steps of the first chain at once goes through those of the second at once
as well: a builtin step may make a text of a list, and none makes a list. -/
theorem normalize_append {kind : Kind} {v : Json}
    (h : ∀ element items, kind = .array element → v ≠ .arr items) :
    (c ++ d).normalize kind v = c.normalize kind v >>= fun w => d.normalize kind w := by
  rw [normalize_eq_runAll (c ++ d) h, normalize_eq_runAll c h, runAll_append]
  ext1
  · rw [Noted.value_bind, Noted.value_bind, normalize_eq_runAll d (runAll_ne_arr builtin h)]
  · rw [Noted.notices_bind, Noted.notices_bind, normalize_eq_runAll d (runAll_ne_arr builtin h)]

theorem value_normalize_append (kind : Kind) (v : Json) :
    ((c ++ d).normalize kind v).value = (d.normalize kind (c.normalize kind v).value).value := by
  induction kind, v using induction_on_depth with
  | once kind v h => rw [normalize_append builtin d h, Noted.value_bind]
  | list element items ih =>
    simp only [normalize_array_arr, Noted.value_map, Noted.value_each, List.map_map,
      Function.comp_def, ih]

/-- Why the first steps are to be builtin: this one makes a list, which a second pass looks into. -/
example :
    let listing : Normalizer := ⟨"listing", fun _ => true, fun _ _ => pure (.arr [.ofNat 10])⟩
    let kind : Kind := .array .uint
    (Chain.normalize [listing, intToHex] kind .null).value = .arr [.ofNat 10] ∧
      (Chain.normalize [intToHex] kind (Chain.normalize [listing] kind .null).value).value =
        .arr [.str "0xa"] := by
  decide

theorem notices_normalize_append (kind : Kind) (v : Json) :
    ((c ++ d).normalize kind v).notices.Perm
      ((c.normalize kind v).notices ++ (d.normalize kind (c.normalize kind v).value).notices) := by
  induction kind, v using induction_on_depth with
  | once kind v h => rw [normalize_append builtin d h, Noted.notices_bind]
  | list element items ih =>
    simp only [normalize_array_arr, Noted.value_map, Noted.value_each, Noted.notices_map,
      Noted.notices_each, List.flatMap_map]
    -- Item by item the notices of both passes, against all of the first and then all of the second.
    refine (List.Perm.flatMap_left items fun item _ => ih item).trans ?_
    exact (List.flatMap_append_perm items _ _).symm

end Sequence

/-- Two overlong values: the first is reported twice before the second is, although each pass reports
both. -/
example :
    let chain : Chain := [.bytesToHex]
    let kind : Kind := .array (.fixedBytes 1)
    let v : Json := .arr [.str "0xaabb", .str "0xaabbcc"]
    (chain.normalize kind v).notices =
        [.overlong (.fixedBytes 1) 2, .overlong (.fixedBytes 1) 3] ∧
      ((chain ++ chain).normalize kind v).notices =
        [.overlong (.fixedBytes 1) 2, .overlong (.fixedBytes 1) 2,
          .overlong (.fixedBytes 1) 3, .overlong (.fixedBytes 1) 3] := by
  decide

/-! ## Chains of the normalizers for arguments -/

/-- No two normalizers for arguments support the same kind. -/
theorem eq_of_supports_of_mem_request {kind : Kind} {m n : Normalizer} (hm : m ∈ request)
    (hn : n ∈ request) (supportsM : m.supports kind = true) (supportsN : n.supports kind = true) :
    m = n := by
  by_cases quantity : kind = .uint
  · subst quantity
    have digits : ∀ n ∈ request, n.supports .uint = true → n = intToHex := by
      simp [request, bytesToHex, stringToHex, addressToHex, ofKind, Kind.isByteLike]
    rw [digits m hm supportsM, digits n hn supportsN]
  · exact eq_of_supports quantity (request_subset_builtin hm) (request_subset_builtin hn) supportsM
      supportsN

section Order

variable {c d chain : Chain}

section Member

variable (arguments : chain ⊆ request) {n : Normalizer} (hn : n ∈ request) {kind : Kind}
  (supported : n.supports kind = true)

include arguments hn supported

/-- A value of a kind that a normalizer supports stays as it is if the chain does not have it. -/
theorem runAll_of_not_mem (absent : n ∉ chain) (v : Json) : chain.runAll kind v = pure v := by
  refine runAll_of_unsupported (fun m place => Bool.eq_false_iff.2 fun supportsM => absent ?_) v
  rwa [← eq_of_supports_of_mem_request (arguments place) hn supportsM supported]

/-- If the chain has it, the value comes to what that one normalizer makes of it. -/
theorem value_runAll_of_mem (place : n ∈ chain) (v : Json) :
    (chain.runAll kind v).value = (n.run kind v).value := by
  induction chain generalizing v with
  | nil => cases place
  | cons m chain ih =>
    obtain ⟨hm, rest⟩ := List.cons_subset.1 arguments
    cases supportsM : m.supports kind with
    | false =>
      have other : n ≠ m := by
        rintro rfl
        rw [supported] at supportsM
        cases supportsM
      rw [runAll_cons_of_not_supports supportsM, ih rest (List.mem_of_ne_of_mem other place)]
    | true =>
      have same : m = n := eq_of_supports_of_mem_request hm hn supportsM supported
      subst same
      rw [runAll_cons_of_supports supported, Noted.value_bind]
      by_cases later : m ∈ chain
      · rw [ih rest later, stable_run (request_subset_builtin hm)]
      · rw [runAll_of_not_mem rest hm supported later, Noted.value_pure]

end Member

/-- The steps for a kind are one normalizer over and over, so only their number counts. -/
theorem runAll_eq_of_perm (arguments : c ⊆ request) (reordered : c.Perm d) :
    c.runAll = d.runAll := by
  funext kind v
  -- All the members being equal, the two lists are in order by the relation that always holds.
  have alike : ∀ m n : Normalizer, m ∈ c.filter (fun n => n.supports kind) →
      n ∈ d.filter (fun n => n.supports kind) → True → True → m = n := by
    intro m n hm hn _ _
    obtain ⟨placeM, supportsM⟩ := List.mem_filter.1 hm
    obtain ⟨placeN, supportsN⟩ := List.mem_filter.1 hn
    exact eq_of_supports_of_mem_request (arguments placeM)
      (arguments (reordered.mem_iff.2 placeN)) supportsM supportsN
  have steps : c.filter (fun n => n.supports kind) = d.filter (fun n => n.supports kind) :=
    List.Perm.eq_of_pairwise alike (List.pairwise_of_forall fun _ _ => trivial)
      (List.pairwise_of_forall fun _ _ => trivial) (reordered.filter _)
  rw [runAll, runAll, steps]

theorem normalize_congr (same : c.runAll = d.runAll) : c.normalize = d.normalize := by
  funext kind v
  induction kind, v using induction_on_depth with
  | once kind v h => rw [normalize_eq_runAll c h, normalize_eq_runAll d h, same]
  | list element items ih => rw [normalize_array_arr, normalize_array_arr, funext ih]

theorem value_normalize_congr
    (same : ∀ kind v, (c.runAll kind v).value = (d.runAll kind v).value) (kind : Kind) (v : Json) :
    (c.normalize kind v).value = (d.normalize kind v).value := by
  induction kind, v using induction_on_depth with
  | once kind v h => rw [normalize_eq_runAll c h, normalize_eq_runAll d h, same]
  | list element items ih =>
    simp only [normalize_array_arr, Noted.value_map, Noted.value_each, ih]

/-! ## Members without their order -/

/-- The two chains give every value of every kind the same spelling. -/
def Alike (c d : Chain) : Prop :=
  ∀ kind v, (c.normalize kind v).value = (d.normalize kind v).value

theorem alike_of_mem_iff (hc : c ⊆ request) (hd : d ⊆ request) (members : ∀ n, n ∈ c ↔ n ∈ d) :
    Alike c d := by
  refine value_normalize_congr fun kind v => ?_
  by_cases supported : ∃ n ∈ request, n.supports kind = true
  · obtain ⟨n, hn, supported⟩ := supported
    by_cases place : n ∈ c
    · rw [value_runAll_of_mem hc hn supported place,
        value_runAll_of_mem hd hn supported ((members n).1 place)]
    · rw [runAll_of_not_mem hc hn supported place,
        runAll_of_not_mem hd hn supported fun other => place ((members n).2 other)]
  · have unsupported : ∀ n ∈ request, n.supports kind = false := by simpa using supported
    rw [runAll_of_unsupported fun n place => unsupported n (hc place),
      runAll_of_unsupported fun n place => unsupported n (hd place)]

/-- Whether a chain has a normalizer shows in what becomes of one value. -/
theorem exists_changed_iff {n : Normalizer} (hn : n ∈ request) :
    ∃ kind v, ∀ chain ⊆ request, (Chain.normalize chain kind v).value ≠ v ↔ n ∈ chain := by
  have own : ∃ kind v, (∀ element items, kind = .array element → v ≠ .arr items) ∧
      n.supports kind = true ∧ (n.run kind v).value ≠ v := by
    rcases (by simpa [request] using hn : _ ∨ _ ∨ _ ∨ _) with rfl | rfl | rfl | rfl
    · exact ⟨.bytes, .arr [], by simp, rfl, by decide⟩
    · exact ⟨.uint, .ofNat 0, by simp, rfl, by decide⟩
    · exact ⟨.string, .str "", by simp, rfl, by decide⟩
    · exact ⟨.address, .str "0000000000000000000000000000000000000000", by simp, rfl, by decide⟩
  obtain ⟨kind, v, once, supported, changed⟩ := own
  refine ⟨kind, v, fun chain arguments => ?_⟩
  rw [normalize_eq_runAll chain once]
  by_cases place : n ∈ chain
  · rw [value_runAll_of_mem arguments hn supported place]
    exact iff_of_true changed place
  · rw [runAll_of_not_mem arguments hn supported place]
    exact iff_of_false (fun differs => differs rfl) place

theorem alike_iff (hc : c ⊆ request) (hd : d ⊆ request) :
    Alike c d ↔ ∀ n, n ∈ c ↔ n ∈ d := by
  refine ⟨fun alike n => ?_, alike_of_mem_iff hc hd⟩
  by_cases hn : n ∈ request
  · obtain ⟨kind, v, changed⟩ := exists_changed_iff hn
    rw [← changed c hc, ← changed d hd, alike kind v]
  · exact iff_of_false (fun place => hn (hc place)) fun place => hn (hd place)

end Order

/-- The first chain with the steps of the second behind its own comes to what the two come to one
after the other, and reports the same as they do, in some order. -/
structure InSequence (c d : Chain) : Prop where
  value : ∀ kind v,
    ((c ++ d).normalize kind v).value = (d.normalize kind (c.normalize kind v).value).value
  notices : ∀ kind v, ((c ++ d).normalize kind v).notices.Perm
    ((c.normalize kind v).notices ++ (d.normalize kind (c.normalize kind v).value).notices)

/-- Builtin steps may be put in front of a chain. If chains are made of normalizers for arguments,
what a value comes to is decided by their members and by nothing else, and in another order they
report the same too. A chain with the members of the one for arguments normalizes as that one does,
and leaves as it is what that one has normalized. -/
theorem inSequence_and_alike_iff (c d : Chain) :
    (c ⊆ builtin → InSequence c d) ∧
    (c ⊆ request → d ⊆ request →
      (Alike c d ↔ ∀ n, n ∈ c ↔ n ∈ d) ∧ (c.Perm d → c.normalize = d.normalize)) ∧
    ((∀ n, n ∈ c ↔ n ∈ request) → Alike c request ∧
      ∀ kind v, (c.normalize kind (request.normalize kind v).value).value =
        (request.normalize kind v).value) := by
  refine ⟨?_, ?_, ?_⟩
  · intro hc
    exact ⟨value_normalize_append hc d, notices_normalize_append hc d⟩
  · intro hc hd
    exact ⟨alike_iff hc hd, fun reordered => normalize_congr (runAll_eq_of_perm hc reordered)⟩
  · intro members
    have alike : Alike c request := alike_of_mem_iff (fun n => (members n).1) (fun _ => id) members
    refine ⟨alike, fun kind v => ?_⟩
    rw [alike, stable_request]

/-- The normalizers for arguments in two other orders, the one for bytes twice, on a list of lists
with bytes, with too many bytes, and with text and null in the place of a list. -/
theorem inSequence_and_alike_iff_shuffled :
    let c : Chain := [.addressToHex, .bytesToHex, .intToHex, .bytesToHex, .stringToHex]
    let d : Chain := [.stringToHex, .bytesToHex, .intToHex, .bytesToHex, .addressToHex]
    let kind : Kind := .array (.array (.fixedBytes 2))
    let v : Json := .arr [.arr [.arr [.ofNat 171], .str "0xaabbcc"], .str "aB", .null]
    let out : Json := .arr [.arr [.str "0xab00", .str "0xaabbcc"], .str "aB", .null]
    (c ⊆ builtin ∧ c ⊆ request ∧ d ⊆ request ∧ (∀ n, n ∈ c ↔ n ∈ d) ∧ c.Perm d ∧
        ∀ n, n ∈ c ↔ n ∈ request) ∧
      (request.normalize kind v).value = out ∧ (c.normalize kind v).value = out ∧
      c.normalize kind v = d.normalize kind v ∧ ((c ++ d).normalize kind v).value = out ∧
      (c.normalize kind out).value = out ∧
      [.bytesToHex, .intToHex] ⊆ request ∧ ¬ Alike c [.bytesToHex, .intToHex] := by
  intro c d kind v out
  have reordered : c.Perm d := (List.reverse_perm c).symm
  have all : ∀ n, n ∈ c ↔ n ∈ request := by
    intro n
    simp only [c, request, List.mem_cons, List.not_mem_nil, or_false]
    tauto
  have hc : c ⊆ request := fun n => (all n).1
  have hd : d ⊆ request := fun n place => hc (reordered.mem_iff.2 place)
  have own : c ⊆ builtin := fun n place => request_subset_builtin (hc place)
  have normalized : (request.normalize kind v).value = out := by decide
  obtain ⟨sequence, order, members⟩ := inSequence_and_alike_iff c d
  obtain ⟨alike, stays⟩ := members all
  obtain ⟨alikeIff, reorder⟩ := order hc hd
  have same : ∀ n, n ∈ c ↔ n ∈ d := fun n => reordered.mem_iff
  have became : (c.normalize kind v).value = out := (alike kind v).trans normalized
  have settled : (c.normalize kind out).value = out := by rw [← normalized, stays]
  have hfew : [.bytesToHex, .intToHex] ⊆ request := by simp [request]
  refine ⟨⟨own, hc, hd, same, reordered, all⟩, normalized, became,
    congrFun (congrFun (reorder reordered) kind) v, ?_, settled, hfew, ?_⟩
  · rw [(sequence own).value, became, ← alikeIff.2 same, settled]
  · -- Without the normalizer for text a chain does something else.
    intro fewer
    obtain ⟨-, order, -⟩ := inSequence_and_alike_iff c [.bytesToHex, .intToHex]
    have text : stringToHex ∈ [bytesToHex, intToHex] :=
      ((order hc hfew).1.1 fewer .stringToHex).1 (by simp [c])
    exact absurd (List.mem_map_of_mem (f := Normalizer.name) text) (by decide)

end Chain

end EthGateway
