import EthGateway.Formatter
import EthGateway.Proofs.Normalization.Stability
import EthGateway.Proofs.Record.Lookup

/-
# EthGateway.Proofs.Formatter.Fields -- formatters that reach into records and lists

`applyFields` goes through a record once for each of its formatters. If these are for different
fields, the passes do not meet, so all of them together change each member by the formatter of its
own key (`value_applyFields`), and the notices are those of each formatter at the members it is for
(`notices_applyFields`). Two records that the formatters cannot tell apart member by member
(`Alike`) are therefore formatted to the same record with the same notices (`applyFields_congr`).
Arguments are formatted each by the formatter at its place, and are as many afterwards
(`getElem?_applyArgs`, `length_applyArgs`).

A formatter is stable if it gives back what it has given before. Formatters of fields and of
arguments are stable if the formatters in them are (`stable_applyFields`, `stable_applyArgs`).
-/

namespace EthGateway

namespace Formatter

/-! ## Members one by one -/

theorem value_onMember (key : String) (f : Json → Noted Json) (r : Record Json) :
    (onMember key f r).value =
      List.map (fun m => (m.1, if m.1 = key then (f m.2).value else m.2)) r := by
  rw [onMember, Noted.value_each]
  refine List.map_congr_left fun m _ => ?_
  split <;> rfl

theorem notices_onMember (key : String) (f : Json → Noted Json) (r : Record Json) :
    (onMember key f r).notices =
      r.flatMap fun m => if m.1 = key then (f m.2).notices else [] := by
  rw [onMember, Noted.notices_each]
  congr 1
  funext m
  split
  · rw [Noted.notices_map]
  · rfl

/-- What formatters of fields do to the value under a key. -/
def onField (inners : List (String × Formatter)) (key : String) (v : Json) : Noted Json :=
  match Record.get? inners key with
  | some f => f.apply v
  | none => pure v

theorem onField_of_mem {inners : List (String × Formatter)} (distinct : (Record.keys inners).Nodup)
    {e : String × Formatter} (h : e ∈ inners) (v : Json) : onField inners e.1 v = e.2.apply v := by
  rw [onField, Record.get?_of_mem distinct h]

theorem onField_of_not_mem {inners : List (String × Formatter)} {key : String}
    (h : key ∉ Record.keys inners) (v : Json) : onField inners key v = pure v := by
  rw [onField, Record.get?_eq_none_iff.2 h]

theorem value_applyFields {inners : List (String × Formatter)}
    (distinct : (Record.keys inners).Nodup) (r : Record Json) :
    (applyFields inners r).value =
      List.map (fun m => (m.1, (onField inners m.1 m.2).value)) r := by
  induction inners generalizing r with
  | nil => exact (List.map_id r).symm
  | cons e inners ih =>
    obtain ⟨fresh, rest⟩ := List.nodup_cons.1 distinct
    rw [applyFields, Noted.value_bind, ih rest, value_onMember, List.map_map]
    refine List.map_congr_left fun m _ => ?_
    by_cases hk : m.1 = e.1
    · -- The formatter at the front is the only one for this member.
      have front : onField (e :: inners) m.1 m.2 = e.2.apply m.2 := by simp [onField, hk]
      have behind : ∀ v, onField inners m.1 v = pure v := onField_of_not_mem (hk ▸ fresh)
      simp only [Function.comp_apply, if_pos hk, behind, front, Noted.value_pure]
    · have skip : onField (e :: inners) m.1 m.2 = onField inners m.1 m.2 := by simp [onField, hk]
      simp only [Function.comp_apply, if_neg hk, skip]

theorem notices_applyFields {inners : List (String × Formatter)}
    (distinct : (Record.keys inners).Nodup) (r : Record Json) :
    (applyFields inners r).notices =
      inners.flatMap fun e => r.flatMap fun m =>
        if m.1 = e.1 then (e.2.apply m.2).notices else [] := by
  induction inners generalizing r with
  | nil => rfl
  | cons e inners ih =>
    obtain ⟨fresh, rest⟩ := List.nodup_cons.1 distinct
    rw [applyFields, Noted.notices_bind, ih rest, notices_onMember, value_onMember,
      List.flatMap_cons]
    congr 1
    refine List.flatMap_congr fun d hd => ?_
    have hde : d.1 ≠ e.1 := fun heq => fresh (heq ▸ List.mem_map_of_mem hd)
    rw [List.flatMap_map]
    congr 1
    funext m
    by_cases hk : m.1 = d.1
    · have hne : m.1 ≠ e.1 := hk ▸ hde
      simp only [if_pos hk, if_neg hne]
    · simp only [if_neg hk]

/-! ## Records that are formatted alike -/

/-- Two records with the same keys whose values the formatters of fields cannot tell apart. -/
def Alike (inners : List (String × Formatter)) (r s : Record Json) : Prop :=
  List.Forall₂ (fun m n => m.1 = n.1 ∧ onField inners m.1 m.2 = onField inners m.1 n.2) r s

section

variable {inners : List (String × Formatter)} (distinct : (Record.keys inners).Nodup)
  {r s : Record Json}
include distinct

/-- Formatted records are related as their formatted values are. -/
theorem related_applyFields {R : String → Json → Json → Prop}
    (h : Record.Related
      (fun key v w => R key (onField inners key v).value (onField inners key w).value) r s) :
    Record.Related R (applyFields inners r).value (applyFields inners s).value := by
  unfold Record.Related
  rw [value_applyFields distinct, value_applyFields distinct, List.forall₂_map_left_iff,
    List.forall₂_map_right_iff]
  refine h.imp ?_
  rintro ⟨key, v⟩ ⟨_, w⟩ ⟨rfl, related⟩
  exact ⟨rfl, related⟩

theorem notices_applyFields_congr
    (h : Record.Related
      (fun key v w => (onField inners key v).notices = (onField inners key w).notices) r s) :
    (applyFields inners r).notices = (applyFields inners s).notices := by
  rw [notices_applyFields distinct, notices_applyFields distinct]
  refine List.flatMap_congr fun e he => ?_
  induction h with
  | nil => rfl
  | @cons m n r s hmn hrs ih =>
    rw [List.flatMap_cons, List.flatMap_cons, ih, ← hmn.1]
    by_cases hk : m.1 = e.1
    · have same : (e.2.apply m.2).notices = (e.2.apply n.2).notices := by
        rw [← onField_of_mem distinct he, ← onField_of_mem distinct he, ← hk]
        exact hmn.2
      rw [if_pos hk, if_pos hk, same]
    · rw [if_neg hk, if_neg hk]

theorem applyFields_congr (h : Alike inners r s) : applyFields inners r = applyFields inners s := by
  ext1
  · have values : Record.Related (fun _ v w => v = w) (applyFields inners r).value
        (applyFields inners s).value := by
      refine related_applyFields distinct (h.imp ?_)
      rintro m n ⟨key, same⟩
      exact ⟨key, congrArg Noted.value same⟩
    rw [← List.forall₂_eq_eq_eq]
    exact values.imp fun m n same => Prod.ext same.1 same.2
  · refine notices_applyFields_congr distinct (h.imp ?_)
    rintro m n ⟨key, same⟩
    exact ⟨key, congrArg Noted.notices same⟩

end

/-! ## Arguments one by one -/

theorem length_applyArgs (fs : List Formatter) (vs : List Json) :
    (applyArgs fs vs).value.length = vs.length := by
  induction fs generalizing vs with
  | nil => cases vs <;> rfl
  | cons f fs ih =>
    cases vs with
    | nil => rfl
    | cons v vs => simp [applyArgs, ih]

/-- An argument is formatted by the formatter at its place; where there is none, it stays. -/
theorem getElem?_applyArgs (fs : List Formatter) (vs : List Json) (i : Nat) :
    (applyArgs fs vs).value[i]? =
      vs[i]?.map fun v => ((fs[i]?.getD .identity).apply v).value := by
  induction fs generalizing vs i with
  | nil => cases vs <;> simp [applyArgs, apply]
  | cons f fs ih =>
    cases vs with
    | nil => rfl
    | cons v vs =>
      cases i with
      | zero => simp [applyArgs]
      | succ i => simp [applyArgs, ih]

/-! ## Stable formatters -/

theorem stable_onField {inners : List (String × Formatter)}
    (h : ∀ e ∈ inners, Noted.Stable e.2.apply) (key : String) :
    Noted.Stable (onField inners key) := by
  intro v
  unfold onField
  cases found : Record.get? inners key with
  | none => rfl
  | some f => exact h (key, f) (Record.mem_of_get?_eq_some found) v

theorem alike_applyFields {inners : List (String × Formatter)}
    (distinct : (Record.keys inners).Nodup) (h : ∀ e ∈ inners, Noted.Stable e.2.apply)
    (r : Record Json) : Alike inners (applyFields inners r).value r := by
  rw [value_applyFields distinct]
  induction r with
  | nil => exact .nil
  | cons m r ih => exact .cons ⟨rfl, stable_onField h m.1 m.2⟩ ih

theorem stable_applyFields {inners : List (String × Formatter)}
    (distinct : (Record.keys inners).Nodup) (h : ∀ e ∈ inners, Noted.Stable e.2.apply) :
    Noted.Stable (applyFields inners) :=
  fun r => applyFields_congr distinct (alike_applyFields distinct h r)

theorem stable_applyArgs {fs : List Formatter} (h : ∀ f ∈ fs, Noted.Stable f.apply) :
    Noted.Stable (applyArgs fs) := by
  intro vs
  induction fs generalizing vs with
  | nil => cases vs <;> rfl
  | cons f fs ih =>
    obtain ⟨hf, hfs⟩ := List.forall_mem_cons.1 h
    cases vs with
    | nil => rfl
    | cons v vs =>
      have rest := ih hfs vs
      rw [applyArgs, Noted.value_bind, Noted.value_map, applyArgs, hf v, rest]

end Formatter

end EthGateway
