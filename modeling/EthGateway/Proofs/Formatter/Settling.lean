import EthGateway.Proofs.Formatter.Fields
import EthGateway.Proofs.Record.Renaming

/-
# EthGateway.Proofs.Formatter.Settling -- formatters that have nothing left to do

A value rests under a formatter that leaves it as it is, and a formatter settles if all that it
gives rests under it. Conditions, lists and arguments settle if the formatters in them do, whatever
the condition is: a value that no longer meets it is left alone. Formatters one after the other need
more, since a later one may give an earlier one something to do again. What comes out of them rests
if it rests under each of them (`rests_steps`).

A renamed record rests under its renaming if no name is on both sides of the table (`rests_rename`).
Fields that are formatted before their record is renamed are still so behind the new names, unless
another field gets the name of one of them (`settles_fields_rename`).
-/

namespace EthGateway.Formatter

/-- The formatter leaves the value as it is. -/
def Rests (f : Formatter) (v : Json) : Prop := (f.apply v).value = v

/-- The formatter leaves what it has given as it is. -/
def Settles (f : Formatter) : Prop := ∀ v, f.Rests (f.apply v).value

/-! ## Single changes -/

theorem settles_identity : Settles .identity := fun _ => rfl

theorem settles_hexToInteger : Settles .hexToInteger := Json.hexToInteger_hexToInteger

theorem settles_integerToHex : Settles .integerToHex := Json.integerToHex_integerToHex

theorem settles_emptyToNull : Settles .emptyToNull := by
  intro v
  show nullIfEmpty (nullIfEmpty v) = nullIfEmpty v
  cases v with
  | str s =>
    by_cases empty : s = ""
    · rw [empty]
      rfl
    · have text : nullIfEmpty (.str s) = .str s := if_neg empty
      rw [text, text]
  | _ => rfl

/-! ## Formatters around formatters -/

variable {f : Formatter}

theorem Rests.when {v : Json} (h : f.Rests v) (condition : Condition) :
    Rests (.when condition f) v := by
  rw [Rests, apply]
  split
  · exact h
  · rfl

theorem Settles.when (h : f.Settles) (condition : Condition) : Settles (.when condition f) := by
  intro v
  by_cases met : condition.holds v = true
  · have inner : ((Formatter.when condition f).apply v).value = (f.apply v).value := by
      rw [apply, if_pos met]
    rw [inner]
    exact (h v).when condition
  · have same : ((Formatter.when condition f).apply v).value = v := by
      rw [apply, if_neg met]
      rfl
    rw [Rests, same, same]

theorem Settles.each (h : f.Settles) : Settles (.each f) := by
  intro v
  cases v with
  | arr items =>
    simp only [Rests, apply, Noted.value_map, Noted.value_each, List.map_map]
    refine congrArg Json.arr (List.map_congr_left fun item _ => ?_)
    exact h item
  | _ => rfl

theorem settles_args {fs : List Formatter} (h : ∀ f ∈ fs, f.Settles) : Settles (.args fs) := by
  intro v
  cases v with
  | arr items =>
    refine congrArg Json.arr (List.ext_getElem? fun i => ?_)
    rw [getElem?_applyArgs, getElem?_applyArgs, Option.map_map]
    congr 1
    funext item
    cases place : fs[i]? with
    | none => rfl
    | some f => exact h f (List.mem_of_getElem? place) item
  | _ => rfl

theorem rests_steps {fs : List Formatter} {v : Json} (h : ∀ f ∈ fs, f.Rests v) :
    Rests (.steps fs) v := by
  show (applySteps fs v).value = v
  induction fs with
  | nil => rfl
  | cons f fs ih =>
    obtain ⟨first, rest⟩ := List.forall_mem_cons.1 h
    have unchanged : (f.apply v).value = v := first
    rw [applySteps, Noted.value_bind, unchanged]
    exact ih rest

/-! ## Records -/

section Records

variable {inners : List (String × Formatter)} {t : RenameTable} {r s : Record Json}

/-- A record of renamed fields is renamed already. -/
theorem rests_rename (apart : t.Apart) (direction : Direction) (ordered : Record.Ordered s)
    (renamed : ∀ key ∈ Record.keys s, key ∈ Record.keys (t.renameMembers direction r)) :
    Rests (.rename t direction) (.obj s) :=
  congrArg Json.obj (RenameTable.renameMembers_of_keys direction apart ordered renamed)

theorem settles_rename (apart : t.Apart) (direction : Direction) :
    Settles (.rename t direction) := by
  intro v
  cases v with
  | obj r =>
    exact rests_rename apart direction (t.ordered_renameMembers direction r) fun _ h => h
  | _ => rfl

theorem rests_fields (distinct : (Record.keys inners).Nodup)
    (h : ∀ m ∈ s, (onField inners m.1 m.2).value = m.2) : Rests (.fields inners) (.obj s) := by
  have members : List.map (fun m => (m.1, (onField inners m.1 m.2).value)) s = List.map id s := by
    refine List.map_congr_left fun m hm => ?_
    rw [h m hm]
    rfl
  show Json.obj (applyFields inners s).value = .obj s
  rw [value_applyFields distinct, members, List.map_id]

theorem value_onField_onField (settle : ∀ e ∈ inners, e.2.Settles) (key : String) (v : Json) :
    (onField inners key (onField inners key v).value).value = (onField inners key v).value := by
  unfold onField
  cases found : Record.get? inners key with
  | none => rfl
  | some f => exact settle (key, f) (Record.mem_of_get?_eq_some found) v

theorem rests_removeKey {key : String} (absent : key ∉ Record.keys s) :
    Rests (.removeKey key) (.obj s) := by
  refine congrArg Json.obj (List.filter_eq_self.2 ?_)
  intro m hm
  refine decide_eq_true ?_
  rintro rfl
  exact absent (List.mem_map_of_mem hm)

/-- Fields are formatted, then renamed. No field gets the name of one that has a formatter. -/
theorem settles_fields_rename (distinct : (Record.keys inners).Nodup)
    (settle : ∀ e ∈ inners, e.2.Settles) (apart : t.Apart) (direction : Direction)
    (unnamed : ∀ key ∈ Record.keys inners, key ∉ t.pairs.map (RenameTable.goal direction)) :
    Settles (.steps [.fields inners, .rename t direction]) := by
  intro v
  cases v with
  | obj r =>
    let formatted := (applyFields inners r).value
    show Rests _ (.obj (t.renameMembers direction formatted))
    have fields : Rests (.fields inners) (.obj (t.renameMembers direction formatted)) := by
      refine rests_fields distinct fun m hm => ?_
      by_cases listed : m.1 ∈ Record.keys inners
      · -- A field under this name has had it before, so it was formatted.
        obtain ⟨n, hn, name, value⟩ := RenameTable.exists_of_mem_renameMembers hm
        have own : n.1 = m.1 :=
          RenameTable.eq_of_target_eq direction name (unnamed m.1 listed)
        have before : n ∈ (applyFields inners r).value := hn
        rw [value_applyFields distinct] at before
        obtain ⟨l, -, rfl⟩ := List.mem_map.1 before
        rw [← value, ← own]
        exact value_onField_onField settle l.1 l.2
      · rw [onField_of_not_mem listed]
        rfl
    have names : Rests (.rename t direction) (.obj (t.renameMembers direction formatted)) :=
      settles_rename apart direction (.obj formatted)
    exact rests_steps (List.forall_mem_cons.2 ⟨fields, List.forall_mem_singleton.2 names⟩)
  | _ => rfl

end Records

end EthGateway.Formatter
