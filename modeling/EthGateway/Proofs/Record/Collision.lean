import EthGateway.Proofs.Record.Renaming
import Mathlib.Data.Finset.Card

/-
# EthGateway.Proofs.Record.Collision -- fields that meet under one name

A table gives no two fields the same name, but it may give a field the name of another one that it
does not list (`Takes`), and two fields with one new name are always of this sort
(`takes_of_target_eq`). A record that holds both loses one of them. Which of the two stays is decided
by the order of their old names: the greater one is found under the new name
(`get?_renameMembers_of_greatest`), whether it is the field that took the name or the one that had
it.

So it is not true of every record that the fields the table leaves alone keep their values, and that
there are as many fields as before: `LeftAlone` says what becomes of them, and both hold exactly of
the records in which no field takes the name of another (`unharmed_iff`).
-/

namespace EthGateway.RenameTable

variable {t : RenameTable} {direction : Direction}

/-! ## Fields with one new name -/

/-- A field gets the name of another one, which the table leaves alone. -/
def Takes (t : RenameTable) (direction : Direction) (field other : String) : Prop :=
  t.lookup direction field = some other ∧ t.lookup direction other = none

theorem target_of_unlisted {field : String} (h : t.lookup direction field = none) :
    t.target direction field = field := by
  rw [target, h]
  rfl

theorem Takes.target {field other : String} (h : t.Takes direction field other) :
    t.target direction field = other := by
  rw [RenameTable.target, h.1]
  rfl

theorem Takes.ne {field other : String} (h : t.Takes direction field other) : field ≠ other := by
  rintro rfl
  have listed := h.1
  rw [h.2] at listed
  cases listed

/-- No two fields that are listed get one name. -/
theorem eq_of_lookup_eq_some {a b name : String} (ha : t.lookup direction a = some name)
    (hb : t.lookup direction b = some name) : a = b := by
  obtain ⟨p, hp, rfl, rfl⟩ := (lookup_eq_some_iff direction).1 ha
  obtain ⟨q, hq, rfl, same⟩ := (lookup_eq_some_iff direction).1 hb
  rw [List.inj_on_of_nodup_map (nodup_goal direction t) hq hp same]

/-- Of two fields with one new name, one takes the name of the other. -/
theorem takes_of_target_eq {a b : String} (same : t.target direction a = t.target direction b) :
    a = b ∨ t.Takes direction a b ∨ t.Takes direction b a := by
  unfold target at same
  cases ha : t.lookup direction a with
  | none =>
    cases hb : t.lookup direction b with
    | none => simpa [ha, hb] using Or.inl same
    | some name =>
      have kept : a = name := by simpa [ha, hb] using same
      exact .inr (.inr ⟨kept ▸ hb, ha⟩)
  | some name =>
    cases hb : t.lookup direction b with
    | none =>
      have kept : name = b := by simpa [ha, hb] using same
      exact .inr (.inl ⟨kept ▸ ha, hb⟩)
    | some name' =>
      have one : name = name' := by simpa [ha, hb] using same
      exact .inl (eq_of_lookup_eq_some ha (one ▸ hb))

/-! ## What is found under a name -/

section Members

variable {r : Record Json}

/-- The last of the fields with one new name is found. -/
theorem get?_renameMembers (name : String) :
    Record.get? (t.renameMembers direction r) name =
      (r.reverse.find? fun m => t.target direction m.1 = name).map Prod.snd := by
  rw [renameMembers, Record.get?_ofList, ← List.map_reverse, List.find?_map, Option.map_map]
  rfl

/-- Of the fields with one new name, the one with the greatest old name is found. -/
theorem get?_renameMembers_of_greatest (ordered : Record.Ordered r) {key name : String} {v : Json}
    (found : Record.get? r key = some v) (own : t.target direction key = name)
    (greatest : ∀ other ∈ Record.keys r, t.target direction other = name → ¬ key < other) :
    Record.get? (t.renameMembers direction r) name = some v := by
  have last : r.reverse.find? (fun m => t.target direction m.1 = name) = some (key, v) := by
    refine Record.find?_reverse_of_greatest ordered (Record.mem_of_get?_eq_some found) ?_ ?_
    · simpa using own
    · intro n hn same
      exact greatest n.1 (List.mem_map_of_mem hn) (by simpa using same)
  rw [get?_renameMembers, last, Option.map_some]

/-- The keys of a renamed record are the new names of its fields, each once. -/
theorem toFinset_keys_renameMembers :
    (Record.keys (t.renameMembers direction r)).toFinset =
      (Record.keys r).toFinset.image (t.target direction) := by
  ext name
  rw [List.mem_toFinset, mem_keys_renameMembers, Finset.mem_image]
  constructor
  · rintro ⟨m, hm, same⟩
    exact ⟨m.1, List.mem_toFinset.2 (List.mem_map_of_mem hm), same⟩
  · rintro ⟨key, hkey, same⟩
    obtain ⟨m, hm, rfl⟩ := List.mem_map.1 (List.mem_toFinset.1 hkey)
    exact ⟨m, hm, same⟩

theorem card_keys (ordered : Record.Ordered r) :
    (Record.keys r).toFinset.card = r.length := by
  rw [List.toFinset_card_of_nodup (Record.nodup_keys_of_ordered ordered), Record.keys,
    List.length_map]

theorem length_renameMembers :
    (t.renameMembers direction r).length =
      ((Record.keys r).toFinset.image (t.target direction)).card := by
  rw [← toFinset_keys_renameMembers]
  exact (card_keys (ordered_renameMembers t direction r)).symm

theorem length_renameMembers_le (ordered : Record.Ordered r) :
    (t.renameMembers direction r).length ≤ r.length := by
  rw [length_renameMembers, ← card_keys ordered]
  exact Finset.card_image_le

/-- A renamed record has as many fields as before exactly if none takes the name of another. -/
theorem length_renameMembers_eq_iff (ordered : Record.Ordered r) :
    (t.renameMembers direction r).length = r.length ↔
      ∀ field ∈ Record.keys r, ∀ other ∈ Record.keys r, ¬ t.Takes direction field other := by
  rw [length_renameMembers, ← card_keys ordered, Finset.card_image_iff, List.coe_toFinset]
  constructor
  · intro injective field hfield other hother takes
    have same : t.target direction field = t.target direction other :=
      takes.target.trans (target_of_unlisted takes.2).symm
    exact takes.ne (injective hfield hother same)
  · intro apart a ha b hb same
    rcases takes_of_target_eq same with equal | takes | takes
    · exact equal
    · exact absurd takes (apart a ha b hb)
    · exact absurd takes (apart b hb a ha)

end Members

/-! ## The fields that a table leaves alone -/

/-- Every field that the table leaves alone is there with its value, and no field is lost. -/
structure Unharmed (t : RenameTable) (direction : Direction) (r s : Record Json) : Prop where
  values : ∀ key v, Record.get? r key = some v → t.lookup direction key = none →
    Record.get? s key = some v
  number : s.length = r.length

/-- What becomes of the fields that the table leaves alone. -/
structure LeftAlone (t : RenameTable) (direction : Direction) (r s : Record Json) : Prop where
  /-- A field keeps its value, unless a later one takes its name. -/
  kept : ∀ key v, Record.get? r key = some v → t.lookup direction key = none →
    (∀ other ∈ Record.keys r, t.Takes direction other key → other < key) →
      Record.get? s key = some v
  /-- The value of a later field that takes its name is there instead. -/
  replaced : ∀ key taker v, Record.get? r taker = some v → t.Takes direction taker key →
    key < taker → Record.get? s key = some v
  fewer : s.length ≤ r.length

theorem leftAlone_renameMembers (t : RenameTable) (direction : Direction) {r : Record Json}
    (ordered : Record.Ordered r) : t.LeftAlone direction r (t.renameMembers direction r) := by
  refine ⟨?_, ?_, length_renameMembers_le ordered⟩
  · intro key v found unlisted earlier
    have own : t.target direction key = key := target_of_unlisted unlisted
    refine get?_renameMembers_of_greatest ordered found own ?_
    intro other hother same later
    rcases takes_of_target_eq (same.trans own.symm) with equal | takes | takes
    · exact String.lt_irrefl _ (equal ▸ later)
    · exact String.lt_asymm later (earlier other hother takes)
    · -- A field that the table leaves alone takes no name.
      rw [takes.1] at unlisted
      cases unlisted
  · intro key taker v found takes later
    refine get?_renameMembers_of_greatest ordered found takes.target ?_
    intro other _ same greater
    rcases takes_of_target_eq (same.trans takes.target.symm) with equal | takes' | takes'
    · exact String.lt_irrefl _ (equal ▸ greater)
    · -- The name that was taken is not that of a field that takes one.
      have unlisted := takes'.2
      rw [takes.1] at unlisted
      cases unlisted
    · have equal : other = key := Option.some.inj (takes'.1.symm.trans takes.1)
      exact String.lt_asymm later (equal ▸ greater)

/-- Renaming does no harm to the fields that the table leaves alone exactly if no field takes the
name of another. -/
theorem unharmed_iff (t : RenameTable) (direction : Direction) {r : Record Json}
    (ordered : Record.Ordered r) :
    ∃ s, t.rename direction (.obj r) = .obj s ∧ t.LeftAlone direction r s ∧
      (t.Unharmed direction r s ↔
        ∀ field ∈ Record.keys r, ∀ other ∈ Record.keys r, ¬ t.Takes direction field other) := by
  have alone := leftAlone_renameMembers t direction ordered
  refine ⟨_, rfl, alone, ?_⟩
  rw [← length_renameMembers_eq_iff ordered]
  constructor
  · intro unharmed
    exact unharmed.number
  · intro number
    refine ⟨?_, number⟩
    intro key v found unlisted
    refine alone.kept key v found unlisted ?_
    intro other hother takes
    have member : key ∈ Record.keys r :=
      List.mem_map_of_mem (f := Prod.fst) (Record.mem_of_get?_eq_some found)
    exact absurd takes ((length_renameMembers_eq_iff ordered).1 number other hother key member)

/-- The later one of two fields has stayed, under the name that both of them have inside. -/
theorem unharmed_iff_hash_inwards :
    let t : RenameTable :=
      ⟨"transaction", [("block_hash", "blockHash")], by decide, by decide⟩
    let r : Record Json := [("blockHash", .ofNat 2), ("block_hash", .ofNat 1), ("to", .null)]
    Record.Ordered r ∧
      ∃ s, t.rename .toInternal (.obj r) = .obj s ∧ t.LeftAlone .toInternal r s ∧
        (t.Unharmed .toInternal r s ↔
          ∀ field ∈ Record.keys r, ∀ other ∈ Record.keys r, ¬ t.Takes .toInternal field other) ∧
        s = [("block_hash", .ofNat 1), ("to", .null)] := by
  intro t r
  have ordered : Record.Ordered r := show List.Pairwise _ _ by decide +kernel
  obtain ⟨s, renamed, alone, exact_when⟩ := unharmed_iff t .toInternal ordered
  have value : t.rename .toInternal (.obj r) = .obj [("block_hash", .ofNat 1), ("to", .null)] := by
    decide +kernel
  refine ⟨ordered, s, renamed, alone, exact_when, ?_⟩
  exact Json.obj.inj (renamed.symm.trans value)

/-- A block's hash that is there under its wire name already is lost on the way to the wire. -/
theorem not_unharmed_hash :
    let pairs := [("block_hash", "blockHash")]
    let r : Record Json := [("blockHash", .ofNat 2), ("block_hash", .ofNat 1)]
    ∃ t, ofPairs "transaction" pairs = .ok t ∧ Record.Ordered r ∧
      Record.get? r "blockHash" = some (.ofNat 2) ∧ t.lookup .toWire "blockHash" = none ∧
      t.rename .toWire (.obj r) = .obj [("blockHash", .ofNat 1)] ∧
      ¬ ∃ s, t.rename .toWire (.obj r) = .obj s ∧ t.Unharmed .toWire r s := by
  intro pairs r
  let t : RenameTable := ⟨"transaction", pairs, by decide, by decide⟩
  have value : t.rename .toWire (.obj r) = .obj [("blockHash", .ofNat 1)] := by decide +kernel
  refine ⟨t, ofPairs_eq_ok_iff.2 ⟨rfl, rfl⟩, show List.Pairwise _ _ by decide +kernel,
    by decide, by decide, value, ?_⟩
  rintro ⟨s, renamed, unharmed⟩
  obtain rfl : s = [("blockHash", .ofNat 1)] := Json.obj.inj (renamed.symm.trans value)
  have lost : (1 : Nat) = 2 := unharmed.number
  cases lost

end EthGateway.RenameTable
