import EthGateway.Proofs.Record.Lookup
import EthGateway.RenameTable
import Mathlib.Data.List.Nodup

/-
# EthGateway.Proofs.Record.Renaming -- what a renamed record holds

A field that the table lists gets the other name of its pair (`target_source`), and any other keeps
its name (`target_of_not_source`). The keys of a renamed record are therefore the new names of the
old keys (`mem_keys_renameMembers`), and its members are old members under their new names
(`exists_of_mem_renameMembers`); of several members with one new name only one is there.

A name that the table has for one side only does not outlive the way to the other side
(`target_ne_source`). If this holds of all internal names, a record that goes out is as `OnWire`
describes it: none of these names is left, and two members meet only where both names of one pair
were there (`onWire_renameMembers`). Renaming such a record again the same way leaves it as it is
(`renameMembers_of_keys`).
-/

namespace EthGateway.RenameTable

/-! ## Tables of pairs -/

/-- Pairs are accepted as they are. -/
theorem ofPairs_eq_ok_iff {name : String} {pairs : List (String × String)} {t : RenameTable} :
    ofPairs name pairs = .ok t ↔ t.name = name ∧ t.pairs = pairs := by
  unfold ofPairs
  constructor
  · intro accepted
    split at accepted
    · cases accepted
      exact ⟨rfl, rfl⟩
    · cases accepted
  · rintro ⟨rfl, rfl⟩
    have fresh : firstRepeat [] [] t.pairs = none :=
      firstRepeat_eq_none_iff.2 ⟨⟨t.internal_nodup, nofun⟩, t.wire_nodup, nofun⟩
    split
    · rfl
    · next field repeated =>
      rw [fresh] at repeated
      cases repeated

/-! ## Names -/

/-- The name of a pair on the side that a record comes from. -/
def source : Direction → String × String → String
  | .toWire, p => p.1
  | .toInternal, p => p.2

/-- The name of a pair on the side that a record goes to. -/
def goal : Direction → String × String → String
  | .toWire, p => p.2
  | .toInternal, p => p.1

variable {t : RenameTable} (direction : Direction)

theorem lookup_eq (field : String) :
    t.lookup direction field =
      (t.pairs.find? fun p => source direction p = field).map (goal direction) := by
  cases direction <;> rfl

theorem nodup_source (t : RenameTable) : (t.pairs.map (source direction)).Nodup := by
  cases direction with
  | toWire => exact t.internal_nodup
  | toInternal => exact t.wire_nodup

theorem nodup_goal (t : RenameTable) : (t.pairs.map (goal direction)).Nodup := by
  cases direction with
  | toWire => exact t.wire_nodup
  | toInternal => exact t.internal_nodup

theorem lookup_source {p : String × String} (h : p ∈ t.pairs) :
    t.lookup direction (source direction p) = some (goal direction p) := by
  rw [lookup_eq]
  cases found : t.pairs.find? (fun q => source direction q = source direction p) with
  | none => simpa using List.find?_eq_none.1 found p h
  | some q =>
    have same : source direction q = source direction p := by simpa using List.find?_some found
    have listed : q ∈ t.pairs := List.mem_of_find?_eq_some found
    rw [List.inj_on_of_nodup_map (nodup_source direction t) listed h same]
    rfl

theorem lookup_eq_none_iff {field : String} :
    t.lookup direction field = none ↔ field ∉ t.pairs.map (source direction) := by
  constructor
  · intro unknown listed
    obtain ⟨p, hp, rfl⟩ := List.mem_map.1 listed
    rw [lookup_source direction hp] at unknown
    cases unknown
  · intro unlisted
    rw [lookup_eq, Option.map_eq_none_iff, List.find?_eq_none]
    intro p hp
    simpa using fun same : source direction p = field => unlisted (same ▸ List.mem_map_of_mem hp)

theorem lookup_eq_some_iff {field name : String} :
    t.lookup direction field = some name ↔
      ∃ p ∈ t.pairs, source direction p = field ∧ goal direction p = name := by
  constructor
  · intro found
    by_cases listed : field ∈ t.pairs.map (source direction)
    · obtain ⟨p, hp, rfl⟩ := List.mem_map.1 listed
      rw [lookup_source direction hp] at found
      exact ⟨p, hp, rfl, Option.some.inj found⟩
    · rw [(lookup_eq_none_iff direction).2 listed] at found
      cases found
  · rintro ⟨p, hp, rfl, rfl⟩
    exact lookup_source direction hp

/-- A listed field gets the other name of its pair. -/
theorem target_source {p : String × String} (h : p ∈ t.pairs) :
    t.target direction (source direction p) = goal direction p := by
  rw [target, lookup_source direction h]
  rfl

/-- A field that is not listed keeps its name. -/
theorem target_of_not_source {field : String} (h : field ∉ t.pairs.map (source direction)) :
    t.target direction field = field := by
  rw [target, (lookup_eq_none_iff direction).2 h]
  rfl

/-- Only the field itself gets a name that the table does not have for the side that the record goes
to. -/
theorem eq_of_target_eq {field name : String} (h : t.target direction field = name)
    (unnamed : name ∉ t.pairs.map (goal direction)) : field = name := by
  by_cases listed : field ∈ t.pairs.map (source direction)
  · obtain ⟨p, hp, rfl⟩ := List.mem_map.1 listed
    rw [target_source direction hp] at h
    exact absurd (h ▸ List.mem_map_of_mem hp) unnamed
  · rwa [target_of_not_source direction listed] at h

/-- No field gets a name that the table has only for the side that the record comes from. -/
theorem target_ne_source {p : String × String} (h : p ∈ t.pairs)
    (only : source direction p ∉ t.pairs.map (goal direction)) (field : String) :
    t.target direction field ≠ source direction p := by
  intro same
  obtain rfl := eq_of_target_eq direction same only
  rw [target_source direction h] at same
  exact only (same ▸ List.mem_map_of_mem h)

/-! ## Members -/

section Members

variable {direction} {r : Record Json}

theorem ordered_renameMembers (t : RenameTable) (direction : Direction) (r : Record Json) :
    Record.Ordered (t.renameMembers direction r) :=
  Record.ordered_ofList _

theorem mem_keys_renameMembers {key : String} :
    key ∈ Record.keys (t.renameMembers direction r) ↔ ∃ m ∈ r, t.target direction m.1 = key := by
  rw [renameMembers, Record.mem_keys_ofList]
  constructor
  · rintro ⟨_, renamed, rfl⟩
    obtain ⟨m, hm, rfl⟩ := List.mem_map.1 renamed
    exact ⟨m, hm, rfl⟩
  · rintro ⟨m, hm, rfl⟩
    exact ⟨_, List.mem_map_of_mem hm, rfl⟩

theorem exists_of_mem_renameMembers {n : String × Json} (h : n ∈ t.renameMembers direction r) :
    ∃ m ∈ r, t.target direction m.1 = n.1 ∧ m.2 = n.2 := by
  have renamed := Record.mem_of_mem_ofList h
  obtain ⟨m, hm, rfl⟩ := List.mem_map.1 renamed
  exact ⟨m, hm, rfl, rfl⟩

/-- What is found under the new name of a member is the value of a member with this new name. -/
theorem exists_get?_renameMembers {m : String × Json} (h : m ∈ r) :
    ∃ n ∈ r, t.target direction n.1 = t.target direction m.1 ∧
      Record.get? (t.renameMembers direction r) (t.target direction m.1) = some n.2 := by
  have present : t.target direction m.1 ∈ Record.keys (t.renameMembers direction r) :=
    mem_keys_renameMembers.2 ⟨m, h, rfl⟩
  cases found : Record.get? (t.renameMembers direction r) (t.target direction m.1) with
  | none => exact absurd present (Record.get?_eq_none_iff.1 found)
  | some v =>
    obtain ⟨n, hn, name, value⟩ :=
      exists_of_mem_renameMembers (Record.mem_of_get?_eq_some found)
    exact ⟨n, hn, name, congrArg some value.symm⟩

/-- Two records with related members have them under the new names as well. -/
theorem related_renameMembers {R S : String → Json → Json → Prop} {r s : Record Json}
    (h : Record.Related R r s) (imp : ∀ key v w, R key v w → S (t.target direction key) v w) :
    Record.Related S (t.renameMembers direction r) (t.renameMembers direction s) := by
  refine Record.Related.ofList ?_
  unfold Record.Related
  rw [List.forall₂_map_left_iff, List.forall₂_map_right_iff]
  refine h.imp ?_
  rintro ⟨key, v⟩ ⟨_, w⟩ ⟨rfl, related⟩
  exact ⟨rfl, imp key v w related⟩

end Members

/-! ## Records on the wire -/

/-- The name that a field has on the wire: that of its pair, or its own if it has none. -/
def WireName (t : RenameTable) (field name : String) : Prop :=
  (field, name) ∈ t.pairs ∨ field ∉ t.pairs.map Prod.fst ∧ name = field

/-- No internal name is a wire name as well. -/
def Apart (t : RenameTable) : Prop := ∀ p ∈ t.pairs, p.1 ∉ t.pairs.map Prod.snd

theorem wireName_iff {field name : String} :
    t.WireName field name ↔ t.target .toWire field = name := by
  by_cases listed : field ∈ t.pairs.map Prod.fst
  · obtain ⟨p, hp, rfl⟩ := List.mem_map.1 listed
    have target : t.target .toWire p.1 = p.2 := target_source .toWire hp
    rw [target, WireName]
    constructor
    · rintro (pair | ⟨unlisted, -⟩)
      · exact congrArg Prod.snd (List.inj_on_of_nodup_map t.internal_nodup hp pair rfl)
      · exact absurd listed unlisted
    · rintro rfl
      exact .inl hp
  · have target : t.target .toWire field = field :=
      target_of_not_source .toWire listed
    rw [target, WireName]
    constructor
    · rintro (pair | ⟨-, rfl⟩)
      · exact absurd (List.mem_map_of_mem pair) listed
      · rfl
    · rintro rfl
      exact .inr ⟨listed, rfl⟩

/-- The wire name of a pair is that of its two names only. -/
theorem wireName_pair_iff (apart : t.Apart) {p : String × String} (h : p ∈ t.pairs)
    {field : String} : t.WireName field p.2 ↔ field = p.1 ∨ field = p.2 := by
  constructor
  · rintro (pair | ⟨-, same⟩)
    · exact .inl (congrArg Prod.fst (List.inj_on_of_nodup_map t.wire_nodup pair h rfl))
    · exact .inr same.symm
  · rintro (rfl | rfl)
    · exact .inl h
    · refine .inr ⟨?_, rfl⟩
      intro internal
      obtain ⟨q, hq, same⟩ := List.mem_map.1 internal
      exact apart q hq (same ▸ List.mem_map_of_mem h)

/-- Fields with one wire name are the same, or the two names of a pair. -/
theorem eq_of_wireName (apart : t.Apart) {field other name : String}
    (h : t.WireName field name) (h' : t.WireName other name)
    (unpaired : ∀ p ∈ t.pairs, ¬ (field = p.1 ∧ other = p.2) ∧ ¬ (field = p.2 ∧ other = p.1)) :
    other = field := by
  by_cases wire : name ∈ t.pairs.map Prod.snd
  · obtain ⟨p, hp, rfl⟩ := List.mem_map.1 wire
    obtain ⟨one, two⟩ := unpaired p hp
    rcases (wireName_pair_iff apart hp).1 h with rfl | rfl
    · exact ((wireName_pair_iff apart hp).1 h').resolve_right fun same => one ⟨rfl, same⟩
    · exact ((wireName_pair_iff apart hp).1 h').resolve_left fun same => two ⟨rfl, same⟩
  · -- A name that is no wire name is nobody's but its own.
    have own : ∀ f, t.WireName f name → name = f := by
      rintro f (pair | ⟨-, same⟩)
      · exact absurd (List.mem_map_of_mem pair) wire
      · exact same
    rw [← own field h, ← own other h']

/-- A record in the names of the wire, made of one in the internal names. Values may be changed on
the way, each as its field allows. -/
structure OnWire (t : RenameTable) (changed : String → Json → Json → Prop) (r s : Record Json) :
    Prop where
  ordered : Record.Ordered s
  /-- No internal name is left. -/
  gone : ∀ p ∈ t.pairs, p.1 ∉ Record.keys s
  /-- A field is there under its wire name, with its value, unless the other name of its pair was
  there too. -/
  kept : ∀ m ∈ r,
    (∀ p ∈ t.pairs, m.1 = p.1 ∨ m.1 = p.2 → p.1 ∉ Record.keys r ∨ p.2 ∉ Record.keys r) →
    ∀ name, t.WireName m.1 name → ∃ v, Record.get? s name = some v ∧ changed m.1 m.2 v
  /-- Of two fields under both names of a pair, one is there. -/
  collapsed : ∀ p ∈ t.pairs, ∀ a b, (p.1, a) ∈ r → (p.2, b) ∈ r →
    ∃ v, Record.get? s p.2 = some v ∧ (changed p.1 a v ∨ changed p.2 b v)
  /-- Nothing else is there. -/
  fromOld : ∀ n ∈ s, ∃ m ∈ r, t.WireName m.1 n.1 ∧ changed m.1 m.2 n.2

/-- Change the values of a record as their fields allow, then rename the fields. -/
theorem onWire_renameMembers (apart : t.Apart) (changed : String → Json → Json → Prop)
    (change : String → Json → Json) {r : Record Json} (ordered : Record.Ordered r)
    (allowed : ∀ m ∈ r, changed m.1 m.2 (change m.1 m.2)) :
    OnWire t changed r
      (t.renameMembers .toWire (List.map (fun m => (m.1, change m.1 m.2)) r)) := by
  have distinct := Record.nodup_keys_of_ordered ordered
  -- Whatever is found under a wire name is the changed value of a field with this wire name.
  have found : ∀ m ∈ r, ∀ name, t.WireName m.1 name → ∃ n ∈ r, t.WireName n.1 name ∧
      Record.get? (t.renameMembers .toWire (List.map (fun m => (m.1, change m.1 m.2)) r)) name
        = some (change n.1 n.2) := by
    intro m hm name wire
    obtain rfl := wireName_iff.1 wire
    obtain ⟨_, changedMember, same, value⟩ := exists_get?_renameMembers
      (List.mem_map_of_mem (f := fun m => (m.1, change m.1 m.2)) hm)
    obtain ⟨n, hn, rfl⟩ := List.mem_map.1 changedMember
    exact ⟨n, hn, wireName_iff.2 same, value⟩
  refine ⟨Record.ordered_ofList _, ?_, ?_, ?_, ?_⟩
  · intro p hp present
    obtain ⟨m, _, same⟩ := mem_keys_renameMembers.1 present
    exact target_ne_source .toWire hp (apart p hp) m.1 same
  · intro m hm unpaired name wire
    -- Another field with this wire name would be the other one of a pair.
    obtain ⟨n, hn, wire', value⟩ := found m hm name wire
    have here : ∀ {l : String × Json}, l ∈ r → l.1 ∈ Record.keys r := List.mem_map_of_mem
    have same : n.1 = m.1 := by
      refine eq_of_wireName apart wire wire' ?_
      intro p hp
      refine ⟨?_, ?_⟩
      · rintro ⟨first, second⟩
        exact (unpaired p hp (.inl first)).elim (· (first ▸ here hm)) (· (second ▸ here hn))
      · rintro ⟨second, first⟩
        exact (unpaired p hp (.inr second)).elim (· (first ▸ here hn)) (· (second ▸ here hm))
    obtain rfl := List.inj_on_of_nodup_map distinct hn hm same
    exact ⟨_, value, allowed n hn⟩
  · intro p hp a b ha hb
    obtain ⟨n, hn, wire, value⟩ := found (p.1, a) ha p.2 (.inl hp)
    refine ⟨_, value, ?_⟩
    rcases (wireName_pair_iff apart hp).1 wire with same | same
    · obtain rfl := List.inj_on_of_nodup_map distinct hn ha same
      exact .inl (allowed _ hn)
    · obtain rfl := List.inj_on_of_nodup_map distinct hn hb same
      exact .inr (allowed _ hn)
  · intro n hn
    obtain ⟨_, changedMember, wire, value⟩ := exists_of_mem_renameMembers hn
    obtain ⟨m, hm, rfl⟩ := List.mem_map.1 changedMember
    exact ⟨m, hm, wireName_iff.2 wire, value ▸ allowed m hm⟩

/-! ## Renaming again -/

/-- An ordered record whose fields all keep their names stays. -/
theorem renameMembers_of_fixed {r : Record Json} (ordered : Record.Ordered r)
    (fixed : ∀ key ∈ Record.keys r, t.target direction key = key) :
    t.renameMembers direction r = r := by
  have same : List.map (fun m => (t.target direction m.1, m.2)) r = List.map id r := by
    refine List.map_congr_left fun m hm => ?_
    rw [fixed m.1 (List.mem_map_of_mem hm)]
    rfl
  rw [renameMembers, same, List.map_id, Record.ofList_of_ordered ordered]

section Again

variable (apart : t.Apart)
include apart

/-- A name of the side that a record goes to is none of the side that it comes from. -/
theorem goal_not_mem_source {p : String × String} (h : p ∈ t.pairs) :
    goal direction p ∉ t.pairs.map (source direction) := by
  intro shared
  obtain ⟨q, hq, same⟩ := List.mem_map.1 shared
  cases direction with
  | toWire => exact apart q hq (List.mem_map.2 ⟨p, h, same.symm⟩)
  | toInternal => exact apart p h (List.mem_map.2 ⟨q, hq, same⟩)

theorem target_target (field : String) :
    t.target direction (t.target direction field) = t.target direction field := by
  by_cases listed : field ∈ t.pairs.map (source direction)
  · obtain ⟨p, hp, rfl⟩ := List.mem_map.1 listed
    rw [target_source direction hp,
      target_of_not_source direction (goal_not_mem_source direction apart hp)]
  · rw [target_of_not_source direction listed, target_of_not_source direction listed]

/-- Fields of a renamed record keep their names. -/
theorem renameMembers_of_keys {r s : Record Json} (ordered : Record.Ordered s)
    (renamed : ∀ key ∈ Record.keys s, key ∈ Record.keys (t.renameMembers direction r)) :
    t.renameMembers direction s = s := by
  refine renameMembers_of_fixed direction ordered ?_
  intro key hkey
  obtain ⟨m, -, rfl⟩ := mem_keys_renameMembers.1 (renamed key hkey)
  exact target_target direction apart m.1

end Again

end EthGateway.RenameTable
