import EthGateway.Record
import Mathlib.Data.List.Forall2

/-
# EthGateway.Proofs.Record.Lookup -- what is found in a record

A look-up finds the first member under its key (`mem_of_get?_eq_some`) and fails only where there is
none (`get?_eq_none_iff`). In a record that was built from a list it finds the last one of the list
(`get?_ofList`), which is the first one if the keys differ (`find?_reverse_of_distinct`); their
order does not count then (`get?_of_perm`). An ordered record is the one that is built from its own
members (`ofList_of_ordered`), and there is no other with the same members (`eq_of_mem_iff`).

Changing the values and keeping the keys commutes with look-ups (`get?_map`), and so does dropping
members if the keys differ (`get?_filterMap`). Two records with the same keys, member by member, and
with related values under them (`Related`) stay so if both get a new member (`Related.insert`).
-/

namespace EthGateway.Record

variable {α β : Type}

theorem mem_of_get?_eq_some {r : Record α} {key : String} {value : α}
    (h : get? r key = some value) : (key, value) ∈ r := by
  induction r with
  | nil => simp at h
  | cons m r ih =>
    rw [get?_cons] at h
    split at h
    · next hk =>
      obtain rfl := Option.some.inj h
      rw [hk]
      exact List.mem_cons_self
    · exact List.mem_cons_of_mem _ (ih h)

theorem get?_eq_none_iff {r : Record α} {key : String} : get? r key = none ↔ key ∉ keys r := by
  induction r with
  | nil => simp [keys]
  | cons m r ih =>
    rw [get?_cons]
    split
    · next hk => simp [keys, hk]
    · next hk => rw [ih]; simp [keys, hk]

theorem contains_eq_true_iff {r : Record α} {key : String} :
    contains r key = true ↔ key ∈ keys r := by
  rw [contains, Option.isSome_iff_ne_none, ne_eq, get?_eq_none_iff, not_not]

/-- A member with a new key comes to the others. -/
theorem insert_perm {r : Record α} {key : String} (new : key ∉ keys r) (value : α) :
    (insert r key value).Perm ((key, value) :: r) := by
  induction r with
  | nil => exact .refl _
  | cons m r ih =>
    obtain ⟨different, new⟩ := not_or.1 fun h => new (List.mem_cons.2 h)
    rw [insert, if_neg different]
    split
    · exact .refl _
    · exact ((ih new).cons m).trans (.swap (key, value) m r)

/-- The keys of an ordered record differ from one another. -/
theorem nodup_keys_of_ordered {r : Record α} (h : Ordered r) : (keys r).Nodup := by
  rw [keys, List.nodup_iff_pairwise_ne, List.pairwise_map]
  refine h.imp ?_
  intro a b hlt heq
  exact String.lt_irrefl b.1 (heq ▸ hlt)

theorem get?_of_mem {r : Record α} (distinct : (keys r).Nodup) {m : String × α} (h : m ∈ r) :
    get? r m.1 = some m.2 := by
  induction r with
  | nil => simp at h
  | cons n r ih =>
    obtain ⟨hn, hr⟩ := List.nodup_cons.1 distinct
    rw [get?_cons]
    rcases List.mem_cons.1 h with rfl | h
    · rw [if_pos rfl]
    · have hne : m.1 ≠ n.1 := fun e => hn (e ▸ List.mem_map_of_mem h)
      rw [if_neg hne]
      exact ih hr h

theorem get?_eq_some_iff {r : Record α} (distinct : (keys r).Nodup) {key : String} {value : α} :
    get? r key = some value ↔ (key, value) ∈ r := by
  constructor
  · exact mem_of_get?_eq_some
  · intro h
    exact get?_of_mem distinct h

/-- The members of an ordered record are all there is to it. -/
theorem eq_of_mem_iff {r s : Record α} (hr : Ordered r) (hs : Ordered s)
    (h : ∀ m, m ∈ r ↔ m ∈ s) : r = s := by
  refine eq_of_get?_eq hr hs ?_
  intro key
  ext value
  rw [get?_eq_some_iff (nodup_keys_of_ordered hr), get?_eq_some_iff (nodup_keys_of_ordered hs)]
  exact h (key, value)

/-- Look-ups do not depend on the order of members with different keys. -/
theorem get?_of_perm {r s : Record α} (distinct : (keys r).Nodup) (h : r.Perm s) (key : String) :
    get? r key = get? s key := by
  have distinct' : (keys s).Nodup := (h.map Prod.fst).nodup_iff.1 distinct
  cases found : get? s key with
  | none =>
    rw [get?_eq_none_iff] at found ⊢
    intro hk
    exact found ((h.map Prod.fst).mem_iff.1 hk)
  | some v => exact get?_of_mem distinct (h.mem_iff.2 (mem_of_get?_eq_some found))

theorem mem_erase {r : Record α} {key : String} {m : String × α} :
    m ∈ erase r key ↔ m ∈ r ∧ m.1 ≠ key := by
  simp [erase]

theorem mem_keys_erase {r : Record α} {key k : String} :
    k ∈ keys (erase r key) ↔ k ∈ keys r ∧ k ≠ key := by
  constructor
  · intro h
    obtain ⟨m, hm, rfl⟩ := List.mem_map.1 h
    exact ⟨List.mem_map_of_mem (mem_erase.1 hm).1, (mem_erase.1 hm).2⟩
  · rintro ⟨h, hne⟩
    obtain ⟨m, hm, rfl⟩ := List.mem_map.1 h
    exact List.mem_map_of_mem (mem_erase.2 ⟨hm, hne⟩)

/-! ## Records that were built from a list -/

theorem get?_foldl_insert (r : Record α) (members : List (String × α)) (key : String) :
    get? (members.foldl (fun r m => insert r m.1 m.2) r) key =
      ((members.reverse.find? fun m => m.1 = key).map Prod.snd).or (get? r key) := by
  induction members generalizing r with
  | nil => simp
  | cons m members ih =>
    rw [List.foldl_cons, ih, get?_insert, List.reverse_cons, List.find?_append]
    by_cases hk : key = m.1
    · cases List.find? (fun m => decide (m.1 = key)) members.reverse <;> simp [hk]
    · cases List.find? (fun m => decide (m.1 = key)) members.reverse <;> simp [hk, Ne.symm hk]

/-- If the keys differ from one another, the last member under a key is the first one. -/
theorem find?_reverse_of_distinct {r : Record α} (distinct : (keys r).Nodup) (key : String) :
    (r.reverse.find? fun m => m.1 = key).map Prod.snd = get? r key := by
  cases found : r.reverse.find? (fun m => m.1 = key) with
  | none =>
    have absent : key ∉ keys r := by
      intro h
      obtain ⟨m, hm, rfl⟩ := List.mem_map.1 h
      simpa using List.find?_eq_none.1 found m (List.mem_reverse.2 hm)
    rw [get?_eq_none_iff.2 absent]
    rfl
  | some m =>
    have hk : m.1 = key := by simpa using List.find?_some found
    have hm : m ∈ r := List.mem_reverse.1 (List.mem_of_find?_eq_some found)
    rw [← hk, get?_of_mem distinct hm]
    rfl

/-- The last member of the list under the key is the one that stays. -/
theorem get?_ofList (members : List (String × α)) (key : String) :
    get? (ofList members) key = (members.reverse.find? fun m => m.1 = key).map Prod.snd := by
  rw [ofList, get?_foldl_insert, get?_nil, Option.or_none]

theorem ofList_of_ordered {r : Record α} (h : Ordered r) : ofList r = r := by
  refine eq_of_get?_eq (ordered_ofList r) h ?_
  intro key
  rw [get?_ofList, find?_reverse_of_distinct (nodup_keys_of_ordered h)]

/-- Backwards through an ordered record, the first member that passes a test is the greatest. -/
theorem find?_reverse_of_greatest {r : Record α} (ordered : Ordered r) {test : String × α → Bool}
    {m : String × α} (h : m ∈ r) (passes : test m = true)
    (greatest : ∀ n ∈ r, test n = true → ¬ m.1 < n.1) : r.reverse.find? test = some m := by
  cases found : r.reverse.find? test with
  | none => exact absurd passes (List.find?_eq_none.1 found m (List.mem_reverse.2 h))
  | some n =>
    obtain ⟨passes', front, back, cut, failed⟩ := List.find?_eq_some_iff_append.1 found
    have descending : (front ++ n :: back).Pairwise fun a b => b.1 < a.1 := by
      rw [← cut]
      exact List.pairwise_reverse.2 ordered
    have place : m ∈ front ++ n :: back := cut ▸ List.mem_reverse.2 h
    rcases List.mem_append.1 place with before | after
    · have fails := failed m before
      rw [passes] at fails
      cases fails
    · rcases List.mem_cons.1 after with rfl | behind
      · rfl
      · obtain ⟨-, rest, -⟩ := List.pairwise_append.1 descending
        have less : m.1 < n.1 := (List.pairwise_cons.1 rest).1 m behind
        have inRecord : n ∈ r := List.mem_reverse.1 (List.mem_of_find?_eq_some found)
        exact absurd less (greatest n inRecord passes')

/-- The first member that passes a test, backwards through an ordered record, has no greater one
that passes it too. -/
theorem greatest_of_find?_reverse {r : Record α} (ordered : Ordered r) {test : String × α → Bool}
    {m : String × α} (found : r.reverse.find? test = some m) {n : String × α} (h : n ∈ r)
    (passes : test n = true) : ¬ m.1 < n.1 := by
  intro greater
  obtain ⟨-, front, back, cut, failed⟩ := List.find?_eq_some_iff_append.1 found
  have descending : (front ++ m :: back).Pairwise fun a b => b.1 < a.1 := by
    rw [← cut]
    exact List.pairwise_reverse.2 ordered
  have place : n ∈ front ++ m :: back := cut ▸ List.mem_reverse.2 h
  rcases List.mem_append.1 place with before | after
  · have fails := failed n before
    rw [passes] at fails
    cases fails
  · rcases List.mem_cons.1 after with rfl | behind
    · exact String.lt_irrefl _ greater
    · obtain ⟨-, rest, -⟩ := List.pairwise_append.1 descending
      exact String.lt_asymm greater ((List.pairwise_cons.1 rest).1 n behind)

theorem mem_keys_ofList {members : List (String × α)} {key : String} :
    key ∈ keys (ofList members) ↔ ∃ m ∈ members, m.1 = key := by
  rw [← not_iff_not, ← get?_eq_none_iff, get?_ofList, Option.map_eq_none_iff,
    List.find?_eq_none]
  simp only [List.mem_reverse, decide_eq_true_eq, not_exists, not_and]

/-! ## Records with the same keys -/

theorem get?_map (g : String → α → β) (r : Record α) (key : String) :
    get? (List.map (fun m => (m.1, g m.1 m.2)) r) key = (get? r key).map (g key) := by
  induction r with
  | nil => rfl
  | cons m r ih =>
    rw [List.map_cons, get?_cons, get?_cons, ih]
    by_cases hk : key = m.1 <;> simp [hk]

/-- Changing the values of some members and dropping the others commutes with look-ups, if the keys
differ. -/
theorem get?_filterMap (g : α → Option β) {r : Record α} (distinct : (keys r).Nodup)
    (key : String) :
    get? (r.filterMap fun m => (g m.2).map fun w => (m.1, w)) key = (get? r key).bind g := by
  induction r with
  | nil => rfl
  | cons m r ih =>
    obtain ⟨fresh, rest⟩ := List.nodup_cons.1 distinct
    rw [get?_cons, List.filterMap_cons]
    cases kept : g m.2 with
    | none =>
      rw [Option.map_none]
      dsimp only
      rw [ih rest]
      split
      · next hk =>
        -- The member is dropped, and no other one is under its key.
        have absent : get? r key = none := get?_eq_none_iff.2 (hk ▸ fresh)
        rw [absent, Option.bind_some, kept]
        rfl
      · rfl
    | some w =>
      rw [Option.map_some]
      dsimp only
      rw [get?_cons]
      split
      · rw [Option.bind_some, kept]
      · exact ih rest

/-- Records with the same keys, member by member, and with related values under each. -/
abbrev Related (R : String → α → β → Prop) (r : Record α) (s : Record β) : Prop :=
  List.Forall₂ (fun m n => m.1 = n.1 ∧ R m.1 m.2 n.2) r s

section Related

variable {R : String → α → β → Prop} {r : Record α} {s : Record β}

/-- A new member goes to the same place in two records with the same keys. -/
theorem Related.insert (h : Related R r s) {key : String} {v : α} {w : β} (hvw : R key v w) :
    Related R (Record.insert r key v) (Record.insert s key w) := by
  induction h with
  | nil => exact .cons ⟨rfl, hvw⟩ .nil
  | @cons m n r s hmn hrs ih =>
    unfold Record.insert
    rw [← hmn.1]
    split
    · exact .cons ⟨rfl, hvw⟩ (.cons hmn hrs)
    · split
      · exact .cons ⟨rfl, hvw⟩ hrs
      · exact .cons hmn ih

theorem Related.get? (h : Related R r s) (key : String) :
    Option.Rel (R key) (Record.get? r key) (Record.get? s key) := by
  induction h with
  | nil => exact .none
  | @cons m n r s hmn hrs ih =>
    rw [get?_cons, get?_cons, ← hmn.1]
    split
    · next hk => exact .some (hk ▸ hmn.2)
    · exact ih

/-- Related members make related records. -/
theorem Related.ofList {xs : List (String × α)} {ys : List (String × β)} (h : Related R xs ys) :
    Related R (Record.ofList xs) (Record.ofList ys) := by
  have fold : ∀ {r : Record α} {s : Record β}, Related R r s →
      Related R (xs.foldl (fun r m => Record.insert r m.1 m.2) r)
        (ys.foldl (fun s n => Record.insert s n.1 n.2) s) := by
    induction h with
    | nil => exact id
    | @cons m n xs ys hmn _ ih =>
      intro r s hrs
      have inserted := hrs.insert hmn.2
      rw [List.foldl_cons, List.foldl_cons, ← hmn.1]
      exact ih inserted
  exact fold .nil

end Related

end EthGateway.Record
