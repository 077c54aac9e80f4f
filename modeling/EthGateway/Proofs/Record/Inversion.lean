import EthGateway.Proofs.Record.Collision

/-
# EthGateway.Proofs.Record.Inversion -- renaming there and back

A field comes back under its own name unless it came in under a name that the table has for the
other side only: such a name stays on the way there and is taken for the new name of another field
on the way back (`target_back`, `target_back_ne`). On a record without such names renaming moves the
members one by one (`mem_renameMembers_of_returns`), so the way back restores them; a record with
such a name never comes back, whatever else it holds. `rename_back_iff` says this for both directions. The
two sides of the table may share names, as they do where a table chains or swaps them.
-/

namespace EthGateway

/-- The way back. -/
def Direction.back : Direction → Direction
  | .toWire => .toInternal
  | .toInternal => .toWire

namespace RenameTable

variable {t : RenameTable} {direction : Direction}

@[simp] theorem source_back (p : String × String) : source direction.back p = goal direction p := by
  cases direction <;> rfl

@[simp] theorem goal_back (p : String × String) : goal direction.back p = source direction p := by
  cases direction <;> rfl

theorem map_source_back : t.pairs.map (source direction.back) = t.pairs.map (goal direction) :=
  List.map_congr_left fun p _ => source_back p

theorem map_goal_back : t.pairs.map (goal direction.back) = t.pairs.map (source direction) :=
  List.map_congr_left fun p _ => goal_back p

/-! ## Names -/

/-- If a name that the table has for the other side is one of this side as well, the field comes
back. -/
def Returns (t : RenameTable) (direction : Direction) (field : String) : Prop :=
  field ∈ t.pairs.map (goal direction) → field ∈ t.pairs.map (source direction)

theorem target_back {field : String} (h : t.Returns direction field) :
    t.target direction.back (t.target direction field) = field := by
  by_cases listed : field ∈ t.pairs.map (source direction)
  · obtain ⟨p, hp, rfl⟩ := List.mem_map.1 listed
    rw [target_source direction hp, ← source_back, target_source direction.back hp, goal_back]
  · have unlisted : field ∉ t.pairs.map (source direction.back) := by
      rw [map_source_back]
      exact fun other => listed (h other)
    rw [target_of_not_source direction listed, target_of_not_source direction.back unlisted]

/-- A field that does not come back is not there afterwards, under whatever name it was there. -/
theorem target_back_ne {field : String} (h : ¬ t.Returns direction field) (other : String) :
    t.target direction.back other ≠ field := by
  obtain ⟨there, notHere⟩ := Classical.not_imp.1 h
  obtain ⟨p, hp, rfl⟩ := List.mem_map.1 there
  rw [← source_back]
  refine target_ne_source direction.back hp ?_ other
  rwa [source_back, map_goal_back]

/-! ## Records -/

section Members

variable {r : Record Json}

/-- A field that shares its new name with no other is there under it. -/
theorem mem_renameMembers_of_mem (distinct : (Record.keys r).Nodup) {m : String × Json} (h : m ∈ r)
    (alone : ∀ other ∈ Record.keys r,
      t.target direction other = t.target direction m.1 → other = m.1) :
    (t.target direction m.1, m.2) ∈ t.renameMembers direction r := by
  obtain ⟨n, hn, same, found⟩ : ∃ n ∈ r, t.target direction n.1 = t.target direction m.1 ∧
      Record.get? (t.renameMembers direction r) (t.target direction m.1) = some n.2 :=
    exists_get?_renameMembers h
  have key : n.1 = m.1 := alone n.1 (List.mem_map_of_mem hn) same
  obtain rfl := List.inj_on_of_nodup_map distinct hn h key
  exact Record.mem_of_get?_eq_some found

theorem mem_renameMembers_of_returns (ordered : Record.Ordered r)
    (returns : ∀ key ∈ Record.keys r, t.Returns direction key) {m : String × Json} (h : m ∈ r) :
    (t.target direction m.1, m.2) ∈ t.renameMembers direction r := by
  refine mem_renameMembers_of_mem (Record.nodup_keys_of_ordered ordered) h ?_
  intro other hother same
  rw [← target_back (returns other hother), same,
    target_back (returns m.1 (List.mem_map_of_mem h))]

theorem renameMembers_back_of_returns (ordered : Record.Ordered r)
    (returns : ∀ key ∈ Record.keys r, t.Returns direction key) :
    t.renameMembers direction.back (t.renameMembers direction r) = r := by
  have back : ∀ m ∈ r, t.target direction.back (t.target direction m.1) = m.1 := by
    intro m hm
    exact target_back (returns m.1 (List.mem_map_of_mem hm))
  refine Record.eq_of_mem_iff (ordered_renameMembers t direction.back _) ordered ?_
  intro m
  constructor
  · intro h
    obtain ⟨n, hn, name, value⟩ := exists_of_mem_renameMembers h
    obtain ⟨l, hl, name', value'⟩ := exists_of_mem_renameMembers hn
    have same : m = l := by
      refine Prod.ext ?_ (value.symm.trans value'.symm)
      rw [← name, ← name', back l hl]
    exact same ▸ hl
  · intro h
    have there := mem_renameMembers_of_returns ordered returns h
    -- Whatever has this name after the way back had it at first.
    have alone : ∀ other ∈ Record.keys (t.renameMembers direction r),
        t.target direction.back other = t.target direction.back (t.target direction m.1) →
          other = t.target direction m.1 := by
      intro other hother same
      obtain ⟨l, hl, rfl⟩ := mem_keys_renameMembers.1 hother
      rw [back l hl, back m h] at same
      rw [same]
    have distinct := Record.nodup_keys_of_ordered (ordered_renameMembers t direction r)
    have again := mem_renameMembers_of_mem distinct there alone
    rwa [back m h] at again

/-- A record comes back exactly if none of its fields has a name that the table has for the other
side only. -/
theorem renameMembers_back_iff (ordered : Record.Ordered r) :
    t.renameMembers direction.back (t.renameMembers direction r) = r ↔
      ∀ key ∈ Record.keys r, t.Returns direction key := by
  constructor
  · intro same key hkey
    by_contra lost
    rw [← same] at hkey
    obtain ⟨m, -, name⟩ := mem_keys_renameMembers.1 hkey
    exact target_back_ne lost m.1 name
  · exact renameMembers_back_of_returns ordered

end Members

/-- Renaming is undone by renaming the other way exactly on the records without a name that the
table has for the other side only. -/
theorem rename_back_iff {name : String} {pairs : List (String × String)} {t : RenameTable}
    (accepted : ofPairs name pairs = .ok t) {r : Record Json} (ordered : Record.Ordered r) :
    (t.rename .toInternal (t.rename .toWire (.obj r)) = .obj r ↔
      ¬ ∃ key ∈ Record.keys r, key ∈ pairs.map Prod.snd ∧ key ∉ pairs.map Prod.fst) ∧
    (t.rename .toWire (t.rename .toInternal (.obj r)) = .obj r ↔
      ¬ ∃ key ∈ Record.keys r, key ∈ pairs.map Prod.fst ∧ key ∉ pairs.map Prod.snd) := by
  obtain ⟨-, rfl⟩ := ofPairs_eq_ok_iff.1 accepted
  have back : ∀ direction : Direction,
      t.rename direction.back (t.rename direction (.obj r)) = .obj r ↔
        ¬ ∃ key ∈ Record.keys r, key ∈ t.pairs.map (goal direction) ∧
          key ∉ t.pairs.map (source direction) := by
    intro direction
    show Json.obj (t.renameMembers direction.back (t.renameMembers direction r)) = .obj r ↔ _
    rw [Json.obj.injEq, renameMembers_back_iff ordered]
    simp only [Returns, not_exists, not_and, not_not]
  exact ⟨back .toWire, back .toInternal⟩

/-- In a table that chains names the second name is one of both sides, so a record with the first
two comes back; with the last one it does not, and the other way with the first it does not. -/
theorem rename_back_iff_chain :
    let pairs := [("a", "b"), ("b", "c")]
    let r : Record Json := [("a", .ofNat 1), ("b", .ofNat 2)]
    ∃ t, ofPairs "chain" pairs = .ok t ∧ Record.Ordered r ∧
      t.rename .toWire (.obj r) = .obj [("b", .ofNat 1), ("c", .ofNat 2)] ∧
      t.rename .toInternal (t.rename .toWire (.obj r)) = .obj r ∧
      t.rename .toWire (t.rename .toInternal (.obj r)) ≠ .obj r := by
  intro pairs r
  let t : RenameTable := ⟨"chain", pairs, by decide, by decide⟩
  have accepted : ofPairs "chain" pairs = .ok t := ofPairs_eq_ok_iff.2 ⟨rfl, rfl⟩
  have ordered : Record.Ordered r := show List.Pairwise _ _ by decide +kernel
  obtain ⟨outwards, inwards⟩ := rename_back_iff accepted ordered
  refine ⟨t, accepted, ordered, by decide +kernel, ?_, ?_⟩
  · rw [outwards]
    decide
  · rw [ne_eq, inwards]
    decide

end RenameTable

end EthGateway
