import EthGateway.Proofs.Record.Renaming
import EthGateway.Proofs.Steps

/-
# EthGateway.Proofs.Record.Bijection -- tables are one to one

Pairs make a table exactly if no name is used twice in one role (`Distinct`). The two look-ups of a
table then undo one another, since each of them finds the pairs and nothing else. Of other pairs
the first that uses a name again is at fault, and its internal name is reported if that is the one
that was used before, else its wire name (`FirstRepeated`).

The same is true if the two directions are two maps that are filled pair by pair (`Maps.fill`): each
pair that goes in is the only one that comes to either map (`Maps.holds_enter`), so the maps stay
inverse to one another, and the first pair that finds one of its names in its map is where the
filling ends (`Maps.fill_eq_error_iff`).
-/

namespace EthGateway.RenameTable

/-! ## Names that are used again -/

/-- No internal name and no wire name is used twice. -/
def Distinct (pairs : List (String × String)) : Prop :=
  (pairs.map Prod.fst).Nodup ∧ (pairs.map Prod.snd).Nodup

/-- The name of a pair that earlier pairs use in its role, the internal one before the other. -/
inductive Repeats (earlier : List (String × String)) (p : String × String) : String → Prop
  | internal (used : p.1 ∈ earlier.map Prod.fst) : Repeats earlier p p.1
  | wire (new : p.1 ∉ earlier.map Prod.fst) (used : p.2 ∈ earlier.map Prod.snd) :
      Repeats earlier p p.2

/-- The name that the first pair to use a name again has from earlier pairs. -/
def FirstRepeated (pairs : List (String × String)) (field : String) : Prop :=
  ∃ earlier p later, pairs = earlier ++ p :: later ∧ Distinct earlier ∧ Repeats earlier p field

theorem Repeats.not_distinct {earlier : List (String × String)} {p : String × String}
    {field : String} (h : Repeats earlier p field) (later : List (String × String)) :
    ¬ Distinct (earlier ++ p :: later) := by
  rintro ⟨internals, wires⟩
  rw [List.map_append, List.map_cons] at internals wires
  cases h with
  | internal used => exact List.disjoint_of_nodup_append internals used List.mem_cons_self
  | wire _ used => exact List.disjoint_of_nodup_append wires used List.mem_cons_self

/-! ## Two maps, one for each direction -/

/-- The names of each side by those of the other. -/
structure Maps where
  toWire : Record String
  toInternal : Record String

namespace Maps

/-- No names. -/
def empty : Maps := ⟨[], []⟩

/-- Enter a pair into both maps, unless one of its names is there already. -/
def enter (m : Maps) (p : String × String) : Except String Maps :=
  if Record.contains m.toWire p.1 then .error p.1
  else if Record.contains m.toInternal p.2 then .error p.2
  else .ok ⟨Record.insert m.toWire p.1 p.2, Record.insert m.toInternal p.2 p.1⟩

/-- Enter pairs one after the other. -/
def fill (pairs : List (String × String)) : Except String Maps := pairs.foldlM enter empty

/-- The name that a field is renamed to. -/
def lookup (m : Maps) : Direction → String → Option String
  | .toWire => Record.get? m.toWire
  | .toInternal => Record.get? m.toInternal

/-- The members of each map are the pairs, and no name is used twice among them. -/
structure Holds (m : Maps) (pairs : List (String × String)) : Prop where
  distinct : Distinct pairs
  toWire : m.toWire.Perm pairs
  toInternal : m.toInternal.Perm (pairs.map Prod.swap)

theorem holds_empty : Holds empty [] := ⟨⟨.nil, .nil⟩, .nil, .nil⟩

section Entering

variable {m : Maps} {earlier : List (String × String)} (h : Holds m earlier) {p : String × String}

include h

theorem Holds.keys_toWire : (Record.keys m.toWire).Perm (earlier.map Prod.fst) :=
  h.toWire.map Prod.fst

theorem Holds.keys_toInternal : (Record.keys m.toInternal).Perm (earlier.map Prod.snd) := by
  have swapped : (earlier.map Prod.swap).map Prod.fst = earlier.map Prod.snd := by simp
  rw [← swapped]
  exact h.toInternal.map Prod.fst

theorem Holds.contains_toWire_iff {i : String} :
    Record.contains m.toWire i = true ↔ i ∈ earlier.map Prod.fst :=
  Record.contains_eq_true_iff.trans h.keys_toWire.mem_iff

theorem Holds.contains_toInternal_iff {w : String} :
    Record.contains m.toInternal w = true ↔ w ∈ earlier.map Prod.snd :=
  Record.contains_eq_true_iff.trans h.keys_toInternal.mem_iff

/-- A pair is refused for the name that it has from the pairs that are there. -/
theorem enter_eq_error_iff {field : String} :
    m.enter p = .error field ↔ Repeats earlier p field := by
  unfold enter
  by_cases used : p.1 ∈ earlier.map Prod.fst
  · rw [if_pos (h.contains_toWire_iff.2 used)]
    constructor
    · rintro ⟨⟩
      exact .internal used
    · rintro (_ | ⟨new, -⟩)
      · rfl
      · exact absurd used new
  · rw [if_neg (mt h.contains_toWire_iff.1 used)]
    by_cases used' : p.2 ∈ earlier.map Prod.snd
    · rw [if_pos (h.contains_toInternal_iff.2 used')]
      constructor
      · rintro ⟨⟩
        exact .wire used used'
      · rintro (there | _)
        · exact absurd there used
        · rfl
    · rw [if_neg (mt h.contains_toInternal_iff.1 used')]
      refine iff_of_false nofun ?_
      rintro (there | ⟨-, there⟩)
      · exact used there
      · exact used' there

theorem not_repeats_of_enter {n : Maps} (entered : m.enter p = .ok n) {field : String} :
    ¬ Repeats earlier p field := by
  intro again
  rw [(enter_eq_error_iff h).2 again] at entered
  cases entered

/-- A pair that goes in is the only one that comes to either map. -/
theorem holds_enter {n : Maps} (entered : m.enter p = .ok n) : Holds n (earlier ++ [p]) := by
  unfold enter at entered
  split at entered
  · cases entered
  · next newInternal =>
    split at entered
    · cases entered
    · next newWire =>
      cases entered
      have last : (p :: earlier).Perm (earlier ++ [p]) :=
        (List.perm_append_singleton p earlier).symm
      have toWire := Record.insert_perm (mt Record.contains_eq_true_iff.2 newInternal) p.2
      have toInternal := Record.insert_perm (mt Record.contains_eq_true_iff.2 newWire) p.1
      refine ⟨⟨?_, ?_⟩, ?_, ?_⟩
      · rw [← (last.map Prod.fst).nodup_iff]
        exact List.nodup_cons.2 ⟨mt h.contains_toWire_iff.2 newInternal, h.distinct.1⟩
      · rw [← (last.map Prod.snd).nodup_iff]
        exact List.nodup_cons.2 ⟨mt h.contains_toInternal_iff.2 newWire, h.distinct.2⟩
      · exact (toWire.trans (h.toWire.cons p)).trans last
      · exact (toInternal.trans (h.toInternal.cons p.swap)).trans (last.map Prod.swap)

end Entering

section Filling

variable {m : Maps} {pairs : List (String × String)}

theorem holds_foldlM {earlier : List (String × String)} (h : Holds m earlier) {n : Maps}
    (filled : pairs.foldlM enter m = .ok n) : Holds n (earlier ++ pairs) := by
  induction pairs generalizing m earlier with
  | nil =>
    cases filled
    rwa [List.append_nil]
  | cons p pairs ih =>
    rw [List.foldlM_cons] at filled
    obtain ⟨k, entered, filled⟩ := bind_eq_ok_iff.1 filled
    have all := ih (holds_enter h entered) filled
    rwa [List.append_assoc] at all

theorem holds_fill {n : Maps} (filled : fill pairs = .ok n) : Holds n pairs :=
  holds_foldlM holds_empty filled

theorem exists_fill_iff : (∃ n, fill pairs = .ok n) ↔ Distinct pairs := by
  constructor
  · rintro ⟨n, filled⟩
    exact (holds_fill filled).distinct
  · intro distinct
    cases filled : fill pairs with
    | ok n => exact ⟨n, rfl⟩
    | error field =>
      obtain ⟨earlier, p, later, k, rfl, before, refused⟩ := foldlM_eq_error_iff.1 filled
      have again := (enter_eq_error_iff (holds_fill before)).1 refused
      exact absurd distinct (again.not_distinct later)

/-- The filling ends at the first pair that uses a name again. -/
theorem fill_eq_error_iff {field : String} :
    fill pairs = .error field ↔ FirstRepeated pairs field := by
  rw [fill, foldlM_eq_error_iff]
  constructor
  · rintro ⟨earlier, p, later, k, rfl, before, refused⟩
    have h := holds_fill before
    exact ⟨earlier, p, later, rfl, h.distinct, (enter_eq_error_iff h).1 refused⟩
  · rintro ⟨earlier, p, later, rfl, distinct, again⟩
    obtain ⟨k, before⟩ := exists_fill_iff.2 distinct
    exact ⟨earlier, p, later, k, rfl, before, (enter_eq_error_iff (holds_fill before)).2 again⟩

/-- A loop that only remembers which names it has seen ends at the same name. -/
theorem firstRepeat_eq_some_iff_foldlM {earlier : List (String × String)} (h : Holds m earlier)
    {internals wires : List String} (seen : ∀ i, i ∈ internals ↔ i ∈ earlier.map Prod.fst)
    (seen' : ∀ w, w ∈ wires ↔ w ∈ earlier.map Prod.snd) {field : String} :
    firstRepeat internals wires pairs = some field ↔ pairs.foldlM enter m = .error field := by
  induction pairs generalizing m earlier internals wires with
  | nil => exact ⟨nofun, nofun⟩
  | cons p pairs ih =>
    rw [List.foldlM_cons, firstRepeat]
    -- The maps and the lists have the same names, so both stop at this pair or both go on.
    cases entered : m.enter p with
    | error name =>
      have ends : ((Except.error name : Except String Maps) >>= fun n => pairs.foldlM enter n)
          = .error field ↔ name = field := ⟨Except.error.inj, congrArg Except.error⟩
      rw [ends]
      rcases (enter_eq_error_iff h).1 entered with used | ⟨new, used⟩
      · rw [if_pos ((seen p.1).2 used), Option.some.injEq]
      · rw [if_neg (mt (seen p.1).1 new), if_pos ((seen' p.2).2 used), Option.some.injEq]
    | ok n =>
      have new : p.1 ∉ internals := fun used =>
        not_repeats_of_enter h entered (.internal ((seen p.1).1 used))
      have new' : p.2 ∉ wires := fun used =>
        not_repeats_of_enter h entered (.wire (mt (seen p.1).2 new) ((seen' p.2).1 used))
      rw [if_neg new, if_neg new']
      refine ih (holds_enter h entered) ?_ ?_
      · intro i
        simp [seen, or_comm]
      · intro w
        simp [seen', or_comm]

theorem firstRepeat_eq_some_iff {field : String} :
    firstRepeat [] [] pairs = some field ↔ FirstRepeated pairs field := by
  rw [← fill_eq_error_iff]
  exact firstRepeat_eq_some_iff_foldlM holds_empty (fun _ => Iff.rfl) fun _ => Iff.rfl

theorem Holds.lookup_eq_some_iff (h : Holds m pairs) (direction : Direction)
    {field name : String} :
    m.lookup direction field = some name ↔
      ∃ p ∈ pairs, source direction p = field ∧ goal direction p = name := by
  cases direction with
  | toWire =>
    have distinct : (Record.keys m.toWire).Nodup := h.keys_toWire.nodup_iff.2 h.distinct.1
    rw [lookup, Record.get?_eq_some_iff distinct, h.toWire.mem_iff]
    simp [source, goal]
  | toInternal =>
    have distinct : (Record.keys m.toInternal).Nodup := h.keys_toInternal.nodup_iff.2 h.distinct.2
    rw [lookup, Record.get?_eq_some_iff distinct, h.toInternal.mem_iff]
    simp [source, goal]

end Filling

end Maps

/-! ## Tables -/

theorem ofPairs_eq_error_iff {name : String} {pairs : List (String × String)} {c : Clash} :
    ofPairs name pairs = .error c ↔ c.table = name ∧ FirstRepeated pairs c.field := by
  rw [← Maps.firstRepeat_eq_some_iff]
  unfold ofPairs
  split
  · next none => simp [none]
  · next field again =>
    rw [again]
    obtain ⟨table, reported⟩ := c
    simp [eq_comm]

/-- The two look-ups of a table undo one another: they find its pairs and nothing else. Two maps
that are filled with the pairs find the same. -/
structure OneToOne (t : RenameTable) (pairs : List (String × String)) : Prop where
  toWire : ∀ i w, t.lookup .toWire i = some w ↔ (i, w) ∈ pairs
  toInternal : ∀ i w, t.lookup .toInternal w = some i ↔ (i, w) ∈ pairs
  size : t.size = pairs.length
  maps : ∃ m, Maps.fill pairs = .ok m ∧ (∀ direction, m.lookup direction = t.lookup direction) ∧
    m.toWire.length = t.size ∧ m.toInternal.length = t.size

theorem oneToOne_pairs (t : RenameTable) : OneToOne t t.pairs := by
  refine ⟨?_, ?_, rfl, ?_⟩
  · intro i w
    rw [lookup_eq_some_iff]
    simp [source, goal]
  · intro i w
    rw [lookup_eq_some_iff]
    simp [source, goal]
  · obtain ⟨m, filled⟩ := Maps.exists_fill_iff.2 ⟨t.internal_nodup, t.wire_nodup⟩
    have h := Maps.holds_fill filled
    refine ⟨m, filled, ?_, h.toWire.length_eq, ?_⟩
    · intro direction
      funext field
      refine Option.ext fun name => ?_
      rw [h.lookup_eq_some_iff, lookup_eq_some_iff]
    · rw [h.toInternal.length_eq, List.length_map, size]

/-- Pairs make a table exactly if no name is used twice in one role, and the table is one to one.
Otherwise the name that is reported is of the first pair that uses a name again, the internal one if
that is used again and else the wire name. -/
theorem oneToOne_of_pairs (name : String) (pairs : List (String × String)) :
    ((∃ t, ofPairs name pairs = .ok t) ↔
      (pairs.map Prod.fst).Nodup ∧ (pairs.map Prod.snd).Nodup) ∧
    (∀ t, ofPairs name pairs = .ok t → t.name = name ∧ OneToOne t pairs) ∧
    (∀ c, ofPairs name pairs = .error c ↔ c.table = name ∧ FirstRepeated pairs c.field) ∧
    ∀ field, Maps.fill pairs = .error field ↔ FirstRepeated pairs field := by
  refine ⟨?_, ?_, fun _ => ofPairs_eq_error_iff, fun _ => Maps.fill_eq_error_iff⟩
  · constructor
    · rintro ⟨t, built⟩
      obtain ⟨-, rfl⟩ := ofPairs_eq_ok_iff.1 built
      exact ⟨t.internal_nodup, t.wire_nodup⟩
    · rintro ⟨internals, wires⟩
      exact ⟨⟨name, pairs, internals, wires⟩, ofPairs_eq_ok_iff.2 ⟨rfl, rfl⟩⟩
  · intro t built
    obtain ⟨named, rfl⟩ := ofPairs_eq_ok_iff.1 built
    exact ⟨named, oneToOne_pairs t⟩

/-- A name may stand on both sides, and a pair may keep its name. Of the pairs that are refused, the
first has a new internal name and an old wire name, the second uses both of its names again. -/
theorem oneToOne_of_pairs_swap :
    (∃ t, ofPairs "swap" [("to", "to"), ("a", "b"), ("b", "a")] = .ok t ∧
      t.lookup .toWire "a" = some "b" ∧ t.lookup .toInternal "b" = some "a" ∧
      t.lookup .toWire "to" = some "to" ∧ t.size = 3) ∧
    ofPairs "wire" [("a", "x"), ("b", "x"), ("a", "z")] = .error ⟨"wire", "x"⟩ ∧
    ofPairs "both" [("a", "x"), ("b", "y"), ("b", "x")] = .error ⟨"both", "b"⟩ := by
  have wire : FirstRepeated [("a", "x"), ("b", "x"), ("a", "z")] "x" :=
    ⟨[("a", "x")], ("b", "x"), [("a", "z")], rfl, by unfold Distinct; decide,
      .wire (by decide) (by decide)⟩
  have both : FirstRepeated [("a", "x"), ("b", "y"), ("b", "x")] "b" :=
    ⟨[("a", "x"), ("b", "y")], ("b", "x"), [], rfl, by unfold Distinct; decide,
      .internal (by decide)⟩
  refine ⟨?_, ((oneToOne_of_pairs _ _).2.2.1 ⟨"wire", "x"⟩).2 ⟨rfl, wire⟩,
    ((oneToOne_of_pairs _ _).2.2.1 ⟨"both", "b"⟩).2 ⟨rfl, both⟩⟩
  obtain ⟨t, built⟩ :=
    (oneToOne_of_pairs "swap" [("to", "to"), ("a", "b"), ("b", "a")]).1.2 (by decide)
  obtain ⟨-, h⟩ := (oneToOne_of_pairs _ _).2.1 t built
  exact ⟨t, built, (h.toWire _ _).2 (by decide), (h.toInternal _ _).2 (by decide),
    (h.toWire _ _).2 (by decide), h.size⟩

end EthGateway.RenameTable
