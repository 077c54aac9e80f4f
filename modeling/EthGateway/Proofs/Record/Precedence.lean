import EthGateway.Proofs.Record.Collision
import EthGateway.Proofs.Text.ByteOrder

/-
# EthGateway.Proofs.Record.Precedence -- which field is found under a new name

A renamed record has the new names of its fields for keys. Under each of them is the value of the
field that prevails: of all that get the name, the one whose old name has the greatest bytes
(`get?_renameMembers_eq_some_iff`). There are at most two, one that has the name and that the table
leaves alone, and one that the table gives it (`eq_of_three`). Which of them prevails is a matter of
their names and not of the table: `gas_price` comes after `gasPrice`, but `bloom` before
`logsBloom`.

`renamed_by_precedence` says all of this for every list of pairs that is accepted and for both
directions, and that a record keeps its fields exactly if no two of them meet.
-/

namespace EthGateway.RenameTable

variable {t : RenameTable} {direction : Direction} {r : Record Json}

/-! ## The field that prevails -/

/-- A field gets the name, and of all that get it none has a greater old name, byte by byte. -/
structure Prevails (t : RenameTable) (direction : Direction) (r : Record Json) (key name : String) :
    Prop where
  named : t.target direction key = name
  greatest : ∀ other ∈ Record.keys r, t.target direction other = name →
    Bytes.ofString other ≤ Bytes.ofString key

/-- Under a name is the value of the field that prevails. -/
theorem get?_renameMembers_eq_some_iff (ordered : Record.Ordered r) {name : String} {v : Json} :
    Record.get? (t.renameMembers direction r) name = some v ↔
      ∃ key, Record.get? r key = some v ∧ t.Prevails direction r key name := by
  constructor
  · intro present
    rw [get?_renameMembers] at present
    obtain ⟨m, found, rfl⟩ := Option.map_eq_some_iff.1 present
    have member : m ∈ r := List.mem_reverse.1 (List.mem_of_find?_eq_some found)
    have named : t.target direction m.1 = name := by simpa using List.find?_some found
    refine ⟨m.1, Record.get?_of_mem (Record.nodup_keys_of_ordered ordered) member, named, ?_⟩
    intro other hother same
    obtain ⟨n, hn, rfl⟩ := List.mem_map.1 hother
    exact Bytes.ofString_le_ofString_iff.2
      (Record.greatest_of_find?_reverse ordered found hn (by simpa using same))
  · rintro ⟨key, found, prevails⟩
    refine get?_renameMembers_of_greatest ordered found prevails.named ?_
    intro other hother same
    exact Bytes.ofString_le_ofString_iff.1 (prevails.greatest other hother same)

/-! ## Fields that meet -/

/-- Of three fields with one new name two are the same. -/
theorem eq_of_three {a b c : String} (hab : t.target direction a = t.target direction b)
    (hac : t.target direction a = t.target direction c) : a = b ∨ a = c ∨ b = c := by
  rcases takes_of_target_eq hab with equal | first | first
  · exact .inl equal
  · rcases takes_of_target_eq hac with equal | second | second
    · exact .inr (.inl equal)
    · exact .inr (.inr (Option.some.inj (first.1.symm.trans second.1)))
    · -- A field that takes a name is not left alone.
      have unlisted := second.2
      rw [first.1] at unlisted
      cases unlisted
  · rcases takes_of_target_eq hac with equal | second | second
    · exact .inr (.inl equal)
    · have unlisted := first.2
      rw [second.1] at unlisted
      cases unlisted
    · exact .inr (.inr (eq_of_lookup_eq_some first.1 second.1))

/-- Fields meet in twos: one that the table leaves alone, and one that takes its name. -/
structure MeetInTwos (t : RenameTable) (direction : Direction) (r : Record Json) : Prop where
  number : ∀ name, ((Record.keys r).filter fun key => t.target direction key = name).length ≤ 2
  pair : ∀ a ∈ Record.keys r, ∀ b ∈ Record.keys r, a ≠ b →
    t.target direction a = t.target direction b → t.Takes direction a b ∨ t.Takes direction b a

theorem meetInTwos (t : RenameTable) (direction : Direction) (ordered : Record.Ordered r) :
    t.MeetInTwos direction r := by
  refine ⟨?_, ?_⟩
  · intro name
    have distinct : ((Record.keys r).filter fun key => t.target direction key = name).Nodup :=
      (Record.nodup_keys_of_ordered ordered).filter _
    have named : ∀ key ∈ (Record.keys r).filter fun key => t.target direction key = name,
        t.target direction key = name := fun key h => by simpa using (List.mem_filter.1 h).2
    match meeting : (Record.keys r).filter fun key => t.target direction key = name with
    | [] | [_] | [_, _] => simp
    | a :: b :: c :: rest =>
      rw [meeting] at distinct named
      have same : ∀ key ∈ a :: b :: c :: rest, t.target direction a = t.target direction key :=
        fun key h => (named a List.mem_cons_self).trans (named key h).symm
      rcases eq_of_three (same b (by simp)) (same c (by simp)) with rfl | rfl | rfl <;>
        simp at distinct
  · intro a _ b _ different same
    exact (takes_of_target_eq same).resolve_left different

/-! ## The renamed record -/

/-- What a renamed record holds. -/
structure Renamed (t : RenameTable) (direction : Direction) (r s : Record Json) : Prop where
  ordered : Record.Ordered s
  keys : ∀ name, name ∈ Record.keys s ↔ ∃ key ∈ Record.keys r, t.target direction key = name
  value : ∀ name v, Record.get? s name = some v ↔
    ∃ key, Record.get? r key = some v ∧ t.Prevails direction r key name

theorem renamed_renameMembers (t : RenameTable) (direction : Direction)
    (ordered : Record.Ordered r) : t.Renamed direction r (t.renameMembers direction r) := by
  refine ⟨ordered_renameMembers t direction r, ?_, ?_⟩
  · intro name
    rw [mem_keys_renameMembers]
    constructor
    · rintro ⟨m, hm, named⟩
      exact ⟨m.1, List.mem_map_of_mem hm, named⟩
    · rintro ⟨key, hkey, named⟩
      obtain ⟨m, hm, rfl⟩ := List.mem_map.1 hkey
      exact ⟨m, hm, named⟩
  · intro name v
    exact get?_renameMembers_eq_some_iff ordered

/-- Every field is there with its value, under its new name, and there are as many as before. -/
structure KeepsFields (t : RenameTable) (direction : Direction) (r s : Record Json) : Prop where
  values : ∀ key v, Record.get? r key = some v → Record.get? s (t.target direction key) = some v
  number : s.length = r.length

theorem keepsFields_iff (ordered : Record.Ordered r) :
    t.KeepsFields direction r (t.renameMembers direction r) ↔
      ∀ field ∈ Record.keys r, ∀ other ∈ Record.keys r, ¬ t.Takes direction field other := by
  constructor
  · intro keeps
    exact (length_renameMembers_eq_iff ordered).1 keeps.number
  · intro apart
    refine ⟨?_, (length_renameMembers_eq_iff ordered).2 apart⟩
    intro key v found
    have member : key ∈ Record.keys r :=
      List.mem_map_of_mem (f := Prod.fst) (Record.mem_of_get?_eq_some found)
    refine get?_renameMembers_of_greatest ordered found rfl ?_
    intro other hother same less
    rcases takes_of_target_eq same with equal | takes | takes
    · exact String.lt_irrefl _ (equal ▸ less)
    · exact apart other hother key member takes
    · exact apart key member other hother takes

/-- A record is renamed by the pairs of the table, and of the fields that meet under a name the one
with the greatest old name is found there. Fields meet in twos, and all of them are kept exactly if
none takes the name of another one that the table leaves alone. -/
theorem renamed_by_precedence {name : String} {pairs : List (String × String)} {t : RenameTable}
    (accepted : ofPairs name pairs = .ok t) (direction : Direction) {r : Record Json}
    (ordered : Record.Ordered r) :
    (∀ field other, t.lookup direction field = some other ↔
      ∃ p ∈ pairs, source direction p = field ∧ goal direction p = other) ∧
    ∃ s, t.rename direction (.obj r) = .obj s ∧ t.Renamed direction r s ∧
      t.MeetInTwos direction r ∧
      (t.KeepsFields direction r s ↔
        ∀ field ∈ Record.keys r, ∀ other ∈ Record.keys r, ¬ t.Takes direction field other) := by
  obtain ⟨-, rfl⟩ := ofPairs_eq_ok_iff.1 accepted
  refine ⟨fun field other => lookup_eq_some_iff direction, ?_⟩
  exact ⟨_, rfl, renamed_renameMembers t direction ordered, meetInTwos t direction ordered,
    keepsFields_iff ordered⟩

/-- Of the two prices the renamed one stays, and of the two blooms the other one. -/
theorem renamed_by_precedence_prices_and_blooms :
    let pairs := [("bloom", "logsBloom"), ("gas_price", "gasPrice")]
    let r : Record Json := [("bloom", .ofNat 1), ("gasPrice", .ofNat 2), ("gas_price", .ofNat 3),
      ("logsBloom", .ofNat 4), ("to", .null)]
    let s : Record Json := [("gasPrice", .ofNat 3), ("logsBloom", .ofNat 4), ("to", .null)]
    ∃ t, ofPairs "block" pairs = .ok t ∧ Record.Ordered r ∧
      t.rename .toWire (.obj r) = .obj s ∧ t.Renamed .toWire r s ∧ t.MeetInTwos .toWire r ∧
      ¬ t.KeepsFields .toWire r s := by
  intro pairs r s
  let t : RenameTable := ⟨"block", pairs, by decide, by decide⟩
  have accepted : ofPairs "block" pairs = .ok t := ofPairs_eq_ok_iff.2 ⟨rfl, rfl⟩
  have ordered : Record.Ordered r := show List.Pairwise _ _ by decide +kernel
  have value : t.rename .toWire (.obj r) = .obj s := by decide +kernel
  obtain ⟨-, s', renamed, held, meet, keeps⟩ := renamed_by_precedence accepted .toWire ordered
  obtain rfl : s' = s := Json.obj.inj (renamed.symm.trans value)
  refine ⟨t, accepted, ordered, value, held, meet, ?_⟩
  rw [keeps]
  intro apart
  exact apart "gas_price" (by decide) "gasPrice" (by decide) ⟨by decide, by decide⟩

end EthGateway.RenameTable
