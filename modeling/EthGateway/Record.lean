/-
# EthGateway.Record -- members listed in key order

A record is a list of keys and values. Every record of this library that is built by `insert` from
the empty one is `Ordered`: its keys ascend strictly in code point order, so no key occurs twice and
two ordered records with the same look-ups are the same list.

`Ordered` is a predicate beside the list and not a field of it, because JSON values nest records
inside themselves; the containers that are not nested carry it as an invariant.
-/

namespace EthGateway

/-- A record lists its members, each a key with its value. -/
abbrev Record (α : Type) := List (String × α)

namespace Record

variable {α β : Type}

/-- The keys ascend strictly. -/
def Ordered (r : Record α) : Prop := r.Pairwise fun a b => a.1 < b.1

/-- The keys in the order of the members. -/
def keys (r : Record α) : List String := r.map Prod.fst

/-- The value of the first member under the key. -/
def get? : Record α → String → Option α
  | [], _ => none
  | m :: r, key => if key = m.1 then some m.2 else get? r key

/-- Some member stands under the key. -/
def contains (r : Record α) (key : String) : Bool := (get? r key).isSome

/-- Put a value under a key, replacing the one that was there, at the key's place in the order. -/
def insert : Record α → String → α → Record α
  | [], key, value => [(key, value)]
  | m :: r, key, value =>
    if key < m.1 then (key, value) :: m :: r
    else if key = m.1 then (key, value) :: r
    else m :: insert r key value

/-- Take the members under a key away. -/
def erase (r : Record α) (key : String) : Record α := r.filter fun m => m.1 ≠ key

/-- Insert members one after the other: the last of several under one key stays. -/
def ofList (members : List (String × α)) : Record α :=
  members.foldl (fun r m => insert r m.1 m.2) []

/-! ## Inserting keeps the order -/

theorem ordered_nil : Ordered ([] : Record α) := List.Pairwise.nil

theorem mem_insert {r : Record α} {key : String} {value : α} {m : String × α}
    (h : m ∈ insert r key value) : m = (key, value) ∨ m ∈ r := by
  induction r with
  | nil => simpa [insert] using h
  | cons n r ih =>
    unfold insert at h
    split at h
    · simpa using h
    · split at h
      · rcases List.mem_cons.1 h with h | h
        · exact .inl h
        · exact .inr (List.mem_cons_of_mem _ h)
      · rcases List.mem_cons.1 h with h | h
        · exact .inr (h ▸ List.mem_cons_self)
        · exact (ih h).imp id (List.mem_cons_of_mem _)

theorem ordered_insert {r : Record α} (h : Ordered r) (key : String) (value : α) :
    Ordered (insert r key value) := by
  induction r with
  | nil => simp [insert, Ordered]
  | cons n r ih =>
    obtain ⟨hn, hr⟩ := List.pairwise_cons.1 h
    unfold insert
    split
    · next hlt =>
      refine List.pairwise_cons.2 ⟨fun m hm => ?_, h⟩
      rcases List.mem_cons.1 hm with rfl | hm
      · exact hlt
      · exact String.lt_trans hlt (hn m hm)
    · next hlt =>
      split
      · next heq => exact List.pairwise_cons.2 ⟨fun m hm => heq ▸ hn m hm, hr⟩
      · next hne =>
        have hgt : n.1 < key := by
          rcases Std.lt_trichotomy key n.1 with h' | h' | h'
          · exact absurd h' hlt
          · exact absurd h' hne
          · exact h'
        refine List.pairwise_cons.2 ⟨fun m hm => ?_, ih hr⟩
        rcases mem_insert hm with rfl | hm
        · exact hgt
        · exact hn m hm

theorem ordered_foldl_insert {r : Record α} (h : Ordered r) (members : List (String × α)) :
    Ordered (members.foldl (fun r m => insert r m.1 m.2) r) := by
  induction members generalizing r with
  | nil => exact h
  | cons m members ih => exact ih (ordered_insert h m.1 m.2)

theorem mem_foldl_insert {r : Record α} {members : List (String × α)} {m : String × α}
    (h : m ∈ members.foldl (fun r m => insert r m.1 m.2) r) : m ∈ r ∨ m ∈ members := by
  induction members generalizing r with
  | nil => exact .inl h
  | cons n members ih =>
    rcases ih h with h | h
    · rcases mem_insert h with h | h
      · exact .inr (h ▸ List.mem_cons_self)
      · exact .inl h
    · exact .inr (List.mem_cons_of_mem _ h)

/-- Every member of a record that was built from a list comes from the list. -/
theorem mem_of_mem_ofList {members : List (String × α)} {m : String × α}
    (h : m ∈ ofList members) : m ∈ members :=
  (mem_foldl_insert h).resolve_left List.not_mem_nil

theorem ordered_ofList (members : List (String × α)) : Ordered (ofList members) :=
  ordered_foldl_insert ordered_nil members

/-! ## What a look-up sees -/

@[simp] theorem get?_nil (key : String) : get? ([] : Record α) key = none := rfl

@[simp] theorem get?_cons (m : String × α) (r : Record α) (key : String) :
    get? (m :: r) key = if key = m.1 then some m.2 else get? r key := rfl

/-- An insertion is seen under its own key and nowhere else. -/
theorem get?_insert (r : Record α) (key : String) (value : α) (k : String) :
    get? (insert r key value) k = if k = key then some value else get? r k := by
  induction r with
  | nil => simp [insert]
  | cons m r ih =>
    unfold insert
    split
    · simp
    · split
      · next h => subst h; by_cases hk : k = m.1 <;> simp [hk]
      · next h =>
        by_cases hk : k = m.1
        · subst hk; simp [Ne.symm h]
        · simp [hk, ih]

theorem get?_eq_none_of_forall_lt {r : Record α} {key : String} (h : ∀ m ∈ r, key < m.1) :
    get? r key = none := by
  induction r with
  | nil => rfl
  | cons m r ih =>
    have hm : key ≠ m.1 := fun e => String.lt_irrefl _ (e ▸ h m List.mem_cons_self)
    simp [hm, ih fun n hn => h n (List.mem_cons_of_mem _ hn)]

/-- The look-ups of an ordered record are all there is to it. -/
theorem eq_of_get?_eq {r s : Record α} (hr : Ordered r) (hs : Ordered s)
    (h : ∀ key, get? r key = get? s key) : r = s := by
  induction r generalizing s with
  | nil =>
    cases s with
    | nil => rfl
    | cons n s => simpa using h n.1
  | cons m r ih =>
    cases s with
    | nil => simpa using h m.1
    | cons n s =>
      obtain ⟨hm, hr⟩ := List.pairwise_cons.1 hr
      obtain ⟨hn, hs⟩ := List.pairwise_cons.1 hs
      have hkey : m.1 = n.1 := by
        rcases Std.lt_trichotomy m.1 n.1 with hlt | heq | hlt
        · have hne : m.1 ≠ n.1 := fun e => String.lt_irrefl _ (e ▸ hlt)
          have := h m.1
          simp [hne, get?_eq_none_of_forall_lt fun x hx => String.lt_trans hlt (hn x hx)] at this
        · exact heq
        · have hne : n.1 ≠ m.1 := fun e => String.lt_irrefl _ (e ▸ hlt)
          have := h n.1
          simp [hne, get?_eq_none_of_forall_lt fun x hx => String.lt_trans hlt (hm x hx)] at this
      have hvalue : m.2 = n.2 := by simpa [hkey] using h m.1
      have htail : r = s := ih hr hs fun key => by
        by_cases hk : key = m.1
        · subst hk
          rw [get?_eq_none_of_forall_lt hm, get?_eq_none_of_forall_lt (hkey ▸ hn)]
        · simpa [hk, hkey ▸ hk] using h key
      rw [htail, Prod.ext hkey hvalue]

end Record

end EthGateway
