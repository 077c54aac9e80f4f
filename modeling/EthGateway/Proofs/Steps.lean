import Mathlib.Data.List.Forall2

/-
# EthGateway.Proofs.Steps -- steps that may fail, one after the other

A sequence of steps succeeds if each of them does, and its error is the error of the first step that
fails: this holds of two steps (`bind_eq_ok_iff`, `bind_eq_error_iff`), of a list whose items are
read (`mapM_eq_ok_iff`, `mapM_eq_error_iff`), and of a list that is worked through with a state
(`foldlM_eq_error_iff`).
-/

namespace EthGateway

/-! ## Two steps -/

section Single

variable {ε ε' α β : Type} {x : Except ε α}

theorem bind_eq_ok_iff {f : α → Except ε β} {b : β} :
    (x >>= f) = .ok b ↔ ∃ a, x = .ok a ∧ f a = .ok b := by
  cases x with
  | error e => exact ⟨nofun, nofun⟩
  | ok a => exact ⟨fun h => ⟨a, rfl, h⟩, fun ⟨_, rfl, h⟩ => h⟩

theorem map_eq_ok_iff {f : α → β} {b : β} : f <$> x = .ok b ↔ ∃ a, x = .ok a ∧ f a = b := by
  cases x with
  | error e => exact ⟨nofun, nofun⟩
  | ok a => exact ⟨fun h => ⟨a, rfl, Except.ok.inj h⟩, fun ⟨_, rfl, h⟩ => congrArg Except.ok h⟩

theorem mapError_eq_ok_iff {f : ε → ε'} {a : α} : x.mapError f = .ok a ↔ x = .ok a := by
  cases x <;> simp [Except.mapError]

theorem mapError_eq_error_iff {f : ε → ε'} {e : ε'} :
    x.mapError f = .error e ↔ ∃ cause, x = .error cause ∧ f cause = e := by
  cases x <;> simp [Except.mapError]

theorem bind_eq_error_iff {f : α → Except ε β} {e : ε} :
    (x >>= f) = .error e ↔ x = .error e ∨ ∃ a, x = .ok a ∧ f a = .error e := by
  cases x with
  | error e' => simp [bind, Except.bind]
  | ok a => simp [bind, Except.bind]

theorem map_eq_error_iff {g : α → β} {e : ε} :
    g <$> x = .error e ↔ x = .error e := by
  cases x <;> simp [Functor.map, Except.map]

theorem exists_map_eq_ok_iff {g : α → β} :
    (∃ b, g <$> x = .ok b) ↔ ∃ a, x = .ok a := by
  cases x <;> simp [Functor.map, Except.map]

end Single

/-! ## Items one after the other -/

section Traversal

variable {ε α β : Type} {f : α → Except ε β}

/-- All items are read exactly if each of them is. -/
theorem mapM_eq_ok_iff {xs : List α} {ys : List β} :
    xs.mapM f = .ok ys ↔ List.Forall₂ (fun x y => f x = .ok y) xs ys := by
  induction xs generalizing ys with
  | nil => cases ys <;> simp [pure, Except.pure]
  | cons x xs ih =>
    rw [List.mapM_cons, bind_eq_ok_iff, List.forall₂_cons_left_iff]
    constructor
    · rintro ⟨y, first, h⟩
      obtain ⟨ys', others, h⟩ := bind_eq_ok_iff.1 h
      cases h
      exact ⟨y, ys', first, ih.1 others, rfl⟩
    · rintro ⟨y, ys', first, others, rfl⟩
      exact ⟨y, first, bind_eq_ok_iff.2 ⟨ys', ih.2 others, rfl⟩⟩

/-- The first item that is not read decides the error; those in front of it were read, and those
behind it do not count. -/
theorem mapM_eq_error_iff {xs : List α} {e : ε} :
    xs.mapM f = .error e ↔
      ∃ before x after, xs = before ++ x :: after ∧ (∀ b ∈ before, ∃ y, f b = .ok y) ∧
        f x = .error e := by
  induction xs with
  | nil => simp [pure, Except.pure]
  | cons x xs ih =>
    rw [List.mapM_cons, bind_eq_error_iff]
    constructor
    · rintro (h | ⟨y, first, h⟩)
      · exact ⟨[], x, xs, rfl, nofun, h⟩
      · -- The item at the front was read, so the fault is among the others.
        rcases bind_eq_error_iff.1 h with h | ⟨ys, -, h⟩
        · obtain ⟨before, z, after, rfl, fine, h⟩ := ih.1 h
          exact ⟨x :: before, z, after, rfl, List.forall_mem_cons.2 ⟨⟨y, first⟩, fine⟩, h⟩
        · cases h
    · rintro ⟨before, z, after, split, fine, h⟩
      cases before with
      | nil =>
        cases split
        exact .inl h
      | cons b before =>
        obtain ⟨rfl, rfl⟩ := List.cons.inj split
        obtain ⟨⟨y, first⟩, fine⟩ := List.forall_mem_cons.1 fine
        exact .inr ⟨y, first, bind_eq_error_iff.2 (.inl (ih.2 ⟨before, z, after, rfl, fine, h⟩))⟩

theorem exists_mapM_eq_ok_iff {xs : List α} :
    (∃ ys, xs.mapM f = .ok ys) ↔ ∀ x ∈ xs, ∃ y, f x = .ok y := by
  simp only [mapM_eq_ok_iff]
  induction xs with
  | nil => simp
  | cons x xs ih =>
    rw [List.forall_mem_cons, ← ih]
    constructor
    · rintro ⟨ys, h⟩
      obtain ⟨y, ys', first, others, -⟩ := List.forall₂_cons_left_iff.1 h
      exact ⟨⟨y, first⟩, ys', others⟩
    · rintro ⟨⟨y, first⟩, ys, others⟩
      exact ⟨y :: ys, .cons first others⟩

/-- The first step that fails decides the error of a loop: those in front of it have succeeded, and
it failed in the state that they came to. -/
theorem foldlM_eq_error_iff {step : β → α → Except ε β} {b : β} {xs : List α} {e : ε} :
    xs.foldlM step b = .error e ↔
      ∃ before x after c, xs = before ++ x :: after ∧ before.foldlM step b = .ok c ∧
        step c x = .error e := by
  induction xs generalizing b with
  | nil => simp [pure, Except.pure]
  | cons x xs ih =>
    rw [List.foldlM_cons, bind_eq_error_iff]
    constructor
    · rintro (h | ⟨c, first, h⟩)
      · exact ⟨[], x, xs, b, rfl, rfl, h⟩
      · obtain ⟨before, z, after, d, rfl, others, h⟩ := ih.1 h
        refine ⟨x :: before, z, after, d, rfl, ?_, h⟩
        rw [List.foldlM_cons, first]
        exact others
    · rintro ⟨before, z, after, d, split, fine, h⟩
      cases before with
      | nil =>
        cases split
        cases fine
        exact .inl h
      | cons y before =>
        obtain ⟨rfl, rfl⟩ := List.cons.inj split
        rw [List.foldlM_cons] at fine
        obtain ⟨c, first, others⟩ := bind_eq_ok_iff.1 fine
        exact .inr ⟨c, first, ih.2 ⟨before, z, after, d, rfl, others, h⟩⟩

end Traversal

end EthGateway
