import EthGateway.Text

/-
# EthGateway.Proofs.Text.Unsigned -- the texts of unsigned numbers

A text is read as a number exactly if it is digits, at most behind one plus sign, that denote a
number below the bound (`parse_eq_ok_iff`). Leading zeros do not count, however many there are.

Of the other texts the digits in front decide: the number is too large as soon as they denote a
number that is not below the bound, whatever follows, and otherwise the character behind them is
no digit (`parse_eq_error_iff`).
-/

namespace EthGateway.Text

theorem decimalDigit?_of_isDigit {c : Char} (digit : c.isDigit = true) :
    decimalDigit? c = some (c.toNat - '0'.toNat) :=
  if_pos (by simpa [Char.isDigit, Char.le_def] using digit)

theorem decimalDigit?_of_not_isDigit {c : Char} (other : ¬ c.isDigit = true) :
    decimalDigit? c = none :=
  if_neg (by simpa [Char.isDigit, Char.le_def] using other)

namespace Unsigned

/-- The number that decimal digits denote. -/
def number (ds : List Char) : Nat := Nat.ofDigitChars 10 ds 0

/-- The texts of a number: digits, at most behind one plus sign. -/
def Spells (cs : List Char) (n : Nat) : Prop :=
  ∃ ds, (cs = ds ∨ cs = '+' :: ds) ∧ ds ≠ [] ∧ (∀ c ∈ ds, c.isDigit = true) ∧ number ds = n

/-- How digits behind a value that has been read are no number below a bound. -/
inductive Stops (bound value : Nat) (cs : List Char) : UnsignedError → Prop
  | tooLarge {ds rest : List Char} (split : cs = ds ++ rest)
      (digits : ∀ c ∈ ds, c.isDigit = true) (large : bound ≤ Nat.ofDigitChars 10 ds value) :
      Stops bound value cs .tooLarge
  | invalidDigit {ds rest : List Char} {c : Char} (split : cs = ds ++ c :: rest)
      (digits : ∀ c ∈ ds, c.isDigit = true) (small : Nat.ofDigitChars 10 ds value < bound)
      (other : ¬ c.isDigit = true) : Stops bound value cs .invalidDigit

/-- What stands behind a plus sign. -/
def behindSign : List Char → List Char
  | '+' :: cs => cs
  | cs => cs

/-- How a text is no number below a bound. -/
inductive Unread (bound : Nat) : List Char → UnsignedError → Prop
  | empty : Unread bound [] .empty
  | sign : Unread bound ['+'] .invalidDigit
  | stops {cs : List Char} {e : UnsignedError} (stops : Stops bound 0 (behindSign cs) e) :
      Unread bound cs e

/-! ## Digits -/

section Digits

variable {bound value : Nat} {c : Char} {cs : List Char}

/-- More digits never make a number smaller. -/
theorem le_ofDigitChars (ds : List Char) (value : Nat) : value ≤ Nat.ofDigitChars 10 ds value := by
  rw [Nat.ofDigitChars_eq_ofDigitChars_zero]
  have positive : 0 < 10 ^ ds.length := Nat.pow_pos (by decide)
  have grown : value ≤ 10 ^ ds.length * value := Nat.le_mul_of_pos_left value positive
  exact Nat.le_add_right_of_le grown

theorem readDigits_cons_of_isDigit (digit : c.isDigit = true) :
    readDigits bound value (c :: cs) =
      if 10 * value + (c.toNat - '0'.toNat) < bound then
        readDigits bound (10 * value + (c.toNat - '0'.toNat)) cs
      else .error .tooLarge := by
  rw [readDigits, decimalDigit?_of_isDigit digit, Nat.mul_comm value]

theorem readDigits_cons_of_not_isDigit (other : ¬ c.isDigit = true) :
    readDigits bound value (c :: cs) = .error .invalidDigit := by
  rw [readDigits, decimalDigit?_of_not_isDigit other]

theorem readDigits_eq_ok_iff (below : value < bound) {n : Nat} :
    readDigits bound value cs = .ok n ↔
      (∀ c ∈ cs, c.isDigit = true) ∧ Nat.ofDigitChars 10 cs value = n ∧ n < bound := by
  induction cs generalizing value with
  | nil =>
    rw [readDigits, Except.ok.injEq, Nat.ofDigitChars_nil]
    constructor
    · rintro rfl
      exact ⟨nofun, rfl, below⟩
    · exact fun ⟨_, same, _⟩ => same
  | cons c cs ih =>
    rw [List.forall_mem_cons, Nat.ofDigitChars_cons]
    by_cases digit : c.isDigit = true
    · rw [readDigits_cons_of_isDigit digit]
      split
      · next small => rw [ih small, and_iff_right digit]
      · next large =>
        -- What the other digits make of the value is no less than it is now.
        refine iff_of_false nofun ?_
        rintro ⟨-, rfl, small⟩
        exact large (Nat.lt_of_le_of_lt (le_ofDigitChars cs _) small)
    · rw [readDigits_cons_of_not_isDigit digit]
      exact iff_of_false nofun fun ⟨⟨isDigit, _⟩, _⟩ => digit isDigit

/-- One digit more that keeps the value below the bound. -/
theorem stops_cons_iff (below : value < bound) (digit : c.isDigit = true) {e : UnsignedError} :
    Stops bound value (c :: cs) e ↔ Stops bound (10 * value + (c.toNat - '0'.toNat)) cs e := by
  constructor
  · rintro (⟨split, digits, large⟩ | ⟨split, digits, small, other⟩)
    · -- Without a digit the value is below the bound, so this digit is among those in front.
      rename_i ds rest
      cases ds with
      | nil => exact absurd large (Nat.not_le.2 below)
      | cons d ds =>
        obtain ⟨rfl, rfl⟩ := List.cons.inj split
        rw [Nat.ofDigitChars_cons] at large
        exact .tooLarge rfl (List.forall_mem_cons.1 digits).2 large
    · rename_i ds rest c'
      cases ds with
      | nil =>
        obtain ⟨rfl, rfl⟩ := List.cons.inj split
        exact absurd digit other
      | cons d ds =>
        obtain ⟨rfl, rfl⟩ := List.cons.inj split
        rw [Nat.ofDigitChars_cons] at small
        exact .invalidDigit rfl (List.forall_mem_cons.1 digits).2 small other
  · rintro (⟨rfl, digits, large⟩ | ⟨rfl, digits, small, other⟩)
    · rw [← Nat.ofDigitChars_cons] at large
      exact .tooLarge rfl (List.forall_mem_cons.2 ⟨digit, digits⟩) large
    · rw [← Nat.ofDigitChars_cons] at small
      exact .invalidDigit rfl (List.forall_mem_cons.2 ⟨digit, digits⟩) small other

/-- The digits in front decide at the first place where they are not a number below the bound. -/
theorem readDigits_eq_error_iff (below : value < bound) {e : UnsignedError} :
    readDigits bound value cs = .error e ↔ Stops bound value cs e := by
  induction cs generalizing value with
  | nil =>
    refine iff_of_false nofun ?_
    rintro (⟨split, -, large⟩ | ⟨split, -, -, -⟩)
    · obtain ⟨rfl, -⟩ := List.append_eq_nil_iff.1 split.symm
      exact absurd large (Nat.not_le.2 below)
    · simp at split
  | cons c cs ih =>
    by_cases digit : c.isDigit = true
    · rw [readDigits_cons_of_isDigit digit]
      split
      · next small => rw [ih small, stops_cons_iff below digit]
      · next large =>
        constructor
        · rintro ⟨⟩
          have split : c :: cs = [c] ++ cs := rfl
          exact .tooLarge split (List.forall_mem_singleton.2 digit) (Nat.not_lt.1 large)
        · intro stops
          rcases (stops_cons_iff below digit).1 stops with ⟨-, -, -⟩ | ⟨-, -, small, -⟩
          · rfl
          · exact absurd (Nat.lt_of_le_of_lt (le_ofDigitChars _ _) small) large
    · rw [readDigits_cons_of_not_isDigit digit]
      constructor
      · rintro ⟨⟩
        have split : c :: cs = [] ++ c :: cs := rfl
        exact .invalidDigit split nofun below digit
      · rintro (⟨split, digits, large⟩ | -)
        · rename_i ds rest
          cases ds with
          | nil => exact absurd large (Nat.not_le.2 below)
          | cons d ds =>
            obtain ⟨rfl, -⟩ := List.cons.inj split
            exact absurd (List.forall_mem_cons.1 digits).1 digit
        · rfl

end Digits

/-! ## Whole texts -/

section Texts

variable {bound : Nat} {cs : List Char}

/-- A sign alone is no text of a number, nor is no text at all. -/
theorem parse_eq_readDigits (some : behindSign cs ≠ []) :
    parse bound cs = readDigits bound 0 (behindSign cs) := by
  unfold behindSign at some ⊢
  unfold parse
  split <;> simp_all

theorem behindSign_eq_nil_iff : behindSign cs = [] ↔ cs = [] ∨ cs = ['+'] := by
  unfold behindSign
  split <;> simp_all

theorem behindSign_of_isDigit {ds : List Char} (digits : ∀ c ∈ ds, c.isDigit = true) :
    behindSign ds = ds := by
  unfold behindSign
  split
  · exact absurd (digits '+' List.mem_cons_self) (by decide)
  · rfl

/-- Behind the sign the text of a number is digits. -/
theorem spells_iff {n : Nat} :
    Spells cs n ↔ behindSign cs ≠ [] ∧ (∀ c ∈ behindSign cs, c.isDigit = true) ∧
      number (behindSign cs) = n := by
  constructor
  · rintro ⟨ds, rfl | rfl, some, digits, value⟩
    · rw [behindSign_of_isDigit digits]
      exact ⟨some, digits, value⟩
    · exact ⟨some, digits, value⟩
  · rintro ⟨some, digits, value⟩
    refine ⟨behindSign cs, ?_, some, digits, value⟩
    unfold behindSign
    split
    · exact .inr rfl
    · exact .inl rfl

/-- What is read are the texts of the numbers below the bound. -/
theorem parse_eq_ok_iff (positive : 0 < bound) {n : Nat} :
    parse bound cs = .ok n ↔ Spells cs n ∧ n < bound := by
  by_cases nothing : behindSign cs = []
  · refine iff_of_false ?_ fun ⟨spells, _⟩ => (spells_iff.1 spells).1 nothing
    rcases behindSign_eq_nil_iff.1 nothing with rfl | rfl <;> nofun
  · rw [parse_eq_readDigits nothing, readDigits_eq_ok_iff positive, spells_iff, and_assoc,
      and_assoc, and_iff_right nothing, number]

/-- No text at all is a fault of its own; of any other the digits behind the sign decide. -/
theorem parse_eq_error_iff (positive : 0 < bound) {e : UnsignedError} :
    parse bound cs = .error e ↔ Unread bound cs e := by
  have decided : readDigits bound 0 (behindSign cs) = .error e ↔ Stops bound 0 (behindSign cs) e :=
    readDigits_eq_error_iff positive
  by_cases nothing : behindSign cs = []
  · have none : ¬ Stops bound 0 (behindSign cs) e := by
      rw [← decided, nothing]
      nofun
    rcases behindSign_eq_nil_iff.1 nothing with rfl | rfl
    · constructor
      · rintro ⟨⟩
        exact .empty
      · rintro (_ | _ | stops)
        · rfl
        · exact absurd stops none
    · constructor
      · rintro ⟨⟩
        exact .sign
      · rintro (_ | _ | stops)
        · rfl
        · exact absurd stops none
  · rw [parse_eq_readDigits nothing, decided]
    constructor
    · exact .stops
    · rintro (_ | _ | stops)
      · exact absurd rfl nothing
      · exact absurd rfl nothing
      · exact stops

end Texts

end Unsigned

end EthGateway.Text
