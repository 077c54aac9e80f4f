import EthGateway.Text

/-
# EthGateway.Proofs.Text.LetterCase -- hexadecimal digits whatever the case of their letters

Bytes are written with small letters and read with letters of either case. So digits are read as
bytes exactly if they are what the bytes are written as, but for the case of the letters
(`decode?_eq_some_iff`): a digit denotes what its small letter denotes (`value?_toLower`), and among
the digits without capitals there is one for each value (`digitChar_of_value?`).
-/

namespace EthGateway.Text.Hex

/-! ## One digit -/

theorem toLower_of_not_isUpper {c : Char} (lower : ¬ c.isUpper) : c.toLower = c :=
  dif_neg fun range => lower (decide_eq_true range)

/-- A capital letter by its place in the alphabet. -/
theorem exists_ofNat_of_isUpper {c : Char} (upper : c.isUpper = true) :
    ∃ k < 26, c = Char.ofNat (65 + k) := by
  have range : 65 ≤ c.toNat ∧ c.toNat ≤ 90 := of_decide_eq_true upper
  refine ⟨c.toNat - 65, by omega, ?_⟩
  rw [Nat.add_sub_cancel' range.1, Char.ofNat_toNat]

/-- What holds of the capital letters and their small ones, and of all else with itself, holds of every
character and its small one. -/
theorem toLower_cases {P : Char → Char → Prop}
    (capital : ∀ k < 26, P (Char.ofNat (65 + k)) (Char.ofNat (65 + k)).toLower)
    (other : ∀ c : Char, ¬ c.isUpper → P c c) (c : Char) : P c c.toLower := by
  by_cases upper : c.isUpper
  · obtain ⟨k, small, rfl⟩ := exists_ofNat_of_isUpper upper
    exact capital k small
  · rw [toLower_of_not_isUpper upper]
    exact other c upper

theorem not_isUpper_toLower (c : Char) : ¬ c.toLower.isUpper :=
  toLower_cases (P := fun _ small => ¬ small.isUpper) (by decide) (fun _ => id) c

/-- A digit denotes what its small letter denotes. -/
theorem value?_toLower (c : Char) : value? c.toLower = value? c :=
  toLower_cases (P := fun c small => value? small = value? c) (by decide) (fun _ _ => rfl) c

/-- A digit in lower case is the character of its value. -/
theorem digitChar_of_value? {c : Char} {d : Nat} (value : value? c = some d)
    (lower : ¬ c.isUpper) : d < 16 ∧ d.digitChar = c := by
  have decimal : ∀ k < 10, k.digitChar.toNat = k + 48 := by decide
  have letter : ∀ k < 6, (k + 10).digitChar.toNat = k + 97 := by decide
  unfold value? at value
  split at value
  · next range =>
    have bounds : 48 ≤ c.toNat ∧ c.toNat ≤ 57 := range
    have digit : c.toNat - 48 = d := Option.some.inj value
    refine ⟨by omega, Char.toNat_inj.1 ?_⟩
    rw [decimal d (by omega)]
    omega
  · split at value
    · next range =>
      have bounds : 97 ≤ c.toNat ∧ c.toNat ≤ 102 := range
      have digit : c.toNat - 97 + 10 = d := Option.some.inj value
      refine ⟨by omega, Char.toNat_inj.1 ?_⟩
      rw [← digit, letter (c.toNat - 97) (by omega)]
      omega
    · split at value
      · next range =>
        have capital : 65 ≤ c.toNat ∧ c.toNat ≤ 70 := range
        have upper : c.isUpper = true :=
          decide_eq_true ⟨capital.1, show c.toNat ≤ 90 by omega⟩
        exact absurd upper lower
      · cases value

theorem toLower_of_value? {c : Char} {d : Nat} (value : value? c = some d) :
    d < 16 ∧ c.toLower = digit d := by
  rw [← value?_toLower] at value
  obtain ⟨small, char⟩ := digitChar_of_value? value (not_isUpper_toLower c)
  exact ⟨small, char.symm⟩

/-! ## Bytes -/

theorem decode?_map_toLower (ds : List Char) : decode? (ds.map Char.toLower) = decode? ds := by
  induction ds using decode?.induct with
  | case1 => rfl
  | case2 c => rfl
  | case3 a b ds _ _ _ _ _ _ ih | case4 a b ds _ ih =>
    rw [List.map_cons, List.map_cons, decode?, decode?, value?_toLower, value?_toLower, ih]

theorem pair_of_halves {high low : Nat} (hh : high < 16) (hl : low < 16) :
    pair (UInt8.ofNat (high * 16 + low)) = [digit high, digit low] := by
  have value : (UInt8.ofNat (high * 16 + low)).toNat = high * 16 + low :=
    UInt8.toNat_ofNat_of_lt' (by change _ < 256; omega)
  have first : (high * 16 + low) / 16 = high := by omega
  have second : (high * 16 + low) % 16 = low := by omega
  rw [pair, value, first, second]

/-- Digits are read as bytes exactly if they are written for them, but for the case of letters. -/
theorem decode?_eq_some_iff {ds : List Char} {bytes : List UInt8} :
    decode? ds = some bytes ↔ ds.map Char.toLower = encode bytes := by
  constructor
  · intro read
    induction ds using decode?.induct generalizing bytes with
    | case1 =>
      cases read
      rfl
    | case2 c => cases read
    | case3 a b ds high low rest hds hb ha ih =>
      rw [decode?, ha, hb, hds] at read
      obtain rfl := Option.some.inj read
      obtain ⟨smallHigh, first⟩ := toLower_of_value? ha
      obtain ⟨smallLow, second⟩ := toLower_of_value? hb
      rw [List.map_cons, List.map_cons, first, second, ih hds, encode, encode, List.flatMap_cons,
        pair_of_halves smallHigh smallLow]
      rfl
    | case4 a b ds unread =>
      rw [decode?] at read
      split at read
      · next ha hb hds => exact absurd hds (unread _ _ _ ha hb)
      · cases read
  · intro written
    rw [← decode?_map_toLower, written, decode?_encode]

theorem map_toLower_encode (bytes : List UInt8) :
    (encode bytes).map Char.toLower = encode bytes :=
  decode?_eq_some_iff.1 (decode?_encode bytes)

theorem encode_inj {bytes bytes' : List UInt8} : encode bytes = encode bytes' ↔ bytes = bytes' := by
  refine ⟨fun same => ?_, congrArg encode⟩
  have read := decode?_encode bytes
  rw [same, decode?_encode] at read
  exact (Option.some.inj read).symm

theorem exists_decode?_cons_cons_iff {a b : Char} {ds : List Char} :
    (∃ bytes, decode? (a :: b :: ds) = some bytes) ↔
      isDigit a = true ∧ isDigit b = true ∧ ∃ bytes, decode? ds = some bytes := by
  rw [decode?, isDigit, isDigit]
  cases value? a <;> cases value? b <;> cases decode? ds <;> simp

/-- Any even number of digits is read. -/
theorem exists_decode?_iff {ds : List Char} :
    (∃ bytes, decode? ds = some bytes) ↔ ds.length % 2 = 0 ∧ ∀ c ∈ ds, isDigit c = true := by
  induction ds using decode?.induct with
  | case1 => simp [decode?]
  | case2 c => simp [decode?]
  | case3 a b ds _ _ _ _ _ _ ih | case4 a b ds _ ih =>
    have even : (a :: b :: ds).length % 2 = ds.length % 2 := Nat.add_mod_right ds.length 2
    rw [exists_decode?_cons_cons_iff, ih, even, List.forall_mem_cons, List.forall_mem_cons,
      and_left_comm (b := ds.length % 2 = 0), and_left_comm (b := ds.length % 2 = 0)]

end EthGateway.Text.Hex
