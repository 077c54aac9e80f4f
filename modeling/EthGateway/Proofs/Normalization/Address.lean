import EthGateway.Proofs.Normalization.Bytes

/-
# EthGateway.Proofs.Normalization.Address -- addresses, alone and in arrays

Twenty bytes become forty digits with a checksum in the case of their letters. The checksum takes
nothing away: whatever the case, the digits spell the bytes (`checksummed_checksumDigits`). Forty
digits without a sign get the sign and keep their case, and everything else stays.

`Restated` says so for a value of an address, and of arrays of addresses item by item, to any depth.
Under an array of addresses a list of twenty numbers is a list of twenty addresses, none of which is
recognized, so it stays (`restated_of_address`).
-/

namespace EthGateway

namespace Address

/-! ## The case of the letters -/

/-- The digits spell the bytes whatever the case of their letters, and a letter is a capital exactly
where the digit at its place in the hash of the digits in lower case is eight or more. -/
structure Checksummed (bytes : List UInt8) (ds : List Char) : Prop where
  digits : ds.map Char.toLower = Text.Hex.encode bytes
  letters : ∀ (i : Nat) (c : Char), ds[i]? = some c → c.isAlpha = true →
    ∃ half, (halves (hashText (Text.Hex.encode bytes)))[i]? = some half ∧
      (c.isUpper = true ↔ 8 ≤ half)

theorem exists_digit_of_mem_encode {bytes : List UInt8} {c : Char} (h : c ∈ Text.Hex.encode bytes) :
    ∃ k < 16, c = Text.Hex.digit k := by
  obtain ⟨b, -, place⟩ := List.mem_flatMap.1 h
  have byte := b.toNat_lt
  rcases List.mem_pair.1 place with rfl | rfl
  · exact ⟨b.toNat / 16, by omega, rfl⟩
  · exact ⟨b.toNat % 16, by omega, rfl⟩

theorem toLower_mark {k : Nat} (small : k < 16) (half : Nat) :
    (mark (Text.Hex.digit k) half).toLower = Text.Hex.digit k := by
  have kept : ∀ k < 16, (Text.Hex.digit k).toLower = Text.Hex.digit k ∧
      (Text.Hex.digit k).toUpper.toLower = Text.Hex.digit k := by decide
  unfold mark
  split
  · exact (kept k small).2
  · exact (kept k small).1

theorem isUpper_mark_iff {k half : Nat} (small : k < 16)
    (letter : (mark (Text.Hex.digit k) half).isAlpha = true) :
    (mark (Text.Hex.digit k) half).isUpper = true ↔ 8 ≤ half := by
  have capital : ∀ k < 16, (Text.Hex.digit k).toUpper.isAlpha = true →
      (Text.Hex.digit k).toUpper.isUpper = true := by decide
  have lower : ∀ k < 16, ¬ (Text.Hex.digit k).isUpper = true := by decide
  unfold mark at letter ⊢
  split at letter
  · next large =>
    rw [if_pos large]
    exact iff_of_true (capital k small letter) large
  · next small_half =>
    rw [if_neg small_half]
    exact iff_of_false (lower k small) small_half

/-- Marking changes nothing but the case, as long as there is a mark for every digit. -/
theorem map_toLower_zipWith_mark {ds : List Char} {marks : List Nat}
    (enough : ds.length ≤ marks.length) (digits : ∀ c ∈ ds, ∃ k < 16, c = Text.Hex.digit k) :
    (List.zipWith mark ds marks).map Char.toLower = ds := by
  induction ds generalizing marks with
  | nil => rfl
  | cons c ds ih =>
    obtain ⟨⟨k, small, rfl⟩, rest⟩ := List.forall_mem_cons.1 digits
    cases marks with
    | nil => cases enough
    | cons half marks =>
      rw [List.zipWith_cons_cons, List.map_cons, toLower_mark small,
        ih (Nat.le_of_succ_le_succ enough) rest]

theorem length_halves (bytes : List UInt8) : (halves bytes).length = 2 * bytes.length := by
  induction bytes with
  | nil => rfl
  | cons b bytes ih =>
    rw [halves, List.flatMap_cons, List.length_append, ← halves, ih, List.length_cons]
    simp only [List.length_cons, List.length_nil]
    omega

/-- The hash has marks for the digits of up to thirty-two bytes. -/
theorem checksummed_checksumDigits {bytes : List UInt8} (few : bytes.length ≤ 32) :
    Checksummed bytes (checksumDigits bytes) := by
  have enough : (Text.Hex.encode bytes).length ≤
      (halves (hashText (Text.Hex.encode bytes))).length := by
    rw [Text.Hex.length_encode, length_halves, hashText, Keccak.length_hash]
    omega
  refine ⟨map_toLower_zipWith_mark enough fun c => exists_digit_of_mem_encode, ?_⟩
  intro i c place letter
  obtain ⟨d, half, digit, hash, rfl⟩ := List.getElem?_zipWith_eq_some.1 place
  obtain ⟨k, small, rfl⟩ := exists_digit_of_mem_encode (List.mem_of_getElem? digit)
  exact ⟨half, hash, isUpper_mark_iff small letter⟩

theorem length_eq_of_checksummed {bytes : List UInt8} {ds : List Char} (h : Checksummed bytes ds) :
    ds.length = 2 * bytes.length := by
  rw [← Text.Hex.length_encode, ← h.digits, List.length_map]

/-! ## What becomes of a value -/

/-- What a value in the place of an address becomes. -/
inductive Written : Json → Json → Prop
  /-- Twenty bytes in a list are written out, with a checksum in the case of the letters. -/
  | bytes {items : List Json} {bytes : List UInt8} {ds : List Char}
      (spelled : Bytes.Spells (.arr items) bytes) (twenty : bytes.length = 20)
      (forty : ds.length = 40) (checksummed : Checksummed bytes ds) :
      Written (.arr items) (.str (String.ofList ('0' :: 'x' :: ds)))
  /-- Forty digits get the sign that they lack. -/
  | digits {s : String} (forty : s.toList.length = 40)
      (digits : ∀ c ∈ s.toList, Text.Hex.isDigit c = true) : Written (.str s) (.str ("0x" ++ s))
  /-- Everything else stays. -/
  | other {v : Json}
      (noBytes : ∀ items bytes, v = .arr items → Bytes.Spells v bytes → bytes.length ≠ 20)
      (noDigits : ∀ s, v = .str s → s.toList.length = 40 →
        ¬ ∀ c ∈ s.toList, Text.Hex.isDigit c = true) : Written v v

/-- What a value becomes where addresses are meant: a list of arrays item by item, and a single
address as such. A value that is no list stays where a list is meant. -/
def Restated : Kind → Json → Json → Prop
  | .address, v, out => Written v out
  | .array element, .arr items, out =>
    ∃ outs, out = .arr outs ∧ List.Forall₂ (Restated element) items outs
  | _, v, out => out = v

theorem normalize_request_address (v : Json) :
    Chain.request.normalize .address v = pure (Normalizer.addressText v) :=
  Chain.normalize_eq_runAll Chain.request nofun

theorem isBareAddress_iff {cs : List Char} :
    Normalizer.isBareAddress cs = true ↔
      cs.length = 40 ∧ ∀ c ∈ cs, Text.Hex.isDigit c = true := by
  rw [Normalizer.isBareAddress, Bool.and_eq_true, Bytes.isBare_iff, decide_eq_true_iff]
  constructor
  · rintro ⟨⟨-, digits⟩, forty⟩
    exact ⟨forty, digits⟩
  · rintro ⟨forty, digits⟩
    refine ⟨⟨?_, digits⟩, forty⟩
    rintro rfl
    cases forty

theorem ofList_sign (s : String) : String.ofList ('0' :: 'x' :: s.toList) = "0x" ++ s := by
  refine String.toList_injective ?_
  rw [String.toList_ofList, String.toList_append]
  rfl

theorem addressText_of_twenty {items : List Json} {bytes : List UInt8}
    (spelled : Bytes.Spells (.arr items) bytes) (twenty : bytes.length = 20) :
    Normalizer.addressText (.arr items) = .str (checksum bytes) := by
  have read : Bytes.ofList? (.arr items) = some bytes := Bytes.spells_iff.1 spelled
  rw [Normalizer.addressText, read]
  exact if_pos twenty

/-- A list of anything else than twenty bytes stays. -/
theorem addressText_of_other {items : List Json}
    (other : ∀ bytes, Bytes.Spells (.arr items) bytes → bytes.length ≠ 20) :
    Normalizer.addressText (.arr items) = .arr items := by
  cases read : Bytes.ofList? (.arr items) with
  | none => rw [Normalizer.addressText, read]
  | some bytes =>
    rw [Normalizer.addressText, read]
    exact if_neg (other bytes (Bytes.spells_iff.2 read))

theorem written_addressText (v : Json) : Written v (Normalizer.addressText v) := by
  cases v with
  | arr items =>
    by_cases address : ∃ bytes, Bytes.Spells (.arr items) bytes ∧ bytes.length = 20
    · obtain ⟨bytes, spelled, twenty⟩ := address
      have checksummed : Checksummed bytes (checksumDigits bytes) :=
        checksummed_checksumDigits (by omega)
      have forty := length_eq_of_checksummed checksummed
      rw [addressText_of_twenty spelled twenty]
      exact .bytes spelled twenty (by omega) checksummed
    · have other : ∀ bytes, Bytes.Spells (.arr items) bytes → bytes.length ≠ 20 :=
        fun bytes spelled twenty => address ⟨bytes, spelled, twenty⟩
      rw [addressText_of_other other]
      refine .other (fun _ bytes _ => other bytes) ?_
      rintro _ ⟨⟩
  | str s =>
    rw [Normalizer.addressText]
    split
    · next bare =>
      obtain ⟨forty, digits⟩ := isBareAddress_iff.1 bare
      rw [ofList_sign]
      exact .digits forty digits
    · next long =>
      refine .other ?_ ?_
      · rintro _ _ ⟨⟩
      · rintro _ ⟨⟩ forty digits
        exact long (isBareAddress_iff.2 ⟨forty, digits⟩)
  | _ =>
    refine .other ?_ ?_
    · rintro _ _ ⟨⟩
    · rintro _ ⟨⟩

/-- Steps that give rise to no notice, item by item. -/
theorem exists_each_eq_pure {α : Type} {f : α → Noted α} {R : α → α → Prop} {as : List α}
    (h : ∀ a ∈ as, ∃ b, f a = pure b ∧ R a b) :
    ∃ bs, Noted.each f as = pure bs ∧ List.Forall₂ R as bs := by
  induction as with
  | nil => exact ⟨[], rfl, .nil⟩
  | cons a as ih =>
    obtain ⟨⟨b, first, related⟩, others⟩ := List.forall_mem_cons.1 h
    obtain ⟨bs, rest, each⟩ := ih others
    refine ⟨b :: bs, ?_, .cons related each⟩
    rw [Noted.each, first, rest]
    rfl

theorem exists_restated {kind : Kind} (addresses : kind.innermost = .address) (v : Json) :
    ∃ out, Chain.request.normalize kind v = pure out ∧ Restated kind v out := by
  induction kind generalizing v with
  | address => exact ⟨_, normalize_request_address v, written_addressText v⟩
  | array element ih =>
    by_cases list : ∃ items, v = .arr items
    · obtain ⟨items, rfl⟩ := list
      obtain ⟨outs, all, each⟩ := exists_each_eq_pure fun item _ => ih addresses item
      refine ⟨.arr outs, ?_, outs, rfl, each⟩
      rw [Chain.normalize_array_arr, all, map_pure]
    · have single : ∀ items, v ≠ .arr items := fun items h => list ⟨items, h⟩
      refine ⟨v, ?_, ?_⟩
      · exact Chain.normalize_array_of_not_arr Chain.request_subset_builtin element single
      · cases v with
        | arr items => exact absurd rfl (single items)
        | _ => rfl
  | _ => cases addresses

/-! ## Lists of numbers -/

/-- There is one list of numbers for the bytes. -/
theorem eq_map_of_spells {items : List Json} {bytes : List UInt8}
    (h : Bytes.Spells (.arr items) bytes) : items = bytes.map fun b => .ofNat b.toNat := by
  cases h with
  | list each =>
    have same : List.Forall₂ (· = ·) items (bytes.map fun b => .ofNat b.toNat) := by
      refine List.forall₂_map_right_iff.2 (each.imp ?_)
      rintro v b ⟨n, rfl, text⟩
      rw [Numeral.text_eq_repr_iff.1 text]
      rfl
    rwa [List.forall₂_eq_eq_eq] at same

/-- The bytes of a list are still there in the text that it becomes. -/
theorem lower_of_normalize {items : List Json} {bytes : List UInt8} {s : String}
    (spelled : Bytes.Spells (.arr items) bytes)
    (normalized : Chain.request.normalize .address (.arr items) = pure (.str s)) :
    s.toList.map Char.toLower = '0' :: 'x' :: Text.Hex.encode bytes := by
  have text : Normalizer.addressText (.arr items) = .str s :=
    congrArg Noted.value ((normalize_request_address _).symm.trans normalized)
  have written := written_addressText (.arr items)
  rw [text] at written
  cases written with
  | bytes spelled' _ _ checksummed =>
    rw [spelled.unique spelled', ← checksummed.digits, String.toList_ofList]
    rfl

theorem eq_of_restated_num {kind : Kind} {n : Numeral} {out : Json}
    (h : Restated kind (.num n) out) : out = .num n := by
  cases kind with
  | address =>
    cases h with
    | other => rfl
  | _ => exact h

/-- Where a list of addresses is meant, a list of numbers stays. -/
theorem normalize_numbers {kind : Kind} (addresses : kind.innermost = .address) {items : List Json}
    {bytes : List UInt8} (spelled : Bytes.Spells (.arr items) bytes) :
    Chain.request.normalize (.array kind) (.arr items) = pure (.arr items) := by
  have array : (Kind.array kind).innermost = .address := addresses
  obtain ⟨_, normalized, outs, rfl, each⟩ := exists_restated array (.arr items)
  have same : items = outs := by
    rw [eq_map_of_spells spelled, List.forall₂_map_left_iff] at each
    rw [eq_map_of_spells spelled, ← List.forall₂_eq_eq_eq, List.forall₂_map_left_iff]
    exact each.imp fun b out restated => (eq_of_restated_num restated).symm
  rw [normalized, same]

/-- Where addresses are meant every value is restated, and nothing is reported. Different lists of
twenty bytes stay different even if the case of letters does not count, and where a list of
addresses is meant, such a list stays as it is. -/
theorem restated_of_address {kind : Kind} (addresses : kind.innermost = .address) (v : Json) :
    (∃ out, Chain.request.normalize kind v = pure out ∧ Restated kind v out) ∧
    (∀ items items' bytes bytes' s s', Bytes.Spells (.arr items) bytes → bytes.length = 20 →
      Bytes.Spells (.arr items') bytes' → bytes'.length = 20 → items ≠ items' →
      Chain.request.normalize .address (.arr items) = pure (.str s) →
      Chain.request.normalize .address (.arr items') = pure (.str s') →
        s.toList.map Char.toLower ≠ s'.toList.map Char.toLower) ∧
    ∀ items bytes, Bytes.Spells (.arr items) bytes →
      Chain.request.normalize (.array kind) (.arr items) = pure (.arr items) := by
  refine ⟨exists_restated addresses v, ?_, fun items bytes => normalize_numbers addresses⟩
  intro items items' bytes bytes' s s' spelled _ spelled' _ different normalized normalized' lower
  rw [lower_of_normalize spelled normalized, lower_of_normalize spelled' normalized'] at lower
  have same : bytes = bytes' := Text.Hex.encode_inj.1 (List.cons.inj (List.cons.inj lower).2).2
  rw [eq_map_of_spells spelled, eq_map_of_spells spelled', same] at different
  exact different rfl

/-- Twenty bytes, forty digits and null in a list of addresses; twenty numbers that are meant as a
list of addresses; and two lists of which one has another last byte. -/
theorem restated_of_address_list :
    let zeros : List UInt8 := List.replicate 20 0
    let one : List UInt8 := List.replicate 19 0 ++ [1]
    let items : List Json := zeros.map fun b => .ofNat b.toNat
    let items' : List Json := one.map fun b => .ofNat b.toNat
    let digits := "00000000000000000000000000000000000000Aa"
    let kind : Kind := .array .address
    let v : Json := .arr [.arr items, .str digits, .null]
    let out : Json := .arr [.str (checksum zeros), .str ("0x" ++ digits), .null]
    kind.innermost = .address ∧
      (Chain.request.normalize kind v = pure out ∧ Restated kind v out) ∧
      (Bytes.Spells (.arr items) zeros ∧ zeros.length = 20 ∧ Bytes.Spells (.arr items') one ∧
        one.length = 20 ∧ items ≠ items' ∧
        Chain.request.normalize .address (.arr items) = pure (.str (checksum zeros)) ∧
        Chain.request.normalize .address (.arr items') = pure (.str (checksum one)) ∧
        (checksum zeros).toList.map Char.toLower ≠ (checksum one).toList.map Char.toLower) ∧
      Chain.request.normalize kind (.arr items) = pure (.arr items) := by
  intro zeros one items items' digits kind v out
  have spelled : Bytes.Spells (.arr items) zeros := Bytes.spells_iff.2 (by decide)
  have spelled' : Bytes.Spells (.arr items') one := Bytes.spells_iff.2 (by decide)
  have different : items ≠ items' := by decide
  have sign : Normalizer.addressText (.str digits) = .str ("0x" ++ digits) := by decide
  have computed : Chain.request.normalize kind v = pure out := by
    rw [Chain.normalize_array_arr]
    simp only [Noted.each, normalize_request_address, addressText_of_twenty spelled rfl, sign]
    rfl
  have normalized : Chain.request.normalize .address (.arr items) =
      pure (.str (checksum zeros)) := by
    rw [normalize_request_address, addressText_of_twenty spelled rfl]
  have normalized' : Chain.request.normalize .address (.arr items') =
      pure (.str (checksum one)) := by
    rw [normalize_request_address, addressText_of_twenty spelled' rfl]
  have single : Kind.address.innermost = .address := rfl
  have addresses : kind.innermost = .address := rfl
  obtain ⟨⟨out', became, restated⟩, apart, -⟩ := restated_of_address addresses v
  obtain ⟨-, -, flat⟩ := restated_of_address single v
  obtain rfl : out' = out := congrArg Noted.value (became.symm.trans computed)
  exact ⟨addresses, ⟨became, restated⟩,
    ⟨spelled, rfl, spelled', rfl, different, normalized, normalized',
      apart _ _ _ _ _ _ spelled rfl spelled' rfl different normalized normalized'⟩,
    flat _ _ spelled⟩

end Address

end EthGateway
