import EthGateway.Proofs.Normalization.Stability
import EthGateway.Proofs.Text.LetterCase
import Mathlib.Data.List.Forall2

/-
# EthGateway.Proofs.Normalization.Bytes -- one spelling for all that spells the same bytes

`Bytes.Spells` says without the reader which values spell which bytes: a list of numbers that are
written as bytes are, digits behind the sign `0x`, and digits without a sign, of either case. The
reader agrees with it (`spells_iff`), so no value spells two things.

Under a kind of bytes every such value becomes the canonical spelling of its bytes, with zeros
behind them up to the width of the kind. Bytes beyond that width are reported and left alone, and
what spells no bytes is left alone without a word (`oneSpelling_of_byteLike`).
-/

namespace EthGateway

namespace Numeral

/-- Only the numeral of a natural number is written as the number is. -/
theorem text_eq_repr_iff {n : Numeral} {k : Nat} : n.text = Nat.repr k ↔ n = .ofNat k := by
  constructor
  · intro same
    have chars : n.chars = Nat.toDigits 10 k := String.ofList_injective same
    have digit : ∀ c ∈ n.chars, c.isDigit = true := by
      rw [chars]
      exact fun c => Nat.isDigit_of_mem_toDigits (by decide) (by decide)
    obtain ⟨negative, whole, fraction, exponent⟩ := n
    -- A minus sign, a point or a mark would be a character that is no digit.
    have plain : negative = false ∧ fraction = [] ∧ exponent = none := by
      refine ⟨?_, ?_, ?_⟩
      · cases negative with
        | false => rfl
        | true => exact absurd (digit '-' (by simp [Numeral.chars])) (by decide)
      · cases fraction with
        | nil => rfl
        | cons d ds => exact absurd (digit '.' (by simp [Numeral.chars, fractionText])) (by decide)
      · cases exponent with
        | none => rfl
        | some e => exact absurd (digit 'e' (by simp [Numeral.chars, exponentText])) (by decide)
    obtain ⟨rfl, rfl, rfl⟩ := plain
    have digits : Nat.toDigits 10 whole = Nat.toDigits 10 k := by
      simpa [Numeral.chars, fractionText, exponentText] using chars
    have value : whole = k := by
      rw [← Nat.ofDigitChars_toDigits (b := 10) (n := whole) (by decide) (by decide), digits,
        Nat.ofDigitChars_toDigits (by decide) (by decide)]
    rw [value]
    rfl
  · rintro rfl
    simp [text, Numeral.chars, ofNat, fractionText, exponentText, Nat.repr]

end Numeral

theorem mapM_eq_some_iff {α β : Type} {f : α → Option β} {xs : List α} {ys : List β} :
    xs.mapM f = some ys ↔ List.Forall₂ (fun x y => f x = some y) xs ys := by
  induction xs generalizing ys with
  | nil => cases ys <;> simp
  | cons x xs ih =>
    rw [List.mapM_cons, Option.bind_eq_bind, Option.bind_eq_some_iff, List.forall₂_cons_left_iff]
    constructor
    · rintro ⟨y, first, rest⟩
      obtain ⟨ys', others, whole⟩ := Option.bind_eq_some_iff.1 rest
      exact ⟨y, ys', first, ih.1 others, (Option.some.inj whole).symm⟩
    · rintro ⟨y, ys', first, others, rfl⟩
      exact ⟨y, first, by rw [ih.2 others]; rfl⟩

namespace Bytes

/-! ## What spells bytes -/

/-- The value is a number that is written as the byte is. -/
def IsByte (v : Json) (b : UInt8) : Prop := ∃ n : Numeral, v = .num n ∧ n.text = Nat.repr b.toNat

/-- The value spells the bytes. -/
inductive Spells : Json → List UInt8 → Prop
  /-- Numbers, one for each byte. -/
  | list {items : List Json} {bytes : List UInt8} (each : List.Forall₂ IsByte items bytes) :
      Spells (.arr items) bytes
  /-- Digits behind the sign, two for each byte, whatever the case of their letters. -/
  | signed {s : String} {ds : List Char} {bytes : List UInt8} (sign : s.toList = '0' :: 'x' :: ds)
      (digits : ds.map Char.toLower = Text.Hex.encode bytes) : Spells (.str s) bytes
  /-- Such digits without a sign, if there are any. -/
  | bare {s : String} {bytes : List UInt8} (some_byte : bytes ≠ [])
      (digits : s.toList.map Char.toLower = Text.Hex.encode bytes) : Spells (.str s) bytes

theorem isByte_iff {v : Json} {b : UInt8} : IsByte v b ↔ byte? v = some b := by
  have small := b.toNat_lt
  constructor
  · rintro ⟨n, rfl, text⟩
    obtain rfl := Numeral.text_eq_repr_iff.1 text
    rw [byte?, Numeral.toNat?_ofNat, Option.bind_some, if_pos small, UInt8.ofNat_toNat]
  · intro read
    cases v with
    | num n =>
      obtain ⟨k, plain, byte⟩ := Option.bind_eq_some_iff.1 read
      split at byte
      · next below =>
        obtain rfl := Option.some.inj byte
        refine ⟨n, rfl, ?_⟩
        rw [UInt8.toNat_ofNat_of_lt' below, Numeral.text_eq_repr_iff]
        exact Numeral.toNat?_eq_some_iff.1 plain
      · cases byte
    | _ => cases read

theorem stripSign?_eq_some_iff {cs ds : List Char} :
    stripSign? cs = some ds ↔ cs = '0' :: 'x' :: ds := by
  unfold stripSign?
  split <;> grind

/-- There is no sign among digits, so none in front of them. -/
theorem stripSign?_of_digits {cs : List Char} (digits : ∀ c ∈ cs, Text.Hex.isDigit c = true) :
    stripSign? cs = none := by
  cases sign : stripSign? cs with
  | none => rfl
  | some ds =>
    rw [stripSign?_eq_some_iff.1 sign] at digits
    exact absurd (digits 'x' (by simp)) (by decide)

theorem isBare_iff {cs : List Char} :
    isBare cs = true ↔ cs ≠ [] ∧ ∀ c ∈ cs, Text.Hex.isDigit c = true := by
  rw [isBare, Bool.and_eq_true, Bool.and_eq_true, List.all_eq_true, and_assoc]
  constructor
  · rintro ⟨-, nonempty, digits⟩
    exact ⟨by simpa using nonempty, digits⟩
  · rintro ⟨nonempty, digits⟩
    exact ⟨by rw [stripSign?_of_digits digits]; rfl, by simpa using nonempty, digits⟩

theorem digits_of_decode? {ds : List Char} {bytes : List UInt8}
    (read : Text.Hex.decode? ds = some bytes) : ∀ c ∈ ds, Text.Hex.isDigit c = true :=
  (Text.Hex.exists_decode?_iff.1 ⟨bytes, read⟩).2

/-- Only the empty text spells no byte at all. -/
theorem decode?_eq_some_nil_iff {ds : List Char} : Text.Hex.decode? ds = some [] ↔ ds = [] := by
  rw [Text.Hex.decode?_eq_some_iff]
  exact List.map_eq_nil_iff

theorem ofText?_eq_some_iff {cs : List Char} {bytes : List UInt8} :
    ofText? cs = some bytes ↔
      (∃ ds, cs = '0' :: 'x' :: ds ∧ ds.map Char.toLower = Text.Hex.encode bytes) ∨
        bytes ≠ [] ∧ cs.map Char.toLower = Text.Hex.encode bytes := by
  simp only [← stripSign?_eq_some_iff, ← Text.Hex.decode?_eq_some_iff]
  unfold ofText?
  cases sign : stripSign? cs with
  | some ds =>
    have signed : Text.Hex.decode? cs ≠ some bytes := by
      intro read
      rw [stripSign?_of_digits (digits_of_decode? read)] at sign
      cases sign
    simp [signed]
  | none =>
    cases bare : isBare cs with
    | true =>
      have nonempty : Text.Hex.decode? cs = some bytes → bytes ≠ [] := by
        rintro read rfl
        exact (isBare_iff.1 bare).1 (decode?_eq_some_nil_iff.1 read)
      simpa using nonempty
    | false =>
      have unread : ¬ (bytes ≠ [] ∧ Text.Hex.decode? cs = some bytes) := by
        rintro ⟨some_byte, read⟩
        have nonempty : cs ≠ [] := by
          rintro rfl
          exact some_byte (Option.some.inj read).symm
        rw [isBare_iff.2 ⟨nonempty, digits_of_decode? read⟩] at bare
        cases bare
      simp [unread]

/-- A value is read as the bytes that it spells. -/
theorem spells_iff {v : Json} {bytes : List UInt8} : Spells v bytes ↔ ofJson? v = some bytes := by
  cases v with
  | arr items =>
    have traversal : ofJson? (.arr items) = some bytes ↔ List.Forall₂ IsByte items bytes := by
      simp only [ofJson?, ofList?, mapM_eq_some_iff, ← isByte_iff]
    rw [traversal]
    constructor
    · rintro ⟨each⟩
      exact each
    · exact .list
  | str s =>
    rw [ofJson?, ofText?_eq_some_iff]
    constructor
    · rintro (_ | ⟨sign, digits⟩ | ⟨some_byte, digits⟩)
      · exact .inl ⟨_, sign, digits⟩
      · exact .inr ⟨some_byte, digits⟩
    · rintro (⟨ds, sign, digits⟩ | ⟨some_byte, digits⟩)
      · exact .signed sign digits
      · exact .bare some_byte digits
  | _ =>
    constructor
    · rintro ⟨⟩
    · rintro ⟨⟩

/-- Texts of an even number of digits spell bytes: all of them behind a sign, and without a sign all
but the empty one. -/
theorem exists_spells_str_iff {s : String} :
    (∃ bytes, Spells (.str s) bytes) ↔
      ∃ ds, (s.toList = '0' :: 'x' :: ds ∨ s.toList = ds ∧ ds ≠ []) ∧ ds.length % 2 = 0 ∧
        ∀ c ∈ ds, Text.Hex.isDigit c = true := by
  simp only [← Text.Hex.exists_decode?_iff, Text.Hex.decode?_eq_some_iff]
  constructor
  · rintro ⟨bytes, _ | ⟨sign, digits⟩ | ⟨some_byte, digits⟩⟩
    · exact ⟨_, .inl sign, bytes, digits⟩
    · refine ⟨_, .inr ⟨rfl, ?_⟩, bytes, digits⟩
      intro empty
      rw [empty] at digits
      exact some_byte (Text.Hex.encode_inj.1 digits.symm)
  · rintro ⟨ds, sign | ⟨rfl, nonempty⟩, bytes, digits⟩
    · exact ⟨bytes, .signed sign digits⟩
    · refine ⟨bytes, .bare ?_ digits⟩
      rintro rfl
      exact nonempty (List.map_eq_nil_iff.1 digits)

theorem Spells.unique {v : Json} {bytes bytes' : List UInt8} (h : Spells v bytes)
    (h' : Spells v bytes') : bytes = bytes' :=
  Option.some.inj ((spells_iff.1 h).symm.trans (spells_iff.1 h'))

/-- The canonical spelling is one, its letters being small. -/
theorem spells_toJson (bytes : List UInt8) : Spells (toJson bytes) bytes :=
  .signed String.toList_ofList (Text.Hex.map_toLower_encode bytes)

/-! ## Under the kinds of bytes -/

/-- The bytes are no more than a value of the kind has. -/
def Fits (kind : Kind) (bytes : List UInt8) : Prop :=
  ∀ width, kind.byteWidth? = some width → bytes.length ≤ width

/-- The bytes with zeros behind them up to the width of the kind, if it has one. -/
def filled (kind : Kind) (bytes : List UInt8) : List UInt8 := padTo (kind.byteWidth?.getD 0) bytes

/-- What becomes of a value under a kind of bytes. -/
structure OneSpelling (kind : Kind) (v : Json) : Prop where
  unique : ∀ bytes bytes', Spells v bytes → Spells v bytes' → bytes = bytes'
  /-- Any even number of digits will do behind a sign, and any but none without it. -/
  digits : ∀ s, v = .str s → ((∃ bytes, Spells v bytes) ↔
    ∃ ds, (s.toList = '0' :: 'x' :: ds ∨ s.toList = ds ∧ ds ≠ []) ∧ ds.length % 2 = 0 ∧
      ∀ c ∈ ds, Text.Hex.isDigit c = true)
  /-- All that spells the bytes becomes the same text, which spells them too, with zeros behind. -/
  fitting : ∀ bytes, Spells v bytes → Fits kind bytes →
    Chain.request.normalize kind v = pure (toJson (filled kind bytes)) ∧
      Spells (toJson (filled kind bytes)) (filled kind bytes) ∧ bytes <+: filled kind bytes ∧
      (∀ width, kind.byteWidth? = some width → (filled kind bytes).length = width) ∧
      ∀ w, Spells w bytes → Chain.request.normalize kind w = Chain.request.normalize kind v
  overlong : ∀ bytes, Spells v bytes → ¬ Fits kind bytes →
    (Chain.request.normalize kind v).value = v ∧
      (Chain.request.normalize kind v).notices = [.overlong kind bytes.length] ∧
      (Chain.request.normalize kind v).notices.map Notice.line = ["WARN " ++ kind.text
        ++ " value has " ++ Nat.repr bytes.length ++ " bytes; forwarding unchanged"]
  unspelled : (∀ bytes, ¬ Spells v bytes) → Chain.request.normalize kind v = pure v

theorem normalize_request_byteLike {kind : Kind} (byteLike : kind.isByteLike = true) (v : Json) :
    Chain.request.normalize kind v = Normalizer.canonicalBytes kind v := by
  have alone : Chain.request.runAll kind v = Normalizer.canonicalBytes kind v >>= pure := by
    cases kind <;> first | rfl | cases byteLike
  rw [Chain.normalize_eq_runAll, alone, bind_pure]
  rintro element items rfl
  cases byteLike

section Widths

variable {kind : Kind} {v : Json} {bytes : List UInt8}

theorem canonicalBytes_of_fits (spelled : Spells v bytes) (fits : Fits kind bytes) :
    Normalizer.canonicalBytes kind v = pure (toJson (filled kind bytes)) := by
  rw [Normalizer.canonicalBytes, spells_iff.1 spelled, filled]
  cases fixed : kind.byteWidth? with
  | none => rw [Option.getD_none, padTo, Nat.zero_sub, List.replicate_zero, List.append_nil]
  | some width => exact if_neg (Nat.not_lt.2 (fits width fixed))

theorem canonicalBytes_of_not_fits (spelled : Spells v bytes) (overlong : ¬ Fits kind bytes) :
    Normalizer.canonicalBytes kind v = .noting (.overlong kind bytes.length) v := by
  rw [Normalizer.canonicalBytes, spells_iff.1 spelled]
  cases fixed : kind.byteWidth? with
  | none =>
    -- Without a width nothing is too long.
    have fits : Fits kind bytes := by
      intro width same
      rw [fixed] at same
      cases same
    exact absurd fits overlong
  | some width =>
    refine if_pos (Nat.lt_of_not_le fun short => overlong ?_)
    intro width' same
    rw [fixed] at same
    obtain rfl := Option.some.inj same
    exact short

theorem canonicalBytes_of_not_spells (unspelled : ∀ bytes, ¬ Spells v bytes) :
    Normalizer.canonicalBytes kind v = pure v := by
  cases read : ofJson? v with
  | none => rw [Normalizer.canonicalBytes, read]
  | some bytes => exact absurd (spells_iff.2 read) (unspelled bytes)

theorem prefix_filled (kind : Kind) (bytes : List UInt8) : bytes <+: filled kind bytes :=
  List.prefix_append _ _

theorem length_filled {width : Nat} (fits : Fits kind bytes)
    (fixed : kind.byteWidth? = some width) : (filled kind bytes).length = width := by
  have short := fits width fixed
  rw [filled, fixed, Option.getD_some, padTo, List.length_append, List.length_replicate]
  omega

end Widths

theorem line_overlong (kind : Kind) (length : Nat) :
    (Notice.overlong kind length).line = "WARN " ++ kind.text ++ " value has " ++ Nat.repr length
      ++ " bytes; forwarding unchanged" := by
  have word : "WARN " = "WARN" ++ " " := by decide
  show "WARN" ++ " " ++ (kind.text ++ " value has " ++ Nat.repr length
    ++ " bytes; forwarding unchanged") = _
  rw [word]
  simp only [String.append_assoc]

/-- Under a kind of bytes all that spells the same bytes becomes one text, with zeros behind the
bytes up to the width of the kind. Bytes beyond it stay and are reported, and what spells no bytes
stays. -/
theorem oneSpelling_of_byteLike {kind : Kind} (byteLike : kind.isByteLike = true) (v : Json) :
    OneSpelling kind v := by
  have same := normalize_request_byteLike byteLike
  refine ⟨fun bytes bytes' => Spells.unique, ?_, ?_, ?_, ?_⟩
  · rintro s rfl
    exact exists_spells_str_iff
  · intro bytes spelled fits
    refine ⟨?_, spells_toJson _, prefix_filled kind bytes, fun width => length_filled fits, ?_⟩
    · rw [same, canonicalBytes_of_fits spelled fits]
    · intro w spelled'
      rw [same, same, canonicalBytes_of_fits spelled fits, canonicalBytes_of_fits spelled' fits]
  · intro bytes spelled overlong
    have noted := (same v).trans (canonicalBytes_of_not_fits spelled overlong)
    rw [noted]
    exact ⟨rfl, rfl, congrArg (· :: []) (line_overlong kind bytes.length)⟩
  · intro unspelled
    rw [same, canonicalBytes_of_not_spells unspelled]

/-- Under `bytes2` one byte in a list, and as digits in either case, is filled up with a zero; three
bytes are reported; a sign with a capital letter makes no bytes. -/
theorem oneSpelling_of_byteLike_two :
    let kind : Kind := .fixedBytes 2
    let list : Json := .arr [.ofNat 171]
    let digits : Json := .str "0xaB"
    let long : Json := .str "aAbBcC"
    let capital : Json := .str "0XAB"
    kind.isByteLike = true ∧
      (Spells list [171] ∧ Fits kind [171] ∧
        Chain.request.normalize kind list = pure (.str "0xab00")) ∧
      (Spells digits [171] ∧
        Chain.request.normalize kind digits = Chain.request.normalize kind list) ∧
      (Spells long [0xaa, 0xbb, 0xcc] ∧ ¬ Fits kind [0xaa, 0xbb, 0xcc] ∧
        (Chain.request.normalize kind long).value = long ∧
        (Chain.request.normalize kind long).notices.map Notice.line =
          ["WARN bytes2 value has 3 bytes; forwarding unchanged"]) ∧
      (∀ bytes, ¬ Spells capital bytes) ∧
        Chain.request.normalize kind capital = pure capital := by
  intro kind list digits long capital
  have byteLike : kind.isByteLike = true := rfl
  have one : Spells list [171] := spells_iff.2 (by decide)
  have either : Spells digits [171] := spells_iff.2 (by decide)
  have three : Spells long [0xaa, 0xbb, 0xcc] := spells_iff.2 (by decide)
  have fits : Fits kind [171] := by
    rintro width ⟨⟩
    decide
  have overlong : ¬ Fits kind [0xaa, 0xbb, 0xcc] := fun fits => absurd (fits 2 rfl) (by decide)
  have none : ∀ bytes, ¬ Spells capital bytes := by
    intro bytes spelled
    have unread : ofJson? capital = none := by decide
    rw [spells_iff, unread] at spelled
    cases spelled
  obtain ⟨canonical, -, -, -, alike⟩ :=
    (oneSpelling_of_byteLike byteLike list).fitting _ one fits
  obtain ⟨stays, -, reported⟩ := (oneSpelling_of_byteLike byteLike long).overlong _ three overlong
  refine ⟨byteLike, ⟨one, fits, ?_⟩, ⟨either, alike digits either⟩,
    ⟨three, overlong, stays, ?_⟩, none, (oneSpelling_of_byteLike byteLike capital).unspelled none⟩
  · rw [canonical]
    decide +kernel
  · rw [reported]
    decide +kernel

end Bytes

end EthGateway
