import EthGateway.Proofs.Normalization.Bytes

/-
# EthGateway.Proofs.Normalization.Text -- text arguments and their hexadecimal form

The normalizer of text takes every text behind the sign `0x` for hexadecimal and leaves it alone;
any other text becomes the digits of its bytes in UTF-8. What hexadecimal strings are elsewhere
(`Quantity.isHexText`) differs from that in both directions, by the texts that are `Misjudged`: the
sign `0x` with something else than digits behind it, and the sign `0X` with digits behind it. For
these, and for no others, the outcome is another than the one that goes by hexadecimal strings
(`respelled_text`).

So `0xzz` leaves as it is and is no hexadecimal string (`not_hexForm_zz`). All the same, texts that
are no hexadecimal strings stay apart.
-/

namespace EthGateway

theorem Noted.pure_inj {α : Type} {a b : α} : (pure a : Noted α) = pure b ↔ a = b :=
  ⟨congrArg Noted.value, congrArg pure⟩

namespace Bytes

/-- The bytes of a text are those that it has in UTF-8. -/
theorem toByteArray_ofString (s : String) : (ofString s).toByteArray = s.toUTF8 :=
  String.utf8Encode_toList

theorem ofString_inj {s t : String} : ofString s = ofString t ↔ s = t := by
  refine ⟨fun same => ?_, congrArg ofString⟩
  have bytes : s.toUTF8 = t.toUTF8 := by rw [← toByteArray_ofString, same, toByteArray_ofString]
  exact String.toByteArray_inj.1 bytes

theorem toJson_inj {bytes bytes' : List UInt8} : toJson bytes = toJson bytes' ↔ bytes = bytes' := by
  refine ⟨fun same => ?_, congrArg toJson⟩
  have spelled := spells_toJson bytes
  rw [same] at spelled
  exact spelled.unique (spells_toJson bytes')

theorem isHexText_toJson (bytes : List UInt8) : (toJson bytes).isHexString = true := by
  have digits := digits_of_decode? (Text.Hex.decode?_encode bytes)
  rw [toJson, Json.isHexString, Quantity.isHexText, String.toList_ofList, Quantity.stripSign?]
  exact List.all_eq_true.2 digits

end Bytes

namespace Normalizer

open Bytes

/-- What text is to become: a hexadecimal string stays, and of any other text the bytes are
written. -/
def hexForm (s : String) : Json :=
  if Quantity.isHexText s then .str s else toJson (ofString s)

/-- The text has the sign of hexadecimal digits, and something else behind it. -/
def FalseSign (s : String) : Prop :=
  ∃ ds, s.toList = '0' :: 'x' :: ds ∧ ∃ c ∈ ds, Text.Hex.isDigit c = false

/-- The text is taken for hexadecimal and is not, or is hexadecimal and not taken for it. -/
inductive Misjudged (s : String) : Prop
  | sign (fake : FalseSign s)
  | capital {ds : List Char} (sign : s.toList = '0' :: 'X' :: ds)
      (digits : ∀ c ∈ ds, Text.Hex.isDigit c = true)

/-! ## Texts with the sign and without it -/

theorem sign_or_no_sign (s : String) :
    (∃ ds, s.toList = '0' :: 'x' :: ds) ∨ ∀ ds, s.toList ≠ '0' :: 'x' :: ds := by
  by_cases signed : ∃ ds, s.toList = '0' :: 'x' :: ds
  · exact .inl signed
  · exact .inr fun ds sign => signed ⟨ds, sign⟩

theorem normalize_request_string (s : String) :
    Chain.request.normalize .string (.str s) = pure (textToHex (.str s)) :=
  Chain.normalize_eq_runAll Chain.request nofun

section Sign

variable {s : String} {ds : List Char}

theorem textToHex_of_sign (sign : s.toList = '0' :: 'x' :: ds) : textToHex (.str s) = .str s := by
  rw [textToHex, stripSign?_eq_some_iff.2 sign]

theorem textToHex_of_no_sign (none : ∀ ds, s.toList ≠ '0' :: 'x' :: ds) :
    textToHex (.str s) = toJson (ofString s) := by
  cases signed : stripSign? s.toList with
  | none => rw [textToHex, signed]
  | some ds => exact absurd (stripSign?_eq_some_iff.1 signed) (none ds)

theorem isHexText_iff_of_sign (sign : s.toList = '0' :: 'x' :: ds) :
    Quantity.isHexText s = true ↔ ¬ FalseSign s := by
  rw [Quantity.isHexText, sign, Quantity.stripSign?, List.all_eq_true]
  constructor
  · rintro digits ⟨ds', same, c, hc, other⟩
    obtain ⟨-, -, rfl⟩ : '0' = '0' ∧ 'x' = 'x' ∧ ds = ds' := by simpa [sign] using same
    rw [digits c hc] at other
    cases other
  · intro none c hc
    cases digit : Text.Hex.isDigit c with
    | true => rfl
    | false => exact absurd ⟨ds, sign, c, hc, digit⟩ none

/-- Behind the sign only hexadecimal strings are judged rightly. -/
theorem misjudged_iff_of_sign (sign : s.toList = '0' :: 'x' :: ds) :
    Misjudged s ↔ Quantity.isHexText s = false := by
  rw [← Bool.not_eq_true, isHexText_iff_of_sign sign, not_not]
  constructor
  · rintro (fake | ⟨capital, -⟩)
    · exact fake
    · rw [sign] at capital
      cases capital
  · exact .sign

/-- Without the sign only hexadecimal strings are misjudged. -/
theorem misjudged_iff_of_no_sign (none : ∀ ds, s.toList ≠ '0' :: 'x' :: ds) :
    Misjudged s ↔ Quantity.isHexText s = true := by
  constructor
  · rintro (⟨ds, sign, -⟩ | ⟨capital, digits⟩)
    · exact absurd sign (none ds)
    · rw [Quantity.isHexText, capital]
      exact List.all_eq_true.2 digits
  · intro hex
    rw [Quantity.isHexText] at hex
    split at hex
    · next ds sign =>
      rcases Quantity.stripSign?_eq_some_iff.1 sign with small | capital
      · exact absurd small (none ds)
      · exact .capital capital (List.all_eq_true.1 hex)
    · cases hex

end Sign

/-! ## What becomes of a text -/

theorem not_isHexText_of_toJson {s : String} {bytes : List UInt8}
    (plain : Quantity.isHexText s = false) : Json.str s ≠ toJson bytes := by
  intro same
  have hex : (Json.str s).isHexString = true := by rw [same, isHexText_toJson]
  rw [Json.isHexString, plain] at hex
  cases hex

/-- A text becomes what goes by hexadecimal strings unless it is misjudged. -/
theorem textToHex_eq_hexForm_iff {s : String} : textToHex (.str s) = hexForm s ↔ ¬ Misjudged s := by
  unfold hexForm
  rcases sign_or_no_sign s with ⟨ds, sign⟩ | none
  · rw [textToHex_of_sign sign, misjudged_iff_of_sign sign]
    cases hex : Quantity.isHexText s with
    | true => simp
    | false => simpa using not_isHexText_of_toJson hex
  · rw [textToHex_of_no_sign none, misjudged_iff_of_no_sign none]
    cases hex : Quantity.isHexText s with
    | true =>
      -- What is written has the sign that the text has not.
      have other : toJson (ofString s) ≠ .str s := by
        intro same
        have text := congrArg String.toList (Json.str.inj same)
        rw [String.toList_ofList] at text
        exact none _ text.symm
      simpa using other
    | false => simp

theorem isHexString_textToHex_iff {s : String} :
    (textToHex (.str s)).isHexString = true ↔ ¬ FalseSign s := by
  rcases sign_or_no_sign s with ⟨ds, sign⟩ | none
  · rw [textToHex_of_sign sign, Json.isHexString, isHexText_iff_of_sign sign]
  · rw [textToHex_of_no_sign none, isHexText_toJson]
    refine iff_of_true rfl ?_
    rintro ⟨ds, sign, -⟩
    exact none ds sign

/-- Texts that are no hexadecimal strings stay apart: the digits of one are never the other, and
texts of the same bytes are the same. -/
theorem textToHex_inj {s t : String} (hs : Quantity.isHexText s = false)
    (ht : Quantity.isHexText t = false) (same : textToHex (.str s) = textToHex (.str t)) :
    s = t := by
  have kept_or_written : ∀ r : String,
      textToHex (.str r) = .str r ∨ textToHex (.str r) = toJson (ofString r) := by
    intro r
    rcases sign_or_no_sign r with ⟨ds, sign⟩ | none
    · exact .inl (textToHex_of_sign sign)
    · exact .inr (textToHex_of_no_sign none)
  rcases kept_or_written s with first | first <;> rcases kept_or_written t with second | second
  all_goals rw [first, second] at same
  · exact Json.str.inj same
  · exact absurd same (not_isHexText_of_toJson hs)
  · exact absurd same.symm (not_isHexText_of_toJson ht)
  · exact ofString_inj.1 (toJson_inj.1 same)

/-- A text behind the sign stays, and of any other text the bytes in UTF-8 are written. This is what
goes by hexadecimal strings unless the text is misjudged, and a hexadecimal string unless the sign
is false. Texts that are no hexadecimal strings never become the same argument. -/
theorem respelled_text (s t : String) :
    (∀ ds, s.toList = '0' :: 'x' :: ds →
      Chain.request.normalize .string (.str s) = pure (.str s)) ∧
    ((∀ ds, s.toList ≠ '0' :: 'x' :: ds) →
      Chain.request.normalize .string (.str s) = pure (toJson (ofString s)) ∧
        (ofString s).toByteArray = s.toUTF8) ∧
    (Chain.request.normalize .string (.str s) = pure (hexForm s) ↔ ¬ Misjudged s) ∧
    ((Chain.request.normalize .string (.str s)).value.isHexString = true ↔ ¬ FalseSign s) ∧
    (Quantity.isHexText s = false → Quantity.isHexText t = false →
      Chain.request.normalize .string (.str s) = Chain.request.normalize .string (.str t) →
        s = t) := by
  simp only [normalize_request_string, Noted.pure_inj]
  refine ⟨fun ds => textToHex_of_sign, ?_, textToHex_eq_hexForm_iff, isHexString_textToHex_iff,
    textToHex_inj⟩
  intro none
  exact ⟨textToHex_of_no_sign none, toByteArray_ofString s⟩

/-- The text `hi` is written, `0xzz` stays, and the two stay apart. -/
theorem respelled_text_hi :
    (∀ ds, "hi".toList ≠ '0' :: 'x' :: ds) ∧
      Chain.request.normalize .string (.str "hi") = pure (.str "0x6869") ∧
      ¬ Misjudged "hi" ∧ Chain.request.normalize .string (.str "hi") = pure (hexForm "hi") ∧
      Quantity.isHexText "hi" = false ∧ Quantity.isHexText "0xzz" = false ∧
      Chain.request.normalize .string (.str "hi") ≠
        Chain.request.normalize .string (.str "0xzz") := by
  obtain ⟨-, written, form, -, apart⟩ := respelled_text "hi" "0xzz"
  have none : ∀ ds, "hi".toList ≠ '0' :: 'x' :: ds := by
    intro ds sign
    have first : 'h' = '0' := (List.cons.inj sign).1
    exact absurd first (by decide)
  have plain : Quantity.isHexText "hi" = false := by decide
  have plain' : Quantity.isHexText "0xzz" = false := by decide
  have judged : ¬ Misjudged "hi" := by
    rw [misjudged_iff_of_no_sign none, plain]
    exact Bool.false_ne_true
  refine ⟨none, ?_, judged, form.2 judged, plain, plain', ?_⟩
  · rw [(written none).1]
    decide +kernel
  · intro same
    exact absurd (apart plain plain' same) (by decide)

/-- Behind the sign of hexadecimal digits anything stays, so that this text leaves as it is although
it is no hexadecimal string, and not as the digits of its bytes. -/
theorem not_hexForm_zz :
    Quantity.isHexText "0xzz" = false ∧ hexForm "0xzz" = .str "0x30787a7a" ∧
      Chain.request.normalize .string (.str "0xzz") = pure (.str "0xzz") ∧
      (Chain.request.normalize .string (.str "0xzz")).value.isHexString = false ∧
      ¬ ∀ s, Chain.request.normalize .string (.str s) = pure (hexForm s) := by
  have plain : Quantity.isHexText "0xzz" = false := by decide
  have form : hexForm "0xzz" = .str "0x30787a7a" := by decide +kernel
  have stays : Chain.request.normalize .string (.str "0xzz") = pure (.str "0xzz") :=
    normalize_request_string "0xzz"
  refine ⟨plain, form, stays, by rw [stays]; exact plain, ?_⟩
  intro always
  have same := Noted.pure_inj.1 (stays.symm.trans (always "0xzz"))
  rw [form] at same
  exact absurd same (by decide)

end Normalizer

end EthGateway
