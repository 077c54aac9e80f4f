import EthGateway.Normalizer
import EthGateway.Proofs.Quantity.Spelling

/-
# EthGateway.Proofs.Normalization.Stability -- a second pass changes nothing

Every builtin step of normalization gives back what it has given before: its own results are in the
spelling that it asks for, or are values that it does not recognize. `Chain.stable_of_builtin`
says so for a whole chain, of any builtin normalizers in any order, at any depth of arrays, and for
the notices as well as for the value: an overlong byte value stays overlong and is reported again.
Nothing of the kind holds of normalizers in general, which may be any functions.

The quantities are the one case where the steps of a chain undo each other. There a chain does no
more than its last step to integers, perhaps after its last step to digits (`runAll_uint`).

Normalizing also keeps what the layers around it look at: null stays null, and nothing else becomes
null (`Chain.isNull_normalize`).
-/

namespace EthGateway

/-! ## Quantities -/

namespace Json

theorem integerToHex_integerToHex (v : Json) : v.integerToHex.integerToHex = v.integerToHex := by
  cases v with
  | num n =>
    rw [integerToHex]
    cases h : Quantity.ofNumeral? n with
    | none => simp only [integerToHex, h]
    | some q => rfl
  | _ => rfl

theorem hexToInteger_hexToInteger (v : Json) : v.hexToInteger.hexToInteger = v.hexToInteger := by
  cases v with
  | str s =>
    rw [hexToInteger]
    cases h : Quantity.decode? s with
    | none => simp only [hexToInteger, h]
    | some q => rfl
  | _ => rfl

/-- Every number comes back digit for digit, whether it was spelled as text or not. -/
theorem hexToInteger_integerToHex (v : Json) : v.integerToHex.hexToInteger = v.hexToInteger := by
  cases v with
  | num n =>
    rw [integerToHex]
    cases h : Quantity.ofNumeral? n with
    | none => rfl
    | some q =>
      obtain ⟨k, plain, small⟩ := Option.bind_eq_some_iff.1 h
      have value : k = q.val := Quantity.ofNat?_eq_some_iff.1 small
      have numeral : n = .ofNat k := Numeral.toNat?_eq_some_iff.1 plain
      simp only [hexToInteger, Quantity.decode?_encode, Quantity.toJson, ofNat, numeral, value]
  | _ => rfl

theorem isNull_integerToHex (v : Json) : v.integerToHex.isNull = v.isNull := by
  unfold integerToHex
  grind [isNull]

theorem isNull_hexToInteger (v : Json) : v.hexToInteger.isNull = v.isNull := by
  unfold hexToInteger
  grind [isNull, Quantity.toJson, ofNat]

end Json

/-! ## Bytes, text and addresses -/

namespace Bytes

theorem ofJson?_toJson (bytes : List UInt8) : ofJson? (toJson bytes) = some bytes := by
  rw [toJson, ofJson?, String.toList_ofList, ofText?, stripSign?]
  exact Text.Hex.decode?_encode bytes

theorem padTo_padTo (width : Nat) (bytes : List UInt8) :
    padTo width (padTo width bytes) = padTo width bytes := by
  have full : width - (padTo width bytes).length = 0 := by
    rw [padTo, List.length_append, List.length_replicate]
    omega
  rw [padTo, full, List.replicate_zero, List.append_nil]

theorem length_padTo_le {width : Nat} {bytes : List UInt8} (h : bytes.length ≤ width) :
    (padTo width bytes).length ≤ width := by
  rw [padTo, List.length_append, List.length_replicate]
  omega

end Bytes

namespace Normalizer

theorem canonicalBytes_canonicalBytes (kind : Kind) (v : Json) :
    canonicalBytes kind (canonicalBytes kind v).value = canonicalBytes kind v := by
  cases spelled : Bytes.ofJson? v with
  | none => simp only [canonicalBytes, spelled, Noted.value_pure]
  | some bytes =>
    cases fixed : kind.byteWidth? with
    | none => simp only [canonicalBytes, spelled, fixed, Noted.value_pure, Bytes.ofJson?_toJson]
    | some width =>
      by_cases overlong : width < bytes.length
      · simp only [canonicalBytes, spelled, fixed, if_pos overlong, Noted.noting]
      · have fits : ¬ width < (Bytes.padTo width bytes).length :=
          Nat.not_lt.2 (Bytes.length_padTo_le (Nat.not_lt.1 overlong))
        simp only [canonicalBytes, spelled, fixed, if_neg overlong, Noted.value_pure,
          Bytes.ofJson?_toJson, if_neg fits, Bytes.padTo_padTo]

theorem isNull_canonicalBytes (kind : Kind) (v : Json) :
    (canonicalBytes kind v).value.isNull = v.isNull := by
  unfold canonicalBytes
  split
  · rfl
  · next bytes spelled =>
    have notNull : v.isNull = false := by cases v <;> first | rfl | simp [Bytes.ofJson?] at spelled
    rw [notNull]
    split
    · rfl
    · split
      · exact notNull
      · rfl

theorem textToHex_textToHex (v : Json) : textToHex (textToHex v) = textToHex v := by
  cases v with
  | str s =>
    rw [textToHex]
    cases signed : Bytes.stripSign? s.toList with
    | some ds => simp only [textToHex, signed]
    | none => simp only [textToHex, Bytes.toJson, String.toList_ofList, Bytes.stripSign?]
  | _ => rfl

theorem isNull_textToHex (v : Json) : (textToHex v).isNull = v.isNull := by
  unfold textToHex
  grind [Json.isNull, Bytes.toJson]

/-- A text with the sign of hexadecimal digits is no bare address. -/
theorem isBareAddress_sign (cs : List Char) : isBareAddress ('0' :: 'x' :: cs) = false := rfl

theorem addressText_addressText (v : Json) : addressText (addressText v) = addressText v := by
  cases v with
  | arr items =>
    rw [addressText]
    cases spelled : Bytes.ofList? (.arr items) with
    | none => simp only [addressText, spelled]
    | some bytes =>
      by_cases twenty : bytes.length = Address.size
      · simp only [if_pos twenty, addressText, Address.checksum, String.toList_ofList,
          isBareAddress_sign, Bool.false_eq_true, if_false]
      · simp only [if_neg twenty, addressText, spelled]
  | str s =>
    rw [addressText]
    cases bare : isBareAddress s.toList with
    | false => simp only [Bool.false_eq_true, if_false, addressText, bare]
    | true =>
      simp only [if_true, addressText, String.toList_ofList, isBareAddress_sign,
        Bool.false_eq_true, if_false]
  | _ => rfl

theorem isNull_addressText (v : Json) : (addressText v).isNull = v.isNull := by
  unfold addressText
  grind [Json.isNull]

theorem isNull_run {n : Normalizer} (h : n ∈ builtin) (kind : Kind) (v : Json) :
    (n.run kind v).value.isNull = v.isNull := by
  cases n, h using builtin_cases with
  | bytesToHex => exact isNull_canonicalBytes kind v
  | intToHex => exact Json.isNull_integerToHex v
  | stringToHex => exact isNull_textToHex v
  | addressToHex => exact isNull_addressText v
  | hexToInt => exact Json.isNull_hexToInteger v

end Normalizer

/-! ## Steps in a row -/

namespace Noted

variable {α : Type}

/-- A step that gives back what it has given before, with the same notices. -/
def Stable (f : α → Noted α) : Prop := ∀ a, f (f a).value = f a

theorem stable_pure {f : α → α} (h : ∀ a, f (f a) = f a) : Stable fun a => pure (f a) :=
  fun a => congrArg pure (h a)

/-- One step, as often as one likes. -/
theorem stable_through_replicate {f : α → Noted α} (h : Stable f) (n : Nat) :
    Stable (through (List.replicate n f)) := by
  have settled : ∀ n a, (through (List.replicate n f) (f a).value).value = (f a).value := by
    intro n
    induction n with
    | zero => intro a; rfl
    | succ n ih =>
      intro a
      rw [List.replicate_succ, through, value_bind, h a]
      exact ih a
  intro a
  cases n with
  | zero => rfl
  | succ n =>
    have first : (through (List.replicate (n + 1) f) a).value = (f a).value := by
      rw [List.replicate_succ, through, value_bind, settled]
    rw [first, List.replicate_succ, through, through, h a]

end Noted

namespace Chain

open Normalizer

theorem runAll_of_unsupported {chain : Chain} {kind : Kind}
    (none : ∀ n ∈ chain, n.supports kind = false) (v : Json) :
    chain.runAll kind v = pure v := by
  have empty : chain.filter (fun n => n.supports kind) = [] :=
    List.filter_eq_nil_iff.2 fun n place => by simp [none n place]
  rw [runAll, empty]
  rfl

theorem runAll_cons_of_supports {n : Normalizer} {kind : Kind} (h : n.supports kind = true)
    (chain : Chain) (v : Json) :
    runAll (n :: chain) kind v = n.run kind v >>= fun w => runAll chain kind w := by
  simp only [runAll, List.filter_cons, h, if_true, List.map_cons, Noted.through]

theorem runAll_cons_of_not_supports {n : Normalizer} {kind : Kind} (h : n.supports kind = false)
    (chain : Chain) (v : Json) : runAll (n :: chain) kind v = runAll chain kind v := by
  simp only [runAll, List.filter_cons, h, Bool.false_eq_true, if_false]

/-- A chain whose steps for a kind are one normalizer over and over. -/
theorem stable_runAll_of_only {chain : Chain} {kind : Kind} (n : Normalizer)
    (only : ∀ m ∈ chain, m.supports kind = true → m = n) (h : Noted.Stable (n.run kind)) :
    Noted.Stable (chain.runAll kind) := by
  have repeated : chain.filter (fun m => m.supports kind)
      = List.replicate (chain.filter fun m => m.supports kind).length n := by
    refine List.eq_replicate_of_mem fun m hm => ?_
    obtain ⟨place, supported⟩ := List.mem_filter.1 hm
    exact only m place supported
  unfold runAll
  rw [repeated, List.map_replicate]
  exact Noted.stable_through_replicate h _

/-! ## Chains on quantities -/

/-- What a chain may come to on quantities: nothing, digits, integers, or integers and then
digits. -/
def quantityForms : List (Json → Json) :=
  [id, Json.integerToHex, Json.hexToInteger, fun v => v.hexToInteger.integerToHex]

theorem quantityForms_idem {f : Json → Json} (h : f ∈ quantityForms) (v : Json) :
    f (f v) = f v := by
  rcases (by simpa [quantityForms] using h : _ ∨ _ ∨ _ ∨ _) with rfl | rfl | rfl | rfl
  · rfl
  · exact Json.integerToHex_integerToHex v
  · exact Json.hexToInteger_hexToInteger v
  · simp only [Json.hexToInteger_integerToHex, Json.hexToInteger_hexToInteger]

/-- A step to digits in front of a form. -/
theorem quantityForms_integerToHex {f : Json → Json} (h : f ∈ quantityForms) :
    (fun v => f v.integerToHex) ∈ quantityForms := by
  rcases (by simpa [quantityForms] using h : _ ∨ _ ∨ _ ∨ _) with rfl | rfl | rfl | rfl <;>
    simp [quantityForms, Json.integerToHex_integerToHex, Json.hexToInteger_integerToHex]

/-- A step to integers in front of a form. -/
theorem quantityForms_hexToInteger {f : Json → Json} (h : f ∈ quantityForms) :
    (fun v => f v.hexToInteger) ∈ quantityForms := by
  rcases (by simpa [quantityForms] using h : _ ∨ _ ∨ _ ∨ _) with rfl | rfl | rfl | rfl <;>
    simp [quantityForms, Json.hexToInteger_hexToInteger]

theorem runAll_uint {chain : Chain} (builtin : chain ⊆ builtin) :
    ∃ f ∈ quantityForms, ∀ v, chain.runAll .uint v = pure (f v) := by
  induction chain with
  | nil => exact ⟨id, List.mem_cons_self, fun v => rfl⟩
  | cons n chain ih =>
    obtain ⟨hn, rest⟩ := List.cons_subset.1 builtin
    obtain ⟨f, hf, ih⟩ := ih rest
    cases n, hn using builtin_cases with
    | intToHex =>
      refine ⟨_, quantityForms_integerToHex hf, fun v => ?_⟩
      rw [runAll_cons_of_supports rfl, intToHex, ofKind, pure_bind, ih]
    | hexToInt =>
      refine ⟨_, quantityForms_hexToInteger hf, fun v => ?_⟩
      rw [runAll_cons_of_supports rfl, hexToInt, ofKind, pure_bind, ih]
    | bytesToHex | stringToHex | addressToHex =>
      exact ⟨f, hf, fun v => (runAll_cons_of_not_supports rfl chain v).trans (ih v)⟩

/-! ## Builtin chains -/

theorem request_subset_builtin : request ⊆ builtin := by
  simp [request, builtin]

theorem result_subset_builtin : result ⊆ builtin := by
  simp [result, builtin]

theorem stable_run {n : Normalizer} (h : n ∈ builtin) (kind : Kind) :
    Noted.Stable (n.run kind) := by
  cases n, h using builtin_cases with
  | bytesToHex => exact canonicalBytes_canonicalBytes kind
  | intToHex => exact Noted.stable_pure Json.integerToHex_integerToHex
  | stringToHex => exact Noted.stable_pure textToHex_textToHex
  | addressToHex => exact Noted.stable_pure addressText_addressText
  | hexToInt => exact Noted.stable_pure Json.hexToInteger_hexToInteger

/-- The one builtin normalizer of a kind; quantities have two and are left out. -/
def only? (kind : Kind) : Option Normalizer :=
  if kind.isByteLike then some bytesToHex
  else if kind = .string then some stringToHex
  else if kind = .address then some addressToHex
  else none

theorem only?_of_supports {kind : Kind} (hk : kind ≠ .uint) {n : Normalizer} (hn : n ∈ builtin)
    (supported : n.supports kind = true) : only? kind = some n := by
  cases n, hn using builtin_cases with
  | bytesToHex => exact if_pos supported
  | intToHex | hexToInt => exact absurd (of_decide_eq_true supported) hk
  | stringToHex =>
    obtain rfl : kind = .string := of_decide_eq_true supported
    rfl
  | addressToHex =>
    obtain rfl : kind = .address := of_decide_eq_true supported
    rfl

/-- Only quantities have more than one builtin normalizer. -/
theorem eq_of_supports {kind : Kind} (hk : kind ≠ .uint) {m n : Normalizer} (hm : m ∈ builtin)
    (hn : n ∈ builtin) (supportsM : m.supports kind = true) (supportsN : n.supports kind = true) :
    m = n := by
  have same := (only?_of_supports hk hm supportsM).symm.trans (only?_of_supports hk hn supportsN)
  exact Option.some.inj same

theorem supports_array {n : Normalizer} (h : n ∈ builtin) (element : Kind) :
    n.supports (.array element) = false := by
  cases n, h using builtin_cases <;> rfl

theorem stable_runAll {chain : Chain} (builtin : chain ⊆ builtin) (kind : Kind) :
    Noted.Stable (chain.runAll kind) := by
  by_cases hk : kind = .uint
  · obtain ⟨f, hf, form⟩ := runAll_uint builtin
    rw [hk, funext form]
    exact Noted.stable_pure (quantityForms_idem hf)
  · by_cases supported : ∃ n ∈ chain, n.supports kind = true
    · obtain ⟨n, hn, supported⟩ := supported
      refine stable_runAll_of_only n ?_ (stable_run (builtin hn) kind)
      exact fun m hm supportsM => eq_of_supports hk (builtin hm) (builtin hn) supportsM supported
    · have unsupported : ∀ n ∈ chain, n.supports kind = false := by simpa using supported
      rw [funext (runAll_of_unsupported unsupported)]
      exact fun v => rfl

/-! ## The depth of arrays -/

theorem normalize_array_arr (chain : Chain) (element : Kind) (items : List Json) :
    chain.normalize (.array element) (.arr items) =
      Json.arr <$> Noted.each (chain.normalize element) items := by
  rw [normalize]

/-- A chain that comes to the same on every item after another chain as without it does so on the
list too. -/
theorem normalize_array_after {c d : Chain} {element : Kind}
    (h : ∀ item, d.normalize element (c.normalize element item).value = d.normalize element item)
    (items : List Json) :
    d.normalize (.array element) (c.normalize (.array element) (.arr items)).value =
      d.normalize (.array element) (.arr items) := by
  rw [normalize_array_arr c, Noted.value_map, Noted.value_each, normalize_array_arr d,
    normalize_array_arr d]
  refine congrArg (Json.arr <$> ·) ?_
  ext1
  · simp [h]
  · simp [h, List.flatMap_map]

/-- Everything but a list under the kind of an array goes through the steps at once. -/
theorem normalize_eq_runAll (chain : Chain) {kind : Kind} {v : Json}
    (h : ∀ element items, kind = .array element → v ≠ .arr items) :
    chain.normalize kind v = chain.runAll kind v := by
  rw [normalize]
  rintro element items rfl rfl
  exact h element items rfl rfl

/-- What holds of the values that go through the steps at once, and of a list if it holds of its
items under the kind of an array's elements, holds of every value of every kind. -/
@[elab_as_elim]
theorem induction_on_depth {motive : Kind → Json → Prop}
    (once : ∀ kind v, (∀ element items, kind = .array element → v ≠ .arr items) → motive kind v)
    (list : ∀ element items, (∀ item, motive element item) → motive (.array element) (.arr items))
    (kind : Kind) (v : Json) : motive kind v := by
  induction kind generalizing v with
  | array element ih =>
    by_cases isList : ∃ items, v = .arr items
    · obtain ⟨items, rfl⟩ := isList
      exact list element items ih
    · exact once _ v fun _ items _ h => isList ⟨items, h⟩
  | _ => exact once _ v nofun

/-- No builtin normalizer supports the kind of an array, so a value that is no list stays. -/
theorem normalize_array_of_not_arr {chain : Chain} (builtin : chain ⊆ builtin) (element : Kind)
    {v : Json} (h : ∀ items, v ≠ .arr items) : chain.normalize (.array element) v = pure v := by
  rw [normalize_eq_runAll chain fun _ items _ => h items]
  exact runAll_of_unsupported (fun n place => supports_array (builtin place) element) v

/-- A chain that gives back what it has given before, under every kind. -/
def Stable (chain : Chain) : Prop := ∀ kind, Noted.Stable (chain.normalize kind)

section Builtin

variable {chain : Chain} (builtin : chain ⊆ builtin)

include builtin

/-- The steps do not make a list of a value that is none under the kind of an array. -/
theorem runAll_ne_arr {kind : Kind} {v : Json}
    (h : ∀ element items, kind = .array element → v ≠ .arr items) (element : Kind)
    (items : List Json) (array : kind = .array element) :
    (chain.runAll kind v).value ≠ .arr items := by
  subst array
  rw [runAll_of_unsupported fun n place => supports_array (builtin place) element]
  exact h element items rfl

/-- A second pass changes nothing and reports what the first one has reported. -/
theorem stable_of_builtin : chain.Stable := by
  intro kind v
  induction kind, v using induction_on_depth with
  | once kind v h =>
    rw [normalize_eq_runAll chain h, normalize_eq_runAll chain (runAll_ne_arr builtin h)]
    exact stable_runAll builtin kind v
  | list element items ih => exact normalize_array_after ih items

theorem isNull_runAll (kind : Kind) (v : Json) : (chain.runAll kind v).value.isNull = v.isNull := by
  induction chain generalizing v with
  | nil => rfl
  | cons n chain ih =>
    obtain ⟨hn, rest⟩ := List.cons_subset.1 builtin
    cases h : n.supports kind with
    | false => rw [runAll_cons_of_not_supports h, ih rest]
    | true => rw [runAll_cons_of_supports h, Noted.value_bind, ih rest, isNull_run hn]

theorem isNull_normalize (kind : Kind) (v : Json) :
    (chain.normalize kind v).value.isNull = v.isNull := by
  induction kind, v using induction_on_depth with
  | once kind v h =>
    rw [normalize_eq_runAll chain h]
    exact isNull_runAll builtin kind v
  | list element items =>
    rw [normalize_array_arr]
    rfl

end Builtin

theorem stable_request : Stable request := stable_of_builtin request_subset_builtin

end Chain

end EthGateway
