import EthGateway.Json.Basic
import EthGateway.Json.Node

/-
# EthGateway.Json.Reader -- values from texts

Every string of a value has a text, the last of several members under one key is kept, and arrays
and objects enclose one another no deeper than a limit. What breaks these rules is refused.

Two keys are reserved. An object that starts with one of them is no record: its only member is a
text, and the object stands for the number, or for the whole value, that this text spells. A text in
a text is read like one from outside, with a limit of its own, and may hold further ones. Behind
another key a reserved key is a key like any other.
-/

namespace EthGateway.Json

/-- The number of arrays and objects that may enclose one another in a text from outside. -/
def maxDepth : Nat := 127

/-! ## Objects that stand for other values -/

/-- What the text in an object spells if the object is no record. -/
inductive Embedded where
  | number
  | value
deriving DecidableEq, Repr

/-- The key that reserves an object. -/
def Embedded.key : Embedded → String
  | .number => "$serde_json::private::Number"
  | .value => "$serde_json::private::RawValue"

/-- What a key at the front of an object reserves it for. -/
def Embedded.ofKey? (key : String) : Option Embedded :=
  if key = Embedded.number.key then some .number
  else if key = Embedded.value.key then some .value
  else none

theorem Embedded.ofKey?_eq_some_iff {key : String} {e : Embedded} :
    ofKey? key = some e ↔ key = e.key := by
  have distinct : Embedded.number.key ≠ Embedded.value.key := by decide
  constructor
  · intro h
    unfold ofKey? at h
    split at h
    · next hk => obtain rfl := Option.some.inj h; exact hk
    · split at h
      · next hk => obtain rfl := Option.some.inj h; exact hk
      · simp at h
  · rintro rfl
    cases e with
    | number => simp [ofKey?]
    | value => simp [ofKey?, distinct.symm]

namespace Node

/-- What an object is reserved for by its first member. -/
def embedded? : List (Option String × Node) → Option Embedded
  | (some key, _) :: _ => Embedded.ofKey? key
  | _ => none

/-- The text that is the only member of an object. -/
def soleText? : List (Option String × Node) → Option String
  | [(_, .str s)] => s
  | _ => none

/-- The value of an object that is no record; `inner` reads a text in a text. -/
def embeddedValue? (inner : String → Option Json) (members : List (Option String × Node)) :
    Embedded → Option Json
  | .number => (soleText? members).bind fun s => (Numeral.ofChars? s.toList).map .num
  | .value => (soleText? members).bind inner

/-! ## Values of nodes -/

mutual

/-- The value of a node nested no deeper than `depth`; `none` too if a string has no text or an
object is reserved and stands for nothing. -/
def valueWith? (inner : String → Option Json) : (depth : Nat) → Node → Option Json
  | _, .null => some .null
  | _, .bool b => some (.bool b)
  | _, .num n => some (.num n)
  | _, .str s => s.map .str
  | 0, .arr _ => none
  | depth + 1, .arr vs => (itemsWith? inner depth vs).map .arr
  | 0, .obj _ => none
  | depth + 1, .obj ms =>
    match embedded? ms with
    | some e => embeddedValue? inner ms e
    | none => (membersWith? inner depth ms).map .ofMembers
termination_by structural _ v => v

/-- The values of a list of nodes. -/
def itemsWith? (inner : String → Option Json) (depth : Nat) : List Node → Option (List Json)
  | [] => some []
  | v :: vs =>
    match valueWith? inner depth v, itemsWith? inner depth vs with
    | some x, some xs => some (x :: xs)
    | _, _ => none
termination_by structural vs => vs

/-- The members of a record in the order of the text. -/
def membersWith? (inner : String → Option Json) (depth : Nat) :
    List (Option String × Node) → Option (List (String × Json))
  | [] => some []
  | (key, v) :: ms =>
    match key, valueWith? inner depth v, membersWith? inner depth ms with
    | some k, some x, some xs => some ((k, x) :: xs)
    | _, _, _ => none
termination_by structural ms => ms

end

/-- Read a text in a text; one in it again takes one of the fuel. -/
def innerWithin? : (fuel : Nat) → String → Option Json
  | 0, _ => none
  | fuel + 1, text => (read? text).bind (valueWith? (innerWithin? fuel) maxDepth)

/-- Read a text in a text. A text is longer than every text in it, so its length is fuel enough. -/
def inner? (text : String) : Option Json := innerWithin? text.length text

/-- The value of a node nested no deeper than `depth`. -/
def toJson? (depth : Nat) (v : Node) : Option Json := valueWith? inner? depth v

end Node

/-- Read a JSON text nested no deeper than `depth`. -/
def read? (depth : Nat) (text : String) : Option Json := (Node.read? text).bind (Node.toJson? depth)

/-! ## What is read is ordered -/

namespace Node

theorem ordered_of_embeddedValue? {inner : String → Option Json}
    (hinner : ∀ s x, inner s = some x → x.Ordered) {ms : List (Option String × Node)}
    {e : Embedded} {x : Json} (h : embeddedValue? inner ms e = some x) : x.Ordered := by
  cases e with
  | number =>
    obtain ⟨s, -, h⟩ := Option.bind_eq_some_iff.1 h
    obtain ⟨n, -, rfl⟩ := Option.map_eq_some_iff.1 h
    trivial
  | value =>
    obtain ⟨s, -, h⟩ := Option.bind_eq_some_iff.1 h
    exact hinner s x h

mutual

theorem ordered_of_valueWith? {inner : String → Option Json}
    (hinner : ∀ s x, inner s = some x → x.Ordered) {depth : Nat} : {v : Node} → {x : Json} →
    valueWith? inner depth v = some x → x.Ordered
  | .null, x, h => by
    obtain rfl : Json.null = x := by simpa [valueWith?] using h
    trivial
  | .bool b, x, h => by
    obtain rfl : Json.bool b = x := by simpa [valueWith?] using h
    trivial
  | .num n, x, h => by
    obtain rfl : Json.num n = x := by simpa [valueWith?] using h
    trivial
  | .str s, x, h => by
    obtain ⟨t, -, rfl⟩ : ∃ t, s = some t ∧ Json.str t = x := by simpa [valueWith?] using h
    trivial
  | .arr vs, x, h => by
    cases depth with
    | zero => simp [valueWith?] at h
    | succ depth =>
      obtain ⟨xs, hxs, rfl⟩ := Option.map_eq_some_iff.1 h
      exact orderedItems_of_itemsWith? hinner hxs
  | .obj ms, x, h => by
    cases depth with
    | zero => simp [valueWith?] at h
    | succ depth =>
      unfold valueWith? at h
      split at h
      · exact ordered_of_embeddedValue? hinner h
      · obtain ⟨xs, hxs, rfl⟩ := Option.map_eq_some_iff.1 h
        exact ⟨Record.ordered_ofList xs, orderedMembers_iff.2 fun m hm =>
          orderedMembers_iff.1 (orderedMembers_of_membersWith? hinner hxs) m
            (Record.mem_of_mem_ofList hm)⟩
termination_by structural v => v

theorem orderedItems_of_itemsWith? {inner : String → Option Json}
    (hinner : ∀ s x, inner s = some x → x.Ordered) {depth : Nat} : {vs : List Node} →
    {xs : List Json} → itemsWith? inner depth vs = some xs → OrderedItems xs
  | [], xs, h => by
    obtain rfl : [] = xs := by simpa [itemsWith?] using h
    trivial
  | v :: vs, xs, h => by
    unfold itemsWith? at h
    split at h
    · next x xs' hx hxs =>
      obtain rfl := Option.some.inj h
      exact ⟨ordered_of_valueWith? hinner hx, orderedItems_of_itemsWith? hinner hxs⟩
    · simp at h
termination_by structural vs => vs

theorem orderedMembers_of_membersWith? {inner : String → Option Json}
    (hinner : ∀ s x, inner s = some x → x.Ordered) {depth : Nat} :
    {ms : List (Option String × Node)} → {xs : List (String × Json)} →
    membersWith? inner depth ms = some xs → OrderedMembers xs
  | [], xs, h => by
    obtain rfl : [] = xs := by simpa [membersWith?] using h
    trivial
  | (key, v) :: ms, xs, h => by
    unfold membersWith? at h
    split at h
    · next k x xs' hx hxs =>
      obtain rfl := Option.some.inj h
      exact ⟨ordered_of_valueWith? hinner hx, orderedMembers_of_membersWith? hinner hxs⟩
    · simp at h
termination_by structural ms => ms

end

theorem ordered_of_innerWithin? {fuel : Nat} {text : String} {x : Json}
    (h : innerWithin? fuel text = some x) : x.Ordered := by
  induction fuel generalizing text x with
  | zero => simp [innerWithin?] at h
  | succ fuel ih =>
    obtain ⟨v, -, hv⟩ := Option.bind_eq_some_iff.1 h
    exact ordered_of_valueWith? (fun _ _ => ih) hv

theorem ordered_of_toJson? {depth : Nat} {v : Node} {x : Json} (h : toJson? depth v = some x) :
    x.Ordered :=
  ordered_of_valueWith? (fun _ _ => ordered_of_innerWithin?) h

end Node

/-- The records of a value that was read list their keys in ascending order. -/
theorem ordered_of_read? {depth : Nat} {text : String} {x : Json} (h : read? depth text = some x) :
    x.Ordered := by
  obtain ⟨v, -, hv⟩ := Option.bind_eq_some_iff.1 h
  exact Node.ordered_of_toJson? hv

end EthGateway.Json
