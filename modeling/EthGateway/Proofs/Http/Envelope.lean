import EthGateway.Http.Transport

/-
# EthGateway.Proofs.Http.Envelope -- responses that carry an error

Which texts are read as an error of the backend, and what is read from them. A response and the
error object in it have named parts (`part?`), whether they are written as records or as lists, and
reading one takes all of them (`parts?_eq_some_iff`). An error object is a code of sixty-four bits
and a message, both as they are written, and data that may be missing (`errorObject?_eq_some_iff`).
The responses that have one are those that are read as an error (`exists_ofNode?_iff`).
-/

namespace EthGateway.Http.Envelope

open Json (Node maxDepth)

/-! ## Named parts -/

/-- The part under a name: the member of a record under this key, or the item of a list at the place
that the name has among the names. -/
def part? (names : List String) (name : String) : Node → Option Node
  | .obj members => (members.find? fun m => m.1 = some name).map Prod.snd
  | .arr items => items[names.idxOf name]?
  | _ => none

/-- A record whose keys all have a text and in which none of the names is repeated, or a list that
is not too long. -/
def HasParts (names : List String) : Node → Prop
  | .obj members =>
    (∀ m ∈ members, m.1.isSome) ∧ ∀ name ∈ names, members.countP (fun m => m.1 = some name) ≤ 1
  | .arr items => items.length ≤ names.length
  | _ => False

/-- The items of a list are the parts in the order of the names. -/
theorem map_part?_arr {names : List String} (distinct : names.Nodup) {items : List Node}
    (short : items.length ≤ names.length) :
    (names.map fun name => part? names name (.arr items)) =
      items.map some ++ List.replicate (names.length - items.length) none := by
  refine List.ext_getElem ?_ ?_
  · simp [short]
  · intro i h _
    rw [List.length_map] at h
    have place : names.idxOf names[i] = i := distinct.idxOf_getElem i h
    rw [List.getElem_map, part?, place]
    by_cases item : i < items.length
    · rw [List.getElem_append_left (by simpa using item), List.getElem_map]
      exact List.getElem?_eq_getElem item
    · rw [List.getElem_append_right (by simpa using item), List.getElem_replicate]
      exact List.getElem?_eq_none (Nat.le_of_not_lt item)

theorem parts?_eq_some_iff {names : List String} (distinct : names.Nodup) {v : Node}
    {parts : List (Option Node)} :
    parts? names v = some parts ↔
      HasParts names v ∧ (names.map fun name => part? names name v) = parts := by
  cases v with
  | obj members =>
    have allowed : (members.all (fun m => m.1.isSome)
        && names.all fun name => decide ((valuesOf name members).length ≤ 1)) = true
        ↔ HasParts names (.obj members) := by
      simp [HasParts, valuesOf, List.countP_eq_length_filter]
    have first : ∀ name, (valuesOf name members).head? = part? names name (.obj members) := by
      simp [valuesOf, part?, List.head?_filter]
    rw [parts?, Option.ite_none_right_eq_some, allowed, Option.some.injEq]
    simp only [first]
  | arr items =>
    rw [parts?, Option.ite_none_right_eq_some, Option.some.injEq]
    refine and_congr_right ?_
    intro short
    rw [map_part?_arr distinct short]
  | null | bool | num | str => simp [parts?, HasParts]

theorem parts?_eq_none {names : List String} (distinct : names.Nodup) {v : Node}
    (h : ¬ HasParts names v) : parts? names v = none := by
  refine Option.eq_none_iff_forall_ne_some.2 ?_
  intro parts found
  exact h ((parts?_eq_some_iff distinct).1 found).1

/-! ## Single parts -/

/-- A part that is missing or can be read. -/
def Legible (depth : Nat) (part : Option Node) : Prop :=
  ∀ w, part = some w → (w.toJson? depth).isSome

theorem value?_of_ne_null {depth : Nat} {w : Node} (notNull : w ≠ .null) :
    value? depth (some w) = (w.toJson? depth).map some := by
  rw [value?]
  exact notNull

theorem exists_value?_iff {depth : Nat} {part : Option Node} :
    (∃ x, value? depth part = some x) ↔ Legible depth part := by
  unfold value? Legible
  split
  · simp
  · simp [Node.toJson?, Node.valueWith?]
  · next w _ => cases read : w.toJson? depth <;> simp [read]

theorem text?_eq_some_some_iff {part : Option Node} {s : String} :
    text? part = some (some s) ↔ part = some (.str (some s)) := by
  unfold text?
  split <;> simp_all

/-- A part that is missing, null or a text. -/
def IsText (part : Option Node) : Prop :=
  part = none ∨ part = some .null ∨ ∃ s, part = some (.str (some s))

theorem exists_text?_iff {part : Option Node} : (∃ t, text? part = some t) ↔ IsText part := by
  unfold text? IsText
  split <;> simp_all

/-- The integers of sixty-four bits. -/
def IsLong (k : Int) : Prop := -Int.pow 2 63 ≤ k ∧ k < Int.pow 2 63

theorem code?_eq_some_iff {part : Option Node} {k : Int} :
    code? part = some k ↔ part = some (.num (.ofInt k)) ∧ IsLong k := by
  unfold code?
  split
  · next n =>
    rw [Option.filter_eq_some_iff, Numeral.toInt?_eq_some_iff]
    simp [IsLong]
  · next other =>
    have notCode : ¬ part = some (.num (.ofInt k)) := fun same => other _ same
    simp [notCode]

/-! ## Error objects -/

/-- The names of the parts of an error object. -/
abbrev errorNames : List String := ["code", "message", "data"]

/-- An error object, with its data as it is written if there is some. -/
structure IsErrorObject (v : Node) (code : Int) (message : String) (data : Option Node) : Prop where
  parts : HasParts errorNames v
  long : IsLong code
  code : part? errorNames "code" v = some (.num (.ofInt code))
  message : part? errorNames "message" v = some (.str (some message))
  data : part? errorNames "data" v = data

theorem errorObject?_eq_some_iff {depth : Nat} {v : Node} {e : ErrorObject} :
    errorObject? depth v = some e ↔
      ∃ data, IsErrorObject v e.code e.message data ∧ value? depth data = some e.data := by
  unfold errorObject?
  by_cases parts : HasParts errorNames v
  · rw [(parts?_eq_some_iff (by decide)).2 ⟨parts, rfl⟩]
    simp only [List.map, Option.bind_eq_bind, Option.bind_eq_some_iff, Option.pure_def,
      Option.some.injEq]
    constructor
    · rintro ⟨code, hcode, _, htext, message, rfl, data, hdata, rfl⟩
      obtain ⟨written, long⟩ := code?_eq_some_iff.1 hcode
      exact ⟨_, ⟨parts, long, written, text?_eq_some_some_iff.1 htext, rfl⟩, hdata⟩
    · rintro ⟨_, ⟨-, long, hcode, hmessage, rfl⟩, hdata⟩
      exact ⟨_, code?_eq_some_iff.2 ⟨hcode, long⟩, _, text?_eq_some_some_iff.2 hmessage, _, rfl, _,
        hdata, rfl⟩
  · rw [parts?_eq_none (by decide) parts]
    constructor
    · nofun
    · rintro ⟨_, object, -⟩
      exact absurd object.parts parts

theorem error?_eq_some_some_iff {depth : Nat} {part : Option Node} {e : ErrorObject} :
    error? depth part = some (some e) ↔ ∃ w, part = some w ∧ errorObject? depth w = some e := by
  unfold error?
  split
  · simp
  · simp [errorObject?, parts?]
  · simp

/-! ## Responses -/

/-- The names of the parts of a response. -/
abbrev responseNames : List String := ["jsonrpc", "id", "result", "error"]

theorem ofNode?_eq_some_iff {v : Node} {e : Envelope} :
    ofNode? v = some e ↔ HasParts responseNames v ∧
      text? (part? responseNames "jsonrpc" v) = some e.jsonrpc ∧
      value? (maxDepth - 1) (part? responseNames "id" v) = some e.id ∧
      value? (maxDepth - 1) (part? responseNames "result" v) = some e.result ∧
      error? (maxDepth - 2) (part? responseNames "error" v) = some e.error := by
  unfold ofNode?
  by_cases parts : HasParts responseNames v
  · rw [(parts?_eq_some_iff (by decide)).2 ⟨parts, rfl⟩]
    simp only [List.map, Option.bind_eq_bind, Option.bind_eq_some_iff, Option.pure_def,
      Option.some.injEq]
    constructor
    · rintro ⟨jsonrpc, hjsonrpc, id, hid, result, hresult, error, herror, rfl⟩
      exact ⟨parts, hjsonrpc, hid, hresult, herror⟩
    · rintro ⟨-, hjsonrpc, hid, hresult, herror⟩
      exact ⟨_, hjsonrpc, _, hid, _, hresult, _, herror, rfl⟩
  · rw [parts?_eq_none (by decide) parts]
    simp [parts]

/-- A response that carries an error object, perhaps with a result beside it. What is in it can be
read; unknown members need not be. -/
structure IsFailure (v : Node) (code : Int) (message : String) (data : Option Node) : Prop where
  parts : HasParts responseNames v
  version : IsText (part? responseNames "jsonrpc" v)
  id : Legible (maxDepth - 1) (part? responseNames "id" v)
  result : Legible (maxDepth - 1) (part? responseNames "result" v)
  error : ∃ w, part? responseNames "error" v = some w ∧ IsErrorObject w code message data
  legible : Legible (maxDepth - 2) data

/-- These and no others are read as an error. -/
theorem exists_ofNode?_iff {v : Node} {code : Int} {message : String} {d : Option Json} :
    (∃ e, ofNode? v = some e ∧ e.error = some ⟨code, message, d⟩) ↔
      ∃ data, IsFailure v code message data ∧ value? (maxDepth - 2) data = some d := by
  constructor
  · rintro ⟨e, read, error⟩
    obtain ⟨parts, version, id, result, found⟩ := ofNode?_eq_some_iff.1 read
    rw [error] at found
    obtain ⟨w, place, object⟩ := error?_eq_some_some_iff.1 found
    obtain ⟨data, written, hdata⟩ := errorObject?_eq_some_iff.1 object
    exact ⟨data, ⟨parts, exists_text?_iff.1 ⟨_, version⟩, exists_value?_iff.1 ⟨_, id⟩,
      exists_value?_iff.1 ⟨_, result⟩, ⟨w, place, written⟩, exists_value?_iff.1 ⟨_, hdata⟩⟩, hdata⟩
  · rintro ⟨data, failure, hdata⟩
    obtain ⟨w, place, written⟩ := failure.error
    obtain ⟨version, hversion⟩ := exists_text?_iff.2 failure.version
    obtain ⟨id, hid⟩ := exists_value?_iff.2 failure.id
    obtain ⟨result, hresult⟩ := exists_value?_iff.2 failure.result
    have object : errorObject? (maxDepth - 2) w = some ⟨code, message, d⟩ :=
      errorObject?_eq_some_iff.2 ⟨data, written, hdata⟩
    have found := error?_eq_some_some_iff.2 ⟨w, place, object⟩
    exact ⟨⟨version, id, result, some ⟨code, message, d⟩⟩,
      ofNode?_eq_some_iff.2 ⟨failure.parts, hversion, hid, hresult, found⟩, rfl⟩

end EthGateway.Http.Envelope
