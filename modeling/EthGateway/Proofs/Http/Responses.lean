import EthGateway.Http.Transport
import EthGateway.Proofs.Http.Envelope

/-
# EthGateway.Proofs.Http.Responses -- what is taken for an answer of the backend

A body that is delivered with a status below 400 answers a call if it spells a response: one that
has an error answers with it (`Envelope.IsFailure`), and any other with its result, or with null if
it has none (`Envelope.IsSuccess`). Every other body is a failure of the transport, whatever is
wrong with it: no answer is ever called malformed.

Responses are read leniently, so some bodies answer a call that are no response objects
(`IsResponseObject`). These are lists, records with a list in the place of the error object, and
bytes that are not UTF-8 (`Lax`), and there are no others (`isResponseObject_iff_not_lax`).
-/

namespace EthGateway.Http

open Json (Node maxDepth)

/-! ## Responses without an error -/

namespace Envelope

/-- A response without an error, and what it answers: its result, or null if there is none. -/
structure IsSuccess (v : Node) (x : Json) : Prop where
  parts : HasParts responseNames v
  version : IsText (part? responseNames "jsonrpc" v)
  id : Legible (maxDepth - 1) (part? responseNames "id" v)
  noError : part? responseNames "error" v = none ∨ part? responseNames "error" v = some .null
  result : ∃ r, value? (maxDepth - 1) (part? responseNames "result" v) = some r ∧ r.getD .null = x

theorem legible_none (depth : Nat) : Legible depth none := by
  intro w there
  cases there

theorem error?_eq_some_none_iff {depth : Nat} {part : Option Node} :
    error? depth part = some none ↔ part = none ∨ part = some .null := by
  unfold error?
  split <;> simp_all

/-- These and no others are read as a response without an error. -/
theorem exists_ofNode?_success_iff {v : Node} {x : Json} :
    (∃ e, ofNode? v = some e ∧ e.error = none ∧ e.result.getD .null = x) ↔ IsSuccess v x := by
  constructor
  · rintro ⟨e, read, noError, result⟩
    obtain ⟨parts, version, id, hresult, error⟩ := ofNode?_eq_some_iff.1 read
    rw [noError] at error
    exact ⟨parts, exists_text?_iff.1 ⟨_, version⟩, exists_value?_iff.1 ⟨_, id⟩,
      error?_eq_some_none_iff.1 error, _, hresult, result⟩
  · rintro ⟨parts, version, id, noError, result, hresult, rfl⟩
    obtain ⟨version, hversion⟩ := exists_text?_iff.2 version
    obtain ⟨id, hid⟩ := exists_value?_iff.2 id
    exact ⟨⟨version, id, result, none⟩, ofNode?_eq_some_iff.2
      ⟨parts, hversion, hid, hresult, error?_eq_some_none_iff.2 noError⟩, rfl, rfl⟩

end Envelope

/-! ## Response objects -/

open Envelope

/-- A record whose version is a text or null and whose error is null or an error object, itself a
record with a code of sixty-four bits and a text for a message. -/
structure IsResponseRecord (members : List (Option String × Node)) : Prop where
  version : ∀ w, (some "jsonrpc", w) ∈ members → w = .null ∨ ∃ s, w = .str (some s)
  error : ∀ w, (some "error", w) ∈ members → w = .null ∨ ∃ parts code message, w = .obj parts ∧
    (some "code", .num (.ofInt code)) ∈ parts ∧ IsLong code ∧
      (some "message", .str (some message)) ∈ parts

/-- A body that is the text of a response object. -/
def IsResponseObject (body : ByteArray) : Prop :=
  ∃ text members, body = text.toByteArray ∧ Node.read? text = some (.obj members) ∧
    IsResponseRecord members

/-- A body that is no text, is a list, or has a list for an error. -/
inductive Lax (body : ByteArray) : Prop
  | noText (stray : ∀ text : String, body ≠ text.toByteArray)
  | list {items : List Node} (spelled : Node.ofBytes? body = some (.arr items))
  | errorList {members : List (Option String × Node)} {items : List Node}
      (spelled : Node.ofBytes? body = some (.obj members))
      (error : (some "error", .arr items) ∈ members)

section Shapes

variable {names : List String} {name : String} {members : List (Option String × Node)} {w : Node}

/-- The member under a name that is not repeated is the part of this name. -/
theorem part?_of_mem (parts : HasParts names (.obj members)) (listed : name ∈ names)
    (there : (some name, w) ∈ members) : part? names name (.obj members) = some w := by
  have once := parts.2 name listed
  rw [List.countP_eq_length_filter] at once
  have found : (some name, w) ∈ members.filter fun m => m.1 = some name :=
    List.mem_filter.2 ⟨there, decide_eq_true rfl⟩
  obtain ⟨m, only⟩ := List.length_eq_one_iff.1 (Nat.le_antisymm once (List.length_pos_of_mem found))
  rw [only, List.mem_singleton] at found
  rw [part?, ← List.head?_filter, only, ← found]
  rfl

theorem mem_of_part? (found : part? names name (.obj members) = some w) :
    (some name, w) ∈ members := by
  obtain ⟨⟨key, v⟩, first, rfl⟩ := Option.map_eq_some_iff.1 found
  have named := List.find?_some first
  rw [← of_decide_eq_true named]
  exact List.mem_of_find?_eq_some first

end Shapes

/-- What the responses with an error and those without have in common. -/
structure IsResponse (v : Node) : Prop where
  parts : HasParts responseNames v
  version : IsText (part? responseNames "jsonrpc" v)
  error : ∀ w, part? responseNames "error" v = some w →
    w = .null ∨ ∃ code message data, IsErrorObject w code message data

theorem Envelope.IsSuccess.isResponse {v : Node} {x : Json} (h : IsSuccess v x) : IsResponse v := by
  refine ⟨h.parts, h.version, ?_⟩
  intro w there
  rcases h.noError with none | null
  · rw [none] at there
    cases there
  · rw [null] at there
    exact .inl (Option.some.inj there).symm

theorem Envelope.IsFailure.isResponse {v : Node} {code : Int} {message : String}
    {data : Option Node} (h : IsFailure v code message data) : IsResponse v := by
  refine ⟨h.parts, h.version, ?_⟩
  intro w there
  obtain ⟨w', there', object⟩ := h.error
  rw [there] at there'
  cases there'
  exact .inr ⟨_, _, _, object⟩

section Lax

variable {body : ByteArray} {v : Node}

theorem not_isResponseObject_of_lax (lax : Lax body) : ¬ IsResponseObject body := by
  rintro ⟨text, members, rfl, read, object⟩
  rw [← Node.ofBytes?_toByteArray] at read
  rcases lax with stray | list | ⟨found, error⟩
  · exact stray text rfl
  · rw [read] at list
    cases list
  · rw [read] at found
    cases found
    rcases object.error _ error with null | ⟨_, _, _, record, -⟩
    · cases null
    · cases record

theorem isResponseObject_of_not_lax (spelled : Node.ofBytes? body = some v)
    (response : IsResponse v) (strict : ¬ Lax body) : IsResponseObject body := by
  by_cases isText : ∃ text : String, body = text.toByteArray
  case neg => exact absurd (.noText fun text same => isText ⟨text, same⟩) strict
  obtain ⟨text, rfl⟩ := isText
  have parts := response.parts
  -- Parts are those of a record or of a list, and lists are lax.
  cases v with
  | arr items => exact absurd (.list spelled) strict
  | obj members =>
    refine ⟨text, members, rfl, Node.ofBytes?_toByteArray text ▸ spelled, ?_, ?_⟩
    · intro w there
      have version := response.version
      rw [part?_of_mem parts (by decide) there] at version
      rcases version with none | null | ⟨s, string⟩
      · cases none
      · exact .inl (Option.some.inj null)
      · exact .inr ⟨s, Option.some.inj string⟩
    · intro w there
      rcases response.error w (part?_of_mem parts (by decide) there) with null | object
      · exact .inl null
      · obtain ⟨code, message, data, object⟩ := object
        refine .inr ?_
        have shape := object.parts
        cases w with
        | arr items => exact absurd (.errorList spelled there) strict
        | obj parts =>
          exact ⟨parts, code, message, rfl, mem_of_part? object.code, object.long,
            mem_of_part? object.message⟩
        | null | bool | num | str => exact absurd shape id
  | null | bool | num | str => exact absurd parts id

/-- The responses that are no response objects are the lax ones. -/
theorem isResponseObject_iff_not_lax (spelled : Node.ofBytes? body = some v)
    (response : IsResponse v) : IsResponseObject body ↔ ¬ Lax body :=
  ⟨fun object lax => not_isResponseObject_of_lax lax object,
    isResponseObject_of_not_lax spelled response⟩

end Lax

/-! ## What a call is answered with -/

/-- An answer that the backend has given: a result or an error of its own. -/
def FromBackend (a : Answer) : Prop :=
  (∃ x, a = .ok x) ∨ ∃ code message data, a = .error (.backend code message data)

theorem value_answer_eq_ok_iff {e : Envelope} {method : String} {x : Json} :
    (e.answer method).value = .ok x ↔ e.error = none ∧ e.result.getD .null = x := by
  unfold answer
  cases e.error <;> simp [Noted.noting]

theorem value_answer_eq_backend_iff {e : Envelope} {method : String} {code : Int}
    {message : String} {data : Option Json} :
    (e.answer method).value = .error (.backend code message data) ↔
      e.error = some ⟨code, message, data⟩ := by
  unfold answer
  cases error : e.error with
  | none => simp
  | some o =>
    obtain ⟨code', message', data'⟩ := o
    simp [Noted.noting]

theorem fromBackend_answer (e : Envelope) (method : String) :
    FromBackend (e.answer method).value := by
  cases error : e.error with
  | none => exact .inl ⟨_, value_answer_eq_ok_iff.2 ⟨error, rfl⟩⟩
  | some o => exact .inr ⟨_, _, _, value_answer_eq_backend_iff.2 error⟩

section Delivered

variable {network : Network} {earlier : List Call} {c : Call} {reply : Reply}
  (delivered : network (requests earlier) (requestBody (earlier.length + 1) c) = some reply)
  (status : reply.status < 400)

include delivered status

/-- A reply that is no error by its status answers with the response in its body. -/
theorem backend_of_delivered :
    backend network earlier c =
      match ofBytes? reply.body with
      | some e => e.answer c.method
      | none => pure (.error (.transport "error decoding response body")) := by
  have success : isErrorStatus reply.status = false := by
    have low : ¬ 400 ≤ reply.status := Nat.not_le.2 status
    simp [isErrorStatus, low]
  rw [backend, delivered]
  dsimp only
  rw [Reply.read, success]
  cases ofBytes? reply.body <;> rfl

theorem value_eq_iff {a : Answer} (given : FromBackend a) :
    (backend network earlier c).value = a ↔
      ∃ v, Node.ofBytes? reply.body = some v ∧
        ∃ e, ofNode? v = some e ∧ (e.answer c.method).value = a := by
  have notTransport : Except.error (.transport "error decoding response body") ≠ a := by
    rintro rfl
    rcases given with ⟨_, ⟨⟩⟩ | ⟨_, _, _, ⟨⟩⟩
  have spelled : ∀ e, ofBytes? reply.body = some e ↔
      ∃ v, Node.ofBytes? reply.body = some v ∧ ofNode? v = some e :=
    fun _ => Option.bind_eq_some_iff
  rw [backend_of_delivered delivered status]
  cases read : ofBytes? reply.body with
  | none =>
    -- The failure is not the answer that was given, and there is no response to give it.
    refine iff_of_false notTransport ?_
    rintro ⟨v, body, e, response, -⟩
    rw [(spelled e).2 ⟨v, body, response⟩] at read
    cases read
  | some e =>
    obtain ⟨v, body, response⟩ := (spelled e).1 read
    constructor
    · intro answered
      exact ⟨v, body, e, response, answered⟩
    · rintro ⟨v', body', e', response', answered⟩
      rw [(spelled e').2 ⟨v', body', response'⟩] at read
      cases read
      exact answered

theorem value_eq_ok_iff {x : Json} :
    (backend network earlier c).value = .ok x ↔
      ∃ v, Node.ofBytes? reply.body = some v ∧ IsSuccess v x := by
  rw [value_eq_iff delivered status (.inl ⟨x, rfl⟩)]
  simp only [value_answer_eq_ok_iff, exists_ofNode?_success_iff]

theorem value_eq_backend_iff {code : Int} {message : String} {d : Option Json} :
    (backend network earlier c).value = .error (.backend code message d) ↔
      ∃ v, Node.ofBytes? reply.body = some v ∧
        ∃ data, IsFailure v code message data ∧ value? (maxDepth - 2) data = some d := by
  rw [value_eq_iff delivered status (.inr ⟨code, message, d, rfl⟩)]
  simp only [value_answer_eq_backend_iff, exists_ofNode?_iff]

/-- A body that answers a call spells a response. -/
theorem exists_isResponse (given : FromBackend (backend network earlier c).value) :
    ∃ v, Node.ofBytes? reply.body = some v ∧ IsResponse v := by
  rcases given with ⟨x, result⟩ | ⟨code, message, d, error⟩
  · obtain ⟨v, spelled, success⟩ := (value_eq_ok_iff delivered status).1 result
    exact ⟨v, spelled, success.isResponse⟩
  · obtain ⟨v, spelled, _, failure, -⟩ := (value_eq_backend_iff delivered status).1 error
    exact ⟨v, spelled, failure.isResponse⟩

theorem value_of_not_fromBackend (other : ¬ FromBackend (backend network earlier c).value) :
    (backend network earlier c).value = .error (.transport "error decoding response body") := by
  rw [backend_of_delivered delivered status] at other ⊢
  split at other
  · next e _ => exact absurd (fromBackend_answer e c.method) other
  · rfl

end Delivered

/-- What a body that is delivered with a status below 400 answers a call with. A response without
an error is a result, and one with an error is an error of the backend. Of the bodies that are taken
for one or the other, exactly the lax ones are no response objects. All other bodies are failures of
the transport, so no body is called malformed. -/
theorem value_of_delivered {network : Network} {earlier : List Call} {c : Call} {reply : Reply}
    (delivered : network (requests earlier) (requestBody (earlier.length + 1) c) = some reply)
    (status : reply.status < 400) :
    let a := (backend network earlier c).value
    (∀ x, a = .ok x ↔ ∃ v, Node.ofBytes? reply.body = some v ∧ IsSuccess v x) ∧
    (∀ code message d, a = .error (.backend code message d) ↔
      ∃ v, Node.ofBytes? reply.body = some v ∧
        ∃ data, IsFailure v code message data ∧ value? (maxDepth - 2) data = some d) ∧
    (FromBackend a → (IsResponseObject reply.body ↔ ¬ Lax reply.body)) ∧
    (¬ FromBackend a → a = .error (.transport "error decoding response body")) := by
  refine ⟨fun _ => value_eq_ok_iff delivered status,
    fun _ _ _ => value_eq_backend_iff delivered status, ?_,
    value_of_not_fromBackend delivered status⟩
  intro given
  obtain ⟨v, spelled, response⟩ := exists_isResponse delivered status given
  exact isResponseObject_iff_not_lax spelled response

/-- Lists are taken for a response and for its error, a record for a result. -/
theorem value_of_delivered_lists :
    let listed := "[\"2.0\",1,\"0x1\",[5,\"reverted\"]]"
    let record := "\x7b\"result\":\"0x1\",\"error\":null\x7d"
    let answer : String → Answer := fun text =>
      (backend (fun _ _ => some ⟨200, text.toByteArray⟩) [] ⟨"eth_chainId", []⟩).value
    answer listed = .error (.backend 5 "reverted" none) ∧
      ¬ IsResponseObject listed.toByteArray ∧
      answer record = .ok (.str "0x1") ∧ IsResponseObject record.toByteArray := by
  intro listed record answer
  have listTokens : Json.Token.read? (listed.toList.map some) = some
      [.beginArray, .str (some "2.0"), .comma, .num (.ofInt 1), .comma, .str (some "0x1"), .comma,
        .beginArray, .num (.ofInt 5), .comma, .str (some "reverted"), .endArray, .endArray] := by
    decide +kernel
  have recordTokens : Json.Token.read? (record.toList.map some) = some
      [.beginObject, .str (some "result"), .colon, .str (some "0x1"), .comma,
        .str (some "error"), .colon, .null, .endObject] := by
    decide +kernel
  have listSpelled : Node.ofBytes? listed.toByteArray = some (.arr
      [.str (some "2.0"), .num (.ofInt 1), .str (some "0x1"),
        .arr [.num (.ofInt 5), .str (some "reverted")]]) := by
    rw [Node.ofBytes?_toByteArray, Node.read?, Node.ofSymbols?, listTokens]
    rfl
  have recordSpelled : Node.ofBytes? record.toByteArray = some (.obj
      [(some "result", .str (some "0x1")), (some "error", .null)]) := by
    rw [Node.ofBytes?_toByteArray, Node.read?, Node.ofSymbols?, recordTokens]
    rfl
  have failure : IsFailure (.arr [.str (some "2.0"), .num (.ofInt 1), .str (some "0x1"),
      .arr [.num (.ofInt 5), .str (some "reverted")]]) 5 "reverted" none := by
    refine ⟨Nat.le_refl 4, .inr (.inr ⟨_, rfl⟩), ?_, ?_, ⟨_, rfl, ?_⟩, legible_none _⟩
    · rintro _ ⟨⟩
      rfl
    · rintro _ ⟨⟩
      rfl
    · exact ⟨Nat.le_succ 2, ⟨by decide, by decide⟩, rfl, rfl, rfl⟩
  have success : IsSuccess (.obj [(some "result", .str (some "0x1")), (some "error", .null)])
      (.str "0x1") := by
    refine ⟨⟨by simp, by decide⟩, .inl rfl, legible_none _, .inr rfl, some (.str "0x1"), rfl, rfl⟩
  have refused : answer listed = .error (.backend 5 "reverted" none) :=
    ((value_of_delivered rfl (by decide)).2.1 _ _ _).2 ⟨_, listSpelled, _, failure, rfl⟩
  have answered : answer record = .ok (.str "0x1") :=
    ((value_of_delivered rfl (by decide)).1 _).2 ⟨_, recordSpelled, success⟩
  refine ⟨refused, not_isResponseObject_of_lax (.list listSpelled), answered, ?_⟩
  refine ((value_of_delivered rfl (by decide)).2.2.1 (.inl ⟨_, answered⟩)).2 ?_
  rintro (stray | list | ⟨spelled, error⟩)
  · exact stray record rfl
  · rw [recordSpelled] at list
    cases list
  · rw [recordSpelled] at spelled
    cases spelled
    simp at error

/-- A body that is no response object need not fail, and one that fails is not called malformed. -/
theorem not_malformed_list :
    let answer : String → Answer := fun text =>
      (backend (fun _ _ => some ⟨200, text.toByteArray⟩) [] ⟨"eth_chainId", []⟩).value
    (answer "[]" = .ok .null ∧ ¬ IsResponseObject "[]".toByteArray) ∧
      answer "no" = .error (.transport "error decoding response body") ∧
      ¬ ((∀ text, ¬ IsResponseObject text.toByteArray →
        ∃ cause, answer text = .error (.malformed cause))) := by
  intro answer
  have tokens : Json.Token.read? ("[]".toList.map some) = some [.beginArray, .endArray] := by
    decide +kernel
  have spelled : Node.ofBytes? "[]".toByteArray = some (.arr []) := by
    rw [Node.ofBytes?_toByteArray, Node.read?, Node.ofSymbols?, tokens]
    rfl
  have unspelled : Json.Token.read? ("no".toList.map some) = none := by
    decide +kernel
  have unread : ofBytes? "no".toByteArray = none := by
    rw [ofBytes?_toByteArray, Envelope.read?, Node.read?, Node.ofSymbols?, unspelled]
    rfl
  have success : IsSuccess (.arr []) .null :=
    ⟨Nat.zero_le _, .inl rfl, legible_none _, .inl rfl, none, rfl, rfl⟩
  have answered : answer "[]" = .ok .null :=
    (value_eq_ok_iff rfl (by decide)).2 ⟨_, spelled, success⟩
  have noObject := not_isResponseObject_of_lax (.list spelled)
  refine ⟨⟨answered, noObject⟩, ?_, ?_⟩
  · show (backend _ _ _).value = _
    rw [backend_of_delivered rfl (by decide), unread]
    rfl
  · intro malformed
    obtain ⟨cause, failed⟩ := malformed "[]" noObject
    rw [answered] at failed
    cases failed

end EthGateway.Http
