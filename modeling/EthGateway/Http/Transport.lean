import EthGateway.Json.Reader
import EthGateway.Notice
import EthGateway.Pipeline.Exchange

/-
# EthGateway.Http.Transport -- a backend behind a network

A request is a record of the protocol's version, an id, a method and its arguments. A response is
read leniently: every part may be missing or null, unknown members are skipped without a look inside
them, and the response, like the error object in it, may also be a list of its parts in order. The
bytes of a body are read like a text, and stray ones are let pass in the strings that are skipped.

What is refused: a text that is not JSON, a value of another shape, a known member that is repeated,
a list with too many parts, a version or message that is no string, and a code that is no integer of
sixty-four bits. Nesting counts from the outside of the text.

Every call is one request, posted once; the ids count the calls from one. A network takes a request,
by those it has been given before, and delivers a reply or fails. A status from 400 to 599 and a
body that is no response are failures of the transport too, and only an error object in a response
is an error of the backend.
-/

namespace EthGateway.Http

/-! ## Requests and responses as texts -/

/-- What an error reply tells. -/
structure ErrorObject where
  code : Int
  message : String
  data : Option Json
deriving DecidableEq, Repr

/-- The record of an error; data only if there is some. -/
def ErrorObject.toJson (e : ErrorObject) : Json :=
  .ofMembers ([("code", .ofInt e.code), ("message", .str e.message)]
    ++ (e.data.map fun d => ("data", d)).toList)

/-- The version of the protocol. -/
def version : String := "2.0"

/-- The record of a request. -/
def requestBody (id : Nat) (c : Call) : Json :=
  .ofMembers [("jsonrpc", .str version), ("id", .ofNat id), ("method", .str c.method),
    ("params", .arr c.params)]

/-- A response from the backend. -/
structure Envelope where
  jsonrpc : Option String
  id : Option Json
  result : Option Json
  error : Option ErrorObject
deriving DecidableEq, Repr

namespace Envelope

open Json (Node)

/-! ## The parts of a response -/

/-- The values under a key. -/
def valuesOf (name : String) (members : List (Option String × Node)) : List Node :=
  (members.filter fun m => m.1 = some name).map Prod.snd

/-- The named parts of a record, none of which may be repeated, or those of a list in order. -/
def parts? (names : List String) : Node → Option (List (Option Node))
  | .obj members =>
    if members.all (fun m => m.1.isSome)
        && names.all (fun name => (valuesOf name members).length ≤ 1) then
      some (names.map fun name => (valuesOf name members).head?)
    else none
  | .arr items =>
    if items.length ≤ names.length then
      some (items.map some ++ List.replicate (names.length - items.length) none)
    else none
  | _ => none

/-- A text that may be missing or null. -/
def text? : Option Node → Option (Option String)
  | none | some .null => some none
  | some (.str (some s)) => some (some s)
  | _ => none

/-- A value that may be missing or null. -/
def value? (depth : Nat) : Option Node → Option (Option Json)
  | none | some .null => some none
  | some v => (Node.toJson? depth v).map some

/-- An integer of sixty-four bits. -/
def code? : Option Node → Option Int
  | some (.num n) => n.toInt?.filter fun k => -Int.pow 2 63 ≤ k && k < Int.pow 2 63
  | _ => none

/-- The error object of a response. -/
def errorObject? (depth : Nat) (v : Node) : Option ErrorObject :=
  match parts? ["code", "message", "data"] v with
  | some [code, message, data] => do
    let code ← code? code
    let message ← (← text? message)
    let data ← value? depth data
    return ⟨code, message, data⟩
  | _ => none

/-- An error object that may be missing or null. -/
def error? (depth : Nat) : Option Node → Option (Option ErrorObject)
  | none | some .null => some none
  | some v => (errorObject? depth v).map some

/-- The response of a value as it is written. -/
def ofNode? (v : Node) : Option Envelope :=
  match parts? ["jsonrpc", "id", "result", "error"] v with
  | some [jsonrpc, id, result, error] => do
    let jsonrpc ← text? jsonrpc
    let id ← value? (Json.maxDepth - 1) id
    let result ← value? (Json.maxDepth - 1) result
    let error ← error? (Json.maxDepth - 2) error
    return ⟨jsonrpc, id, result, error⟩
  | _ => none

/-- The response of a text. -/
def read? (text : String) : Option Envelope := (Node.read? text).bind ofNode?

/-- The response of a body. -/
def ofBytes? (body : ByteArray) : Option Envelope := (Node.ofBytes? body).bind ofNode?

theorem ofBytes?_toByteArray (text : String) : ofBytes? text.toByteArray = read? text := by
  rw [ofBytes?, Node.ofBytes?_toByteArray, read?]

/-- The answer in a response: an error, which is reported, or else the result, or else null. -/
def answer (method : String) (e : Envelope) : Noted Answer :=
  match e.error with
  | some error =>
    .noting (.backendError method error.code error.message)
      (.error (.backend error.code error.message error.data))
  | none => pure (.ok (e.result.getD .null))

end Envelope

/-! ## A network -/

/-- A reply to a posted request. -/
structure Reply where
  status : Nat
  body : ByteArray

/-- What comes back for a request, by the requests before it; `none` if it is not delivered. -/
abbrev Network := (earlier : List Json) → Json → Option Reply

/-- A network that delivers nothing. -/
def Network.unreachable : Network := fun _ _ => none

/-- The statuses of errors. -/
def isErrorStatus (status : Nat) : Bool := 400 ≤ status && status < 600

/-- The requests of calls, in order. -/
def requests (calls : List Call) : List Json := calls.mapIdx fun i c => requestBody (i + 1) c

/-- The response in a reply, or why there is none. -/
def Reply.read (r : Reply) : Except String Envelope :=
  if isErrorStatus r.status then .error ("HTTP status " ++ Nat.repr r.status)
  else
    match Envelope.ofBytes? r.body with
    | some e => .ok e
    | none => .error "error decoding response body"

/-- The backend at the other end of a network. -/
def backend (network : Network) : Backend := fun earlier c =>
  match network (requests earlier) (requestBody (earlier.length + 1) c) with
  | none => pure (.error (.transport "error sending request"))
  | some r =>
    match r.read with
    | .error cause => pure (.error (.transport cause))
    | .ok e => e.answer c.method

/-- The requests of calls that a network delivers, in order. -/
def delivered (network : Network) : (earlier : List Call) → List Call → List Json
  | _, [] => []
  | earlier, c :: cs =>
    let request := requestBody (earlier.length + 1) c
    let later := delivered network (earlier ++ [c]) cs
    if (network (requests earlier) request).isSome then request :: later else later

end EthGateway.Http
