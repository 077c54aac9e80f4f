import EthGateway.Json.Basic
import EthGateway.Notice

/-
# EthGateway.Pipeline.Exchange -- remote calls, and conversations with a next stage

A call is a method's name with a list of arguments. Its answer is a value or one of four errors: the
backend's own, which has a code, a message and perhaps data; an answer that could not be read; a
transport that failed; and a value that should have been a quantity.

An exchange is a program that may report notices and send calls, going on from each answer, until it
is done. It is data, so what a stage sends can be reasoned about without a backend: `through` lets
another stage answer the calls in the place of the next one, and `run` answers them by a backend.

A backend is a function of the calls it has had and the one it has now. Nothing else is remembered,
and two runs from the same history with the same calls get the same answers. Main statements:
`through` respects sequencing (`through_bind`) and is associative (`through_through`), and
forwarding every call is its unit (`through_ask`).
-/

namespace EthGateway

/-! ## Calls and answers -/

/-- A call of a method. -/
structure Call where
  method : String
  params : List Json
deriving DecidableEq, Repr

/-- Why a call has no result. -/
inductive RpcError where
  | backend (code : Int) (message : String) (data : Option Json)
  | malformed (cause : String)
  | transport (cause : String)
  | invalidQuantity (cause : String)
deriving DecidableEq, Repr

namespace RpcError

/-- The code of an error that is the gateway's own. -/
def internalCode : Int := -32603

/-- The code that a caller is told. -/
def code : RpcError → Int
  | .backend code .. => code
  | _ => internalCode

/-- The wording of each error. -/
def message : RpcError → String
  | .backend code message _ => "backend error " ++ Int.repr code ++ ": " ++ message
  | .malformed cause => "malformed backend response: " ++ cause
  | .transport cause => "transport error: " ++ cause
  | .invalidQuantity cause => "invalid quantity: " ++ cause

end RpcError

/-- What a call comes back with. -/
abbrev Answer := Except RpcError Json

/-! ## Conversations -/

/-- A conversation that ends with a value. -/
inductive Exchange (α : Type) where
  | done (a : α)
  | note (notice : Notice) (rest : Exchange α)
  | send (call : Call) (next : Answer → Exchange α)

namespace Exchange

variable {α β : Type}

/-- Go on from the value of a conversation. -/
protected def bind : Exchange α → (α → Exchange β) → Exchange β
  | .done a, f => f a
  | .note n x, f => .note n (x.bind f)
  | .send c next, f => .send c fun a => (next a).bind f

instance : Monad Exchange where
  pure := .done
  bind := Exchange.bind

@[simp] theorem pure_eq (a : α) : (pure a : Exchange α) = .done a := rfl

@[simp] theorem done_bind (a : α) (f : α → Exchange β) : (Exchange.done a >>= f) = f a := rfl

@[simp] theorem note_bind (n : Notice) (x : Exchange α) (f : α → Exchange β) :
    (Exchange.note n x >>= f) = .note n (x >>= f) := rfl

@[simp] theorem send_bind (c : Call) (next : Answer → Exchange α) (f : α → Exchange β) :
    (Exchange.send c next >>= f) = .send c fun a => next a >>= f := rfl

theorem bind_done (x : Exchange α) : (x >>= Exchange.done) = x := by
  induction x with
  | done a => rfl
  | note n x ih => rw [note_bind, ih]
  | send c next ih => rw [send_bind]; exact congrArg (Exchange.send c) (funext ih)

theorem bind_assoc {γ : Type} (x : Exchange α) (f : α → Exchange β) (g : β → Exchange γ) :
    (x >>= f >>= g) = (x >>= fun a => f a >>= g) := by
  induction x with
  | done a => rfl
  | note n x ih => simp only [note_bind, ih]
  | send c next ih => simp only [send_bind, ih]

instance : LawfulMonad Exchange :=
  LawfulMonad.mk' Exchange bind_done (fun _ _ => rfl) bind_assoc

/-- Send a call and take its answer. -/
def ask (c : Call) : Exchange Answer := .send c .done

/-- Report the notices of a value, then go on with it. -/
def ofNoted (x : Noted α) : Exchange α := x.notices.foldr .note (.done x.value)

/-! ## Stages that answer for the next one -/

/-- Let a stage answer every call; what the stage sends itself goes on. -/
def through (stage : Call → Exchange Answer) : Exchange α → Exchange α
  | .done a => .done a
  | .note n x => .note n (x.through stage)
  | .send c next => stage c >>= fun a => (next a).through stage

theorem through_bind (stage : Call → Exchange Answer) (x : Exchange α) (f : α → Exchange β) :
    (x >>= f).through stage = x.through stage >>= fun a => (f a).through stage := by
  induction x with
  | done a => rfl
  | note n x ih => simp only [note_bind, through, ih]
  | send c next ih => simp only [send_bind, through, ih, bind_assoc]

theorem through_ask (x : Exchange α) : x.through ask = x := by
  induction x with
  | done a => rfl
  | note n x ih => simp only [through, ih]
  | send c next ih => simp only [through, ask, send_bind, done_bind, ih]

theorem ask_through (stage : Call → Exchange Answer) (c : Call) :
    (ask c).through stage = stage c := by
  simp only [ask, through]
  exact bind_done (stage c)

theorem through_through (outer inner : Call → Exchange Answer) (x : Exchange α) :
    (x.through outer).through inner = x.through fun c => (outer c).through inner := by
  induction x with
  | done a => rfl
  | note n x ih => simp only [through, ih]
  | send c next ih => simp only [through, through_bind, ih]

end Exchange

/-! ## Running against a backend -/

/-- The answer to a call, by the calls that came before it. -/
abbrev Backend := (earlier : List Call) → Call → Noted Answer

/-- A call that reached the backend, with its answer. -/
structure Contact where
  call : Call
  answer : Answer

/-- What a run did and what it came to. -/
structure Outcome (α : Type) where
  contacts : List Contact
  notices : List Notice
  result : α

namespace Outcome

/-- The calls that reached the backend, in order. -/
def calls {α : Type} (o : Outcome α) : List Call := o.contacts.map Contact.call

end Outcome

/-- Answer every call of a conversation by a backend that has had some calls before. -/
def Exchange.run {α : Type} (backend : Backend) : (earlier : List Call) → Exchange α → Outcome α
  | _, .done a => ⟨[], [], a⟩
  | earlier, .note n x =>
    let o := run backend earlier x
    ⟨o.contacts, n :: o.notices, o.result⟩
  | earlier, .send c next =>
    let a := backend earlier c
    let o := run backend (earlier ++ [c]) (next a.value)
    ⟨⟨c, a.value⟩ :: o.contacts, a.notices ++ o.notices, o.result⟩

/-- Run conversations one after the other against one backend. -/
def Exchange.runAll {α : Type} (backend : Backend) :
    (earlier : List Call) → List (Exchange α) → List (Outcome α)
  | _, [] => []
  | earlier, x :: xs =>
    let o := x.run backend earlier
    o :: runAll backend (earlier ++ o.calls) xs

/-- A backend that answers the calls of each method from a list, in order, and then with null. -/
def Backend.ofScript (script : List (String × Answer)) : Backend := fun earlier c =>
  let answers := (script.filter fun e => e.1 = c.method).map Prod.snd
  pure (answers[(earlier.filter fun d => d.method = c.method).length]?.getD (.ok .null))

end EthGateway
