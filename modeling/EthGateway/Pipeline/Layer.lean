import EthGateway.Formatter
import EthGateway.Json.Writer
import EthGateway.Methods
import EthGateway.Pipeline.Exchange

/-
# EthGateway.Pipeline.Layer -- stages around a backend

A layer takes a call and converses with the stage inside it. Layers nest: the first of a stack sees
a call first and its answer last. `stack_append` says that the stack of two lists is the first stack
around the second, so where a stack is cut into two does not matter.

A gateway is built of three sorts of layers. One formats arguments and results. One lets a call
under a deprecated name go on under the name of its method; the notice that says so comes before
anything else that the call gives rise to. And one fills in what a transaction leaves out: without a
sender it gets the coinbase of the backend, or else its first account, or else an explicit null, and
an `eth_call` without a gas limit gets one from an estimate for the transaction with its sender
filled in. A field counts as left out if it is absent or null. Look-ups go to the next stage, so
they never come back here; the first of them that fails ends the call with its error.

Unlike a layer, which is any function of a call, a `Stage` is data: it says which sort it is and
what it is set up with.
-/

namespace EthGateway

/-- A stage that answers calls by sending calls inwards. -/
abbrev Layer := Call → Exchange Answer

namespace Layer

/-- Send every call on as it is. -/
def forward : Layer := Exchange.ask

/-- A layer around another. -/
def around (outer inner : Layer) : Layer := fun c => (outer c).through inner

/-- Layers around one another, the first outermost. -/
def stack : List Layer → Layer
  | [] => forward
  | outer :: inners => around outer (stack inners)

/-- A layer, or none. -/
def onlyIf (enabled : Bool) (layer : Layer) : List Layer := if enabled then [layer] else []

theorem around_forward (layer : Layer) : around layer forward = layer :=
  funext fun c => Exchange.through_ask (layer c)

theorem forward_around (layer : Layer) : around forward layer = layer :=
  funext fun c => Exchange.ask_through layer c

theorem around_assoc (a b c : Layer) : around (around a b) c = around a (around b c) :=
  funext fun call => Exchange.through_through b c (a call)

theorem stack_append (outers inners : List Layer) :
    stack (outers ++ inners) = around (stack outers) (stack inners) := by
  induction outers with
  | nil => exact (forward_around _).symm
  | cons outer outers ih => rw [List.cons_append, stack, stack, ih, around_assoc]

/-! ## Simple layers -/

/-- Format the arguments, send the call once, and format the result; an error stays as it is. -/
def formatting (f : Formatting) : Layer := fun c => do
  let params ← Exchange.ofNoted (f.formatRequest c.method c.params)
  match ← Exchange.ask ⟨c.method, params⟩ with
  | .ok v => .ok <$> Exchange.ofNoted (f.formatResult c.method v)
  | .error e => return .error e

/-- Put a label behind the arguments and in front of the result. -/
def labelled (label : String) : Layer := fun c => do
  match ← Exchange.ask ⟨c.method, c.params ++ [.str label]⟩ with
  | .ok v => return .ok (.arr [.str label, v])
  | .error e => return .error e

/-- Answer one method with a value and without the next stage. -/
def answering (method : String) (value : Json) : Layer := fun c =>
  if c.method = method then return .ok value else forward c

end Layer

/-! ## Deprecated names -/

/-- The notice of a call under a deprecated name. -/
def Alias.notice (a : Alias) : Notice := .deprecated a.name a.replacement a.method

namespace Layer

/-- Forward deprecated names to their methods. -/
def deprecation (aliases : List Alias) : Layer := fun c =>
  match Alias.resolve? aliases c.method with
  | some a => .note a.notice (forward ⟨a.method, c.params⟩)
  | none => forward c

end Layer

/-! ## Default fields -/

/-- A conversation that may end with an error. -/
abbrev Attempt (α : Type) := ExceptT RpcError Exchange α

namespace DefaultFields

/-- The methods whose transaction gets a sender. -/
def senderMethods : List String :=
  ["eth_call", "eth_estimateGas", "eth_sendTransaction", "personal_sendTransaction"]

/-- The methods whose transaction gets a gas limit; an estimate must not ask for one itself. -/
def gasMethods : List String := ["eth_call"]

/-- A field is absent or null. -/
def isMissing (transaction : Record Json) (field : String) : Bool :=
  match Record.get? transaction field with
  | some v => v.isNull
  | none => true

/-- Send a call; an error of its answer is an error here. -/
def ask (method : String) (params : List Json) : Attempt Json := Exchange.ask ⟨method, params⟩

/-- The first item of a list; null if there is none. -/
def firstItem : Json → Json
  | .arr (v :: _) => v
  | _ => .null

/-- Look up the account that transactions are sent from. -/
def guessSender : Attempt Json := do
  let coinbase ← ask "eth_coinbase" []
  if coinbase.isNull then return firstItem (← ask "eth_accounts" [])
  else return coinbase

/-- The limit for an estimate that the backend has given. -/
def gasOfEstimate (policy : GasPolicy) (estimate : Json) : Except RpcError Json :=
  match Quantity.ofJson? estimate with
  | some q => .ok (.str (policy.limit q).encode)
  | none => .error (.invalidQuantity ("eth_estimateGas returned " ++ estimate.compress))

/-- Look up a gas limit for a transaction. -/
def guessGas (policy : GasPolicy) (transaction : Record Json) : Attempt Json := do
  let estimate ← ask "eth_estimateGas" [.obj transaction]
  ExceptT.mk (pure (gasOfEstimate policy estimate))

/-- Fill in the sender if it is missing. -/
def fillSender (transaction : Record Json) : Attempt (Record Json) :=
  if isMissing transaction "from" then do
    let sender ← guessSender
    return Record.insert transaction "from" sender
  else return transaction

/-- Fill in the gas limit if the method has one and it is missing. -/
def fillGas (policy : GasPolicy) (method : String) (transaction : Record Json) :
    Attempt (Record Json) :=
  if gasMethods.contains method && isMissing transaction "gas" then do
    let gas ← guessGas policy transaction
    return Record.insert transaction "gas" gas
  else return transaction

/-- Fill in what is missing, the sender first. -/
def fill (policy : GasPolicy) (method : String) (transaction : Record Json) :
    Attempt (Record Json) := do
  fillGas policy method (← fillSender transaction)

end DefaultFields

/-- Fill in the missing fields of a transaction before the call is sent on. -/
def Layer.defaultFields (policy : GasPolicy) : Layer := fun c =>
  if DefaultFields.senderMethods.contains c.method then
    match c.params with
    | .obj transaction :: rest => ExceptT.run do
        let filled ← DefaultFields.fill policy c.method transaction
        DefaultFields.ask c.method (.obj filled :: rest)
    | _ => Layer.forward c
  else Layer.forward c

/-! ## Layers by their sort -/

/-- A layer by its sort. -/
inductive Stage where
  | deprecation (aliases : List Alias)
  | defaultFields (policy : GasPolicy)
  | formatting (formatting : Formatting)

namespace Stage

/-- What a stage does with a call. -/
def layer : Stage → Layer
  | .deprecation aliases => .deprecation aliases
  | .defaultFields policy => .defaultFields policy
  | .formatting f => .formatting f

end Stage

end EthGateway
