import EthGateway.Catalog
import EthGateway.Config
import EthGateway.Http.Transport
import EthGateway.Methods
import EthGateway.Pipeline.Layer
import EthGateway.Tester

/-
# EthGateway.Server.Dispatch -- requests and their replies

A name can be registered once. A server offers the known methods, the deprecated names and, in the
order of their names, the methods that only the catalog has.

Between callers and the backend there are, from the outside: deprecated names, default fields,
normalization by the catalog, and for a test backend its conventions. What the default fields look
up passes the layers inside them like any other call.

A request under a name that is not registered, or with arguments that are no list, is refused before
the pipeline sees it. Missing and null arguments are no arguments. An error of the pipeline is
reported under its own code if that fits into thirty-two bits; the backend's message and data are
reported as they are.
-/

namespace EthGateway.Server

/-! ## Names -/

/-- A name that is registered already. -/
structure NameTaken where
  name : String
deriving DecidableEq, Repr

/-- The registered names in the order of their registration. -/
structure Registry where
  names : List String
deriving DecidableEq, Repr

namespace Registry

/-- No names. -/
def empty : Registry := ⟨[]⟩

/-- Register one more name. -/
def register (r : Registry) (name : String) : Except NameTaken Registry :=
  if name ∈ r.names then .error ⟨name⟩ else .ok ⟨r.names ++ [name]⟩

/-- Register names one after the other. -/
def registerAll (r : Registry) (names : List String) : Except NameTaken Registry :=
  names.foldlM register r

/-- The names that are there without a catalog. -/
def knownNames : List String := Methods.all ++ Alias.standard.map Alias.name

/-- The methods that only the catalog has. -/
def extraNames (catalog : Catalog) : List String :=
  catalog.methods.filter fun m => m ∉ knownNames

/-- Register all names that a server with a catalog offers. -/
def ofCatalog (catalog : Catalog) : Except NameTaken Registry := do
  let known ← empty.registerAll knownNames.eraseDups
  known.registerAll (extraNames catalog)

end Registry

/-! ## Layers -/

/-- The stages of a configuration, the outermost first. -/
def stages (config : Config) (catalog : Catalog) : List Stage :=
  .deprecation Alias.standard
    :: ((if config.fillDefaultFields then [.defaultFields config.gasPolicy] else [])
      ++ .formatting (.ofCatalog catalog .request)
        :: if config.dialect = .tester then [.formatting Tester.formatting] else [])

/-- What a configuration does with a call. -/
def pipeline (config : Config) (catalog : Catalog) : Layer :=
  .stack ((stages config catalog).map Stage.layer)

/-! ## Requests and replies -/

open EthGateway.Http (ErrorObject)

/-- A request of a caller. -/
structure Request where
  id : Json
  method : String
  params : Option Json
deriving DecidableEq, Repr

/-- The reply to a request. -/
structure Reply where
  id : Json
  outcome : Except ErrorObject Json

/-- The record of a reply. -/
def Reply.toJson (r : Reply) : Json :=
  .ofMembers [("jsonrpc", .str Http.version), ("id", r.id),
    match r.outcome with
    | .ok v => ("result", v)
    | .error e => ("error", e.toJson)]

/-- No such method. -/
def methodNotFound : ErrorObject := ⟨-32601, "Method not found", none⟩

/-- Arguments that are no list. -/
def invalidParams : ErrorObject := ⟨-32602, "Invalid params", none⟩

/-- The arguments of a request. -/
def arguments : Option Json → Except ErrorObject (List Json)
  | none | some .null => .ok []
  | some (.arr params) => .ok params
  | some _ => .error invalidParams

/-- A code of thirty-two bits, or that of an internal error. -/
def replyCode (code : Int) : Int :=
  if -Int.pow 2 31 ≤ code ∧ code < Int.pow 2 31 then code else RpcError.internalCode

/-- What a caller is told about an error. -/
def errorObject (e : RpcError) : ErrorObject :=
  match e with
  | .backend code message data => ⟨replyCode code, message, data⟩
  | other => ⟨replyCode other.code, other.message, none⟩

/-- A server that is ready: the names that it offers, and what it does with a call. -/
structure Ready where
  registry : Registry
  pipeline : Layer

/-- Build a server. -/
def build (config : Config) (catalog : Catalog) : Except NameTaken Ready := do
  return ⟨← Registry.ofCatalog catalog, pipeline config catalog⟩

/-- Serve one request. -/
def Ready.serve (s : Ready) (r : Request) : Exchange Reply :=
  if r.method ∈ s.registry.names then
    match arguments r.params with
    | .error e => return ⟨r.id, .error e⟩
    | .ok params => do
      let answer ← s.pipeline ⟨r.method, params⟩
      return ⟨r.id, answer.mapError errorObject⟩
  else return ⟨r.id, .error methodNotFound⟩

/-! ## Starting -/

/-- The call that shows whether the backend can be reached. -/
def greeting : Call := ⟨"web3_clientVersion", []⟩

/-- Ask the backend for its version; a failure is reported and otherwise of no consequence. -/
def greet (pipeline : Layer) : Exchange Unit := do
  match ← pipeline greeting with
  | .ok _ => return ()
  | .error e => .note (.unreachable e.message) (return ())

/-- Why a server does not start. -/
inductive LaunchError where
  | nameTaken (cause : NameTaken)
  | cannotListen
deriving DecidableEq, Repr

/-- Greet the backend, then build the server and let it listen, if it can. -/
def launch (config : Config) (catalog : Catalog) (canListen : Bool) :
    Exchange (Except LaunchError Ready) := do
  greet (pipeline config catalog)
  match build config catalog with
  | .error e => return .error (.nameTaken e)
  | .ok s => if canListen then return .ok s else return .error .cannotListen

end EthGateway.Server
