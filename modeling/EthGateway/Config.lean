import EthGateway.Catalog
import EthGateway.Json.Reader
import EthGateway.Quantity
import EthGateway.Text

/-
# EthGateway.Config -- settings from the environment

A configuration is read from six variables, each with a default, and a seventh for the log. They are
checked in a fixed order, so of two faults the first one in the order dialect, proxy port, filling,
multiplier is reported; a multiplier of zero is a fault of its own, found last. An empty path of a
schema file counts as no path. Words are compared without regard to the case of ASCII letters, and
messages quote them in lower case.

A schema file is UTF-8 text, a JSON record of schemas by method. It adds to the standard catalog and
cannot replace a schema of it.
-/

namespace EthGateway

/-- What conventions the backend has. -/
inductive Dialect where
  /-- The conventions of the wire. -/
  | node
  /-- Snake case and integers. -/
  | tester
deriving DecidableEq, Repr

/-- The settings of a gateway. -/
structure Config where
  backendUrl : String
  dialect : Dialect
  proxyPort : Nat
  fillDefaultFields : Bool
  gasMultiplier : Nat
  schemaFile : Option String
  logFilter : String
deriving DecidableEq, Repr

/-- Why an environment is no configuration. -/
inductive ConfigError where
  | dialect (word : String)
  | proxyPort (cause : Text.UnsignedError)
  | filling (word : String)
  | multiplier (cause : Text.UnsignedError)
  | zeroMultiplier
deriving DecidableEq, Repr

/-- The wording of each cause, the setting first. -/
def ConfigError.message : ConfigError → String
  | .dialect word =>
    "BACKEND_DIALECT is invalid: unknown backend dialect '" ++ word
      ++ "' (expected node or tester)"
  | .proxyPort cause => "PROXY_PORT must be a valid u16: " ++ cause.message
  | .filling word => "FILL_DEFAULT_FIELDS must be true or false: not a boolean: " ++ word
  | .multiplier cause => "GAS_ESTIMATE_MULTIPLIER must be a valid u64: " ++ cause.message
  | .zeroMultiplier => "GAS_ESTIMATE_MULTIPLIER must be at least 1"

/-- The variables that are set. -/
abbrev Environment := String → Option String

namespace Config

/-- The configuration of an empty environment. -/
def standard : Config where
  backendUrl := "http://127.0.0.1:8545"
  dialect := .node
  proxyPort := 8546
  fillDefaultFields := true
  gasMultiplier := GasPolicy.standard.multiplier
  schemaFile := none
  logFilter := "info"

/-- How estimates of gas become limits. -/
def gasPolicy (c : Config) : GasPolicy := ⟨c.gasMultiplier⟩

/-! ## Words and numbers -/

/-- The text with its ASCII letters in lower case; every other character stays. -/
def lowered (text : String) : String := String.ofList (text.toList.map Char.toLower)

/-- Read the name of a dialect. -/
def readDialect (text : String) : Except ConfigError Dialect :=
  let word := lowered text
  if word = "node" then .ok .node
  else if word = "tester" ∨ word = "eth_tester" then .ok .tester
  else .error (.dialect word)

/-- The words for yes. -/
def yesWords : List String := ["1", "true", "yes", "on"]

/-- The words for no. -/
def noWords : List String := ["0", "false", "no", "off"]

/-- Read a word for yes or no. -/
def readFlag (text : String) : Except ConfigError Bool :=
  let word := lowered text
  if word ∈ yesWords then .ok true
  else if word ∈ noWords then .ok false
  else .error (.filling word)

/-- Read an unsigned number up to the largest one of a setting. -/
def readNumber (largest : Nat) (fault : Text.UnsignedError → ConfigError) (text : String) :
    Except ConfigError Nat :=
  (Text.Unsigned.parse (largest + 1) text.toList).mapError fault

/-- Read the number of a network port: sixteen bits. -/
def readPort : String → Except ConfigError Nat := readNumber 65535 .proxyPort

/-- Read a multiplier, a number of sixty-four bits. -/
def readMultiplier : String → Except ConfigError Nat := readNumber (Nat.pow 2 64 - 1) .multiplier

/-- Read a variable if it is set. -/
def setting {α : Type} (env : Environment) (variableName : String)
    (read : String → Except ConfigError α) (default : α) : Except ConfigError α :=
  match env variableName with
  | some text => read text
  | none => .ok default

/-! ## The whole configuration -/

/-- The path of the schema file; an empty one is none. -/
def schemaPath (env : Environment) : Option String := (env "SCHEMA_FILE").filter fun p => p ≠ ""

/-- Read the configuration. -/
def ofEnvironment (env : Environment) : Except ConfigError Config := do
  let dialect ← setting env "BACKEND_DIALECT" readDialect standard.dialect
  let proxyPort ← setting env "PROXY_PORT" readPort standard.proxyPort
  let fillDefaultFields ← setting env "FILL_DEFAULT_FIELDS" readFlag standard.fillDefaultFields
  let gasMultiplier ← setting env "GAS_ESTIMATE_MULTIPLIER" readMultiplier standard.gasMultiplier
  if gasMultiplier = 0 then throw .zeroMultiplier
  return {
    backendUrl := (env "BACKEND_RPC_URL").getD standard.backendUrl
    dialect, proxyPort, fillDefaultFields, gasMultiplier
    schemaFile := schemaPath env
    logFilter := (env "RUST_LOG").getD standard.logFilter }

end Config

/-! ## The schema file -/

/-- Why a schema file gives no catalog. -/
inductive SchemaFileError where
  | unreadable (path : String)
  | notJson (path : String)
  | rejected (path : String) (cause : SchemaError)
deriving DecidableEq, Repr

/-- The wording of each cause. -/
def SchemaFileError.message : SchemaFileError → String
  | .unreadable path => "Failed to read schema file " ++ path
  | .notJson path => "Schema file " ++ path ++ " is not valid JSON"
  | .rejected path cause => "Schema file " ++ path ++ " was rejected: " ++ cause.message

/-- What the files at some paths hold. -/
abbrev Files := (path : String) → Option ByteArray

namespace Config

/-- The standard catalog with the schemas of a text. -/
def catalogOfText (path text : String) : Except SchemaFileError Catalog :=
  match Json.read? Json.maxDepth text with
  | none => .error (.notJson path)
  | some table => (Catalog.standard.extend table).mapError (.rejected path)

/-- The standard catalog with the schemas of the schema file, if there is to be one. -/
def loadCatalog (files : Files) (c : Config) : Except SchemaFileError Catalog :=
  match c.schemaFile with
  | none => .ok .standard
  | some path =>
    match (files path).bind String.fromUTF8? with
    | none => .error (.unreadable path)
    | some text => catalogOfText path text

end Config

end EthGateway
