import EthGateway.Json.Basic
import EthGateway.Kind

/-
# EthGateway.Catalog -- schemas by method

A schema names the kinds of a method's arguments: one by one, where `none` leaves an argument alone,
or by the fields of a record that is the first argument. It is read from a JSON list of type names
and nulls, or from a record of type names. The first entry that is neither decides the error.

A catalog holds at most one schema a method, in the order of the methods' names. It only grows: a
method that has a schema keeps it, and what would give it another one fails. A table is taken as a
whole or not at all: `extend` reads every entry before it inserts the first.

For the standard methods, transactions and filters are records whose fields have kinds; all other
arguments have their kinds by position. A block's number or name has no kind, since names must pass,
and neither have typed data and passwords.
-/

namespace EthGateway

/-! ## Schemas -/

/-- The kinds of a method's arguments. -/
inductive ParamSchema where
  | positional (kinds : List (Option Kind))
  | keyed (fields : Record Kind)
deriving DecidableEq, Repr

/-- Why a table of schemas, or a schema, is refused. -/
inductive SchemaError where
  | invalidSchema (method : String) (found : Json.Shape)
  | invalidEntry (method position : String)
  | duplicateMethod (method : String)
deriving DecidableEq, Repr

/-- The wording of each cause. -/
def SchemaError.message : SchemaError → String
  | .invalidSchema method found =>
    "schema for " ++ method ++ " must be a list or a map, got " ++ found.name
  | .invalidEntry method position =>
    "schema for " ++ method ++ " has an invalid entry at " ++ position
      ++ ": expected a type name or null"
  | .duplicateMethod method => "method " ++ method ++ " already has a schema"

namespace ParamSchema

/-- The kinds of a list of type names and nulls, the first at the given position. -/
def readKinds (method : String) :
    (position : Nat) → List Json → Except SchemaError (List (Option Kind))
  | _, [] => .ok []
  | position, .null :: items => do
    return none :: (← readKinds method (position + 1) items)
  | position, .str name :: items => do
    return some (.parse name) :: (← readKinds method (position + 1) items)
  | position, _ :: _ => .error (.invalidEntry method (Nat.repr position))

/-- The kinds of the fields of a record of type names. -/
def readFields (method : String) : List (String × Json) → Except SchemaError (List (String × Kind))
  | [] => .ok []
  | (field, .str name) :: members => do
    return (field, .parse name) :: (← readFields method members)
  | (field, _) :: _ => .error (.invalidEntry method field)

/-- The schema that a JSON value describes. -/
def ofJson (method : String) : Json → Except SchemaError ParamSchema
  | .arr items => .positional <$> readKinds method 0 items
  | .obj members => (fun fields => .keyed (Record.ofList fields)) <$> readFields method members
  | v => .error (.invalidSchema method v.shape)

/-- A schema of type names, one for each argument that has one. -/
def ofNames (names : List (Option String)) : ParamSchema := .positional (names.map (·.map .parse))

/-- A schema of the type names of fields, the last of several for one field. -/
def ofFields (fields : List (String × String)) : ParamSchema :=
  .keyed (Record.ofList (fields.map fun f => (f.1, .parse f.2)))

end ParamSchema

/-! ## Catalogs -/

/-- The schemas of methods, by name. -/
structure Catalog where
  schemas : Record ParamSchema
  ordered : Record.Ordered schemas

namespace Catalog

/-- No schemas: every method's arguments are left alone. -/
def empty : Catalog := ⟨[], Record.ordered_nil⟩

/-- The schema of a method. -/
def lookup (c : Catalog) (method : String) : Option ParamSchema := Record.get? c.schemas method

/-- A method has a schema. -/
def contains (c : Catalog) (method : String) : Bool := (c.lookup method).isSome

/-- The methods that have a schema, in order. -/
def methods (c : Catalog) : List String := Record.keys c.schemas

/-- The number of schemas. -/
def size (c : Catalog) : Nat := c.schemas.length

/-- No method has a schema. -/
def isEmpty (c : Catalog) : Bool := c.schemas.isEmpty

/-- Put a schema in the place of any other. -/
def set (c : Catalog) (method : String) (schema : ParamSchema) : Catalog :=
  ⟨Record.insert c.schemas method schema, Record.ordered_insert c.ordered method schema⟩

/-- The catalog with schemas put in one after the other. -/
def setAll (c : Catalog) (entries : List (String × ParamSchema)) : Catalog :=
  entries.foldl (fun c e => c.set e.1 e.2) c

/-- The catalog of a list of schemas, the last of several for one method. -/
def ofList (entries : List (String × ParamSchema)) : Catalog := empty.setAll entries

/-- Give a schema to a method that has none. -/
def insert (c : Catalog) (method : String) (schema : ParamSchema) : Except SchemaError Catalog :=
  if c.contains method then .error (.duplicateMethod method) else .ok (c.set method schema)

/-- Read the entries of a table in order; that a method has a schema already is found before
anything else about its entry. -/
def readEntries (c : Catalog) :
    List (String × Json) → Except SchemaError (List (String × ParamSchema))
  | [] => .ok []
  | (method, v) :: members =>
    if c.contains method then .error (.duplicateMethod method)
    else do
      let schema ← ParamSchema.ofJson method v
      return (method, schema) :: (← c.readEntries members)

/-- The name that stands for a whole table in messages. -/
def tableName : String := "<table>"

/-- Give schemas to the methods that a JSON record names, to all of them or to none. -/
def extend (c : Catalog) : Json → Except SchemaError Catalog
  | .obj members => c.setAll <$> c.readEntries members
  | v => .error (.invalidSchema tableName v.shape)

/-! ## Changes -/

/-- One thing that may be done to a catalog. -/
inductive Change where
  | insert (method : String) (schema : ParamSchema)
  | extend (table : Json)

/-- Try a change. -/
def change (c : Catalog) : Change → Except SchemaError Catalog
  | .insert method schema => c.insert method schema
  | .extend table => c.extend table

/-- The catalog after a change was tried; a change that fails leaves it as it was. -/
def after (c : Catalog) (step : Change) : Catalog := (c.change step).toOption.getD c

/-! ## What a look-up sees -/

theorem lookup_empty (method : String) : empty.lookup method = none := rfl

theorem lookup_set (c : Catalog) (method : String) (schema : ParamSchema) (m : String) :
    (c.set method schema).lookup m = if m = method then some schema else c.lookup m :=
  Record.get?_insert c.schemas method schema m

/-! ## The standard methods -/

/-- The fields of a transaction. -/
def transactionFields : List (String × String) :=
  [("data", "bytes"), ("from", "address"), ("gas", "uint"), ("gasPrice", "uint"),
   ("nonce", "uint"), ("to", "address"), ("value", "uint")]

/-- The fields of a log filter. -/
def filterFields : List (String × String) := [("to", "address"), ("address", "address[]")]

/-- The fields of a traced call. -/
def traceFields : List (String × String) := [("to", "address"), ("from", "address")]

/-- The methods whose first argument is a record. -/
def recordMethods : List (String × List (String × String)) :=
  [("eth_call", transactionFields),
   ("eth_estimateGas", transactionFields),
   ("eth_getLogs", filterFields),
   ("eth_newFilter", filterFields),
   ("eth_sendTransaction", transactionFields),
   ("eth_signTransaction", transactionFields),
   ("personal_sendTransaction", transactionFields),
   ("trace_call", traceFields)]

/-- The methods whose arguments have their kinds by position. -/
def positionalMethods : List (String × List (Option String)) :=
  [("eth_getBalance", [some "address", none]),
   ("eth_getBlockByHash", [some "bytes32", some "bool"]),
   ("eth_getBlockTransactionCountByHash", [some "bytes32"]),
   ("eth_getCode", [some "address", none]),
   ("eth_getProof", [some "address", some "uint[]", none]),
   ("eth_getStorageAt", [some "address", some "uint", none]),
   ("eth_getTransactionByBlockHashAndIndex", [some "bytes32", some "uint"]),
   ("eth_getTransactionByHash", [some "bytes32"]),
   ("eth_getTransactionCount", [some "address", none]),
   ("eth_getTransactionReceipt", [some "bytes32"]),
   ("eth_getUncleCountByBlockHash", [some "bytes32"]),
   ("eth_sendRawTransaction", [some "bytes"]),
   ("eth_sign", [some "address", some "bytes"]),
   ("eth_signTypedData", [some "address", none]),
   ("eth_submitHashrate", [some "uint", some "bytes32"]),
   ("eth_submitWork", [some "bytes8", some "bytes32", some "bytes32"]),
   ("parity_listStorageKeys", [some "address", none, none, none]),
   ("personal_lockAccount", [some "address"]),
   ("personal_sign", [none, some "address", none]),
   ("personal_signTypedData", [none, some "address", none]),
   ("personal_unlockAccount", [some "address", none, none])]

/-- The schemas of all standard methods. -/
def standardSchemas : List (String × ParamSchema) :=
  recordMethods.map (fun e => (e.1, .ofFields e.2))
    ++ positionalMethods.map (fun e => (e.1, .ofNames e.2))

/-- The catalog of the standard methods. -/
def standard : Catalog := .ofList standardSchemas

end Catalog

end EthGateway
