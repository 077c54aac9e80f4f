import EthGateway.Catalog
import EthGateway.Normalizer
import EthGateway.RenameTable

/-
# EthGateway.Formatter -- what is done to a value on its way

A formatter is data: a term of a small language of changes to values, run by `apply`. Every form
leaves a value of another shape than the one it is for unchanged, so a formatter never fails; what
it may do besides is report what the normalizers inside it report. `custom` takes any function,
which reports nothing.

A table gives a method at most one formatter. Two tables come from a catalog: one for the arguments
of every method that has a schema, and one for the results of those whose schema is by fields, where
a result that is no record is left alone.
-/

namespace EthGateway

/-! ## Conditions -/

/-- A question about the outside of a value. -/
inductive Condition where
  | isRecord
  | isListOfRecords
  | isNotNamedBlock
  | isHexString
  | isEmptyString
deriving DecidableEq, Repr

/-- The answer to the question. -/
def Condition.holds : Condition → Json → Bool
  | .isRecord, v => v.isRecord
  | .isListOfRecords, .arr items => items.all Json.isRecord
  | .isListOfRecords, _ => false
  | .isNotNamedBlock, v => !v.isNamedBlock
  | .isHexString, v => v.isHexString
  | .isEmptyString, v => v = .str ""

/-! ## Formatters -/

/-- A change to values. -/
inductive Formatter where
  /-- The value as it is. -/
  | identity
  /-- A hexadecimal quantity as an integer. -/
  | hexToInteger
  /-- An integer quantity as hexadecimal text. -/
  | integerToHex
  /-- The empty string as null. -/
  | emptyToNull
  /-- Something, under a condition. -/
  | when (condition : Condition) (inner : Formatter)
  /-- One after the other. -/
  | steps (inners : List Formatter)
  /-- The first item by the first formatter, the second by the second, and so on. -/
  | args (inners : List Formatter)
  /-- The item at one place. -/
  | atIndex (index : Nat) (inner : Formatter)
  /-- The fields of a record that are there, in the given order. -/
  | fields (inners : List (String × Formatter))
  /-- The names of a record's fields. -/
  | rename (table : RenameTable) (direction : Direction)
  /-- A record without a field. -/
  | removeKey (key : String)
  /-- Every item of a list. -/
  | each (inner : Formatter)
  /-- The spelling that a kind asks for. -/
  | normalize (kind : Kind) (chain : Chain)
  /-- Any function. -/
  | custom (f : Json → Json)

namespace Formatter

/-- The empty string as null. -/
def nullIfEmpty : Json → Json
  | .str s => if s = "" then .null else .str s
  | v => v

/-- A record without the members under a key. -/
def dropKey (key : String) : Json → Json
  | .obj members => .obj (Record.erase members key)
  | v => v

/-- Do something to the members under a key. -/
def onMember (key : String) (f : Json → Noted Json) (members : List (String × Json)) :
    Noted (List (String × Json)) :=
  .each (fun m => if m.1 = key then (fun v => (m.1, v)) <$> f m.2 else pure m) members

/-- Do something to the item at a place. -/
def onItem (f : Json → Noted Json) : (index : Nat) → List Json → Noted (List Json)
  | _, [] => pure []
  | 0, v :: vs => (· :: vs) <$> f v
  | index + 1, v :: vs => (v :: ·) <$> onItem f index vs

mutual

/-- Run a formatter on a value. -/
def apply : Formatter → Json → Noted Json
  | .identity, v => pure v
  | .hexToInteger, v => pure v.hexToInteger
  | .integerToHex, v => pure v.integerToHex
  | .emptyToNull, v => pure (nullIfEmpty v)
  | .when condition inner, v => if condition.holds v then inner.apply v else pure v
  | .steps inners, v => applySteps inners v
  | .args inners, .arr items => .arr <$> applyArgs inners items
  | .args _, v => pure v
  | .atIndex index inner, .arr items => .arr <$> onItem (fun v => inner.apply v) index items
  | .atIndex _ _, v => pure v
  | .fields inners, .obj members => .obj <$> applyFields inners members
  | .fields _, v => pure v
  | .rename table direction, v => pure (table.rename direction v)
  | .removeKey key, v => pure (dropKey key v)
  | .each inner, .arr items => .arr <$> Noted.each (fun v => inner.apply v) items
  | .each _, v => pure v
  | .normalize kind chain, v => chain.normalize kind v
  | .custom f, v => pure (f v)
termination_by structural f => f

/-- Run formatters one after the other. -/
def applySteps : List Formatter → Json → Noted Json
  | [], v => pure v
  | f :: fs, v => f.apply v >>= fun w => applySteps fs w
termination_by structural fs => fs

/-- Run formatters on the items at their places; items without a formatter stay. -/
def applyArgs : List Formatter → List Json → Noted (List Json)
  | f :: fs, v :: vs => f.apply v >>= fun w => (w :: ·) <$> applyArgs fs vs
  | _, vs => pure vs
termination_by structural fs => fs

/-- Run formatters on the members under their keys. -/
def applyFields : List (String × Formatter) → List (String × Json) → Noted (List (String × Json))
  | [], members => pure members
  | (key, f) :: fs, members =>
    onMember key (fun v => f.apply v) members >>= fun members => applyFields fs members
termination_by structural fs => fs

end

/-! ## Composed formatters -/

/-- A formatter, then another. -/
def andThen : Formatter → Formatter → Formatter
  | .steps inners, next => .steps (inners ++ [next])
  | first, next => .steps [first, next]

/-- A formatter, for values that meet a condition. -/
def gated (f : Formatter) (condition : Condition) : Formatter := .when condition f

/-- A hexadecimal string as an integer. -/
def integerIfHex : Formatter := .when .isHexString .hexToInteger

/-- A block's number as an integer; the names of blocks stay. -/
def blockNumberOrName : Formatter := .when .isNotNamedBlock integerIfHex

end Formatter

/-! ## Formatters by method -/

namespace Formatter

/-- Normalize an argument that has a kind. -/
def ofKind? (chain : Chain) : Option Kind → Formatter
  | some kind => .normalize kind chain
  | none => .identity

/-- Normalize the fields that have a kind. -/
def ofFields (chain : Chain) (kinds : Record Kind) : Formatter :=
  .fields (List.map (fun k => (k.1, .normalize k.2 chain)) kinds)

/-- Normalize the arguments that a schema describes. -/
def ofSchema (chain : Chain) : ParamSchema → Formatter
  | .positional kinds => .args (kinds.map (ofKind? chain))
  | .keyed kinds => .atIndex 0 (ofFields chain kinds)

end Formatter

/-- The formatters of methods, by name. -/
abbrev FormatterTable := Record Formatter

namespace FormatterTable

/-- The table of a list of formatters, the last of several for one method. -/
def ofList (entries : List (String × Formatter)) : FormatterTable := Record.ofList entries

/-- What holds of every listed formatter holds of every formatter of the table. -/
theorem forall_mem_ofList {P : Formatter → Prop} {entries : List (String × Formatter)}
    (h : ∀ e ∈ entries, P e.2) : ∀ e ∈ ofList entries, P e.2 :=
  fun e he => h e (Record.mem_of_mem_ofList he)

/-- Change every formatter. -/
def mapAll (t : FormatterTable) (f : Formatter → Formatter) : FormatterTable :=
  List.map (fun e => (e.1, f e.2)) t

/-- Let every formatter run under a condition only. -/
def gated (t : FormatterTable) (condition : Condition) : FormatterTable :=
  mapAll t fun f => f.gated condition

/-- The formatters for the arguments of a catalog's methods. -/
def forRequests (catalog : Catalog) (chain : Chain) : FormatterTable :=
  List.map (fun e => (e.1, .ofSchema chain e.2)) catalog.schemas

/-- The formatter for the results of a schema by fields. -/
def resultFormatter? (chain : Chain) : ParamSchema → Option Formatter
  | .keyed fields => some ((Formatter.ofFields chain fields).gated .isRecord)
  | .positional _ => none

/-- The formatters for the results of a catalog's methods. -/
def forResults (catalog : Catalog) (chain : Chain) : FormatterTable :=
  catalog.schemas.filterMap fun e => (resultFormatter? chain e.2).map fun f => (e.1, f)

end FormatterTable

/-- Formatters for both ways of a call. -/
structure Formatting where
  name : String
  requests : FormatterTable
  results : FormatterTable

namespace Formatting

/-- Normalize the arguments of a catalog's methods. -/
def ofCatalog (catalog : Catalog) (chain : Chain) : Formatting :=
  ⟨"schema_normalization", .forRequests catalog chain, []⟩

/-- The arguments that a formatted list of arguments is; any other value is the only one. -/
def asParams : Json → List Json
  | .arr params => params
  | v => [v]

/-- Format the arguments of a method. -/
def formatRequest (f : Formatting) (method : String) (params : List Json) : Noted (List Json) :=
  match Record.get? f.requests method with
  | some formatter => asParams <$> formatter.apply (.arr params)
  | none => pure params

/-- Format the result of a method. -/
def formatResult (f : Formatting) (method : String) (result : Json) : Noted Json :=
  match Record.get? f.results method with
  | some formatter => formatter.apply result
  | none => pure result

end Formatting

end EthGateway
