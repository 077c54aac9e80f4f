import EthGateway.Proofs.Formatter.Fields
import EthGateway.Proofs.Record.Renaming
import EthGateway.Proofs.Tester.Arguments
import Mathlib.Data.Set.List

/-
# EthGateway.Proofs.Tester.Results -- what the wire gets for a value of the test backend

`HandedOut` says for every method what a value of the backend may become. Blocks, transactions and
receipts go out in the names of the wire, a receipt with the log entries inside it; so do lists of
log entries, and the numbers of filters and snapshots become hexadecimal text. A value of another
shape, or of another method, goes out as it came. The formatting of the backend keeps to this for
every method and every value (`handedOut_formatResult`).
-/

namespace EthGateway.Tester

open RenameTable (OnWire Apart)

/-! ## How a record goes out -/

/-- A field keeps its value. -/
def Unchanged (_ : String) (v w : Json) : Prop := w = v

/-- A receiver that is the empty string becomes null, and any other value stays. -/
def ReceiverNulled (field : String) (v w : Json) : Prop :=
  if field = "to" ∧ v = .str "" then w = .null else w = v

/-- An entry of a list of logs: a record goes out in the names of the wire, and any other value as
it is. -/
inductive LogEntry : Json → Json → Prop
  | record {r s : Record Json} (renamed : OnWire log Unchanged r s) : LogEntry (.obj r) (.obj s)
  | other {v : Json} (noRecord : v.isRecord = false) : LogEntry v v

/-- A list goes out entry by entry, and any other value as it is. -/
inductive LogList : Json → Json → Prop
  | entries {vs ws : List Json} (each : List.Forall₂ LogEntry vs ws) : LogList (.arr vs) (.arr ws)
  | other {v : Json} (noList : ∀ vs, v ≠ .arr vs) : LogList v v

/-- The list of logs goes out entry by entry, and any other field keeps its value. -/
def LogsRenamed (field : String) (v w : Json) : Prop :=
  if field = "logs" then LogList v w else w = v

/-- A record that some methods are answered with: how its fields are renamed, and what becomes of
their values. -/
structure RecordResult where
  methods : List String
  table : RenameTable
  changed : String → Json → Json → Prop

/-- A block. -/
def blockRecord : RecordResult :=
  ⟨["eth_getBlockByHash", "eth_getBlockByNumber"], block, Unchanged⟩

/-- The transactions of a block, should they be counted by a record. -/
def countRecord : RecordResult :=
  ⟨["eth_getBlockTransactionCountByHash", "eth_getBlockTransactionCountByNumber"], transaction,
    Unchanged⟩

/-- A transaction that was sent. -/
def sentRecord : RecordResult := ⟨["eth_getTransactionByHash"], transaction, ReceiverNulled⟩

/-- A receipt. -/
def receiptRecord : RecordResult := ⟨["eth_getTransactionReceipt"], receipt, LogsRenamed⟩

/-- The records that go out in the names of the wire. -/
def recordResults : List RecordResult := [blockRecord, countRecord, sentRecord, receiptRecord]

/-- The methods that are answered with log entries. -/
def logMethods : List String := ["eth_getLogs", "eth_getFilterChanges", "eth_getFilterLogs"]

/-- What goes out for a value that a method was answered with. -/
structure HandedOut (method : String) (v w : Json) : Prop where
  record : ∀ a ∈ recordResults, method ∈ a.methods → ∀ r, v = .obj r →
    ∃ s, w = .obj s ∧ OnWire a.table a.changed r s
  logs : method ∈ logMethods → ∀ entries : List (Record Json), v = .arr (entries.map .obj) →
    ∃ out : List (Record Json), w = .arr (out.map .obj) ∧
      List.Forall₂ (OnWire log Unchanged) entries out
  handle : method ∈ issuers → ∀ q : Quantity, v = q.toJson → w = .str q.encode
  /-- A method of no such kind, or a value of another shape than its kind is for. -/
  other : (∀ a ∈ recordResults, method ∈ a.methods → ∀ r, v ≠ .obj r) →
    (method ∈ logMethods → ∀ entries : List (Record Json), v ≠ .arr (entries.map .obj)) →
    (method ∈ issuers → ∀ q : Quantity, v ≠ q.toJson) → w = v

/-! ## Log entries -/

theorem apart_log : log.Apart := by unfold Apart; decide

theorem onWire_rename {t : RenameTable} (apart : t.Apart) {r : Record Json}
    (ordered : Record.Ordered r) : OnWire t Unchanged r (t.renameMembers .toWire r) := by
  have out := RenameTable.onWire_renameMembers apart Unchanged (fun _ v => v) ordered
    fun _ _ => rfl
  rwa [show List.map (fun m : String × Json => (m.1, m.2)) r = r from List.map_id r] at out

theorem logEntry_rename {v : Json} (ordered : v.Ordered) : LogEntry v (log.rename .toWire v) := by
  cases v with
  | obj r => exact .record (onWire_rename apart_log ordered.1)
  | _ => exact .other rfl

theorem logList_each {v : Json} (ordered : v.Ordered) :
    LogList v ((Formatter.each (.rename log .toWire)).apply v).value := by
  cases v with
  | arr vs =>
    have entries : ∀ v ∈ vs, v.Ordered := Json.orderedItems_iff.1 ordered
    have value : ((Formatter.each (.rename log .toWire)).apply (.arr vs)).value
        = .arr (vs.map (log.rename .toWire)) := by
      rw [Formatter.apply, Noted.value_map, Noted.value_each]
      rfl
    rw [value]
    refine .entries ?_
    rw [List.forall₂_map_right_iff, List.forall₂_same]
    intro v hv
    exact logEntry_rename (entries v hv)
  | _ =>
    refine .other ?_
    intro vs same
    cases same

/-! ## Records -/

/-- What a formatter does that is for the results of some methods: a record goes out as one in the
names of the wire, and any other value as it is. -/
structure Serialises (a : RecordResult) (f : Formatter) : Prop where
  record : ∀ r, (Json.obj r).Ordered →
    ∃ s, (f.apply (.obj r)).value = .obj s ∧ OnWire a.table a.changed r s
  other : ∀ v, v.isRecord = false → (f.apply v).value = v

/-- A formatter for records leaves every other value alone. -/
theorem apply_gated_isRecord (f : Formatter) {v : Json} (h : v.isRecord = false) :
    ((f.gated .isRecord).apply v).value = v := by
  rw [Formatter.gated, Formatter.apply, Condition.holds, h]
  rfl

theorem serialises_renamed {a : RecordResult} (apart : a.table.Apart)
    (unchanged : a.changed = Unchanged) : Serialises a (renamed a.table) := by
  refine ⟨?_, fun v => apply_gated_isRecord _⟩
  intro r ordered
  -- On a record the gate is open.
  rw [unchanged]
  exact ⟨_, rfl, onWire_rename apart ordered.1⟩

/-- A formatter that changes one field before it renames all of them. -/
theorem serialises_steps {a : RecordResult} (apart : a.table.Apart) (field : String)
    (f : Formatter)
    (allowed : ∀ key v, v.Ordered → a.changed key v (if key = field then (f.apply v).value else v)) :
    Serialises a
      ((Formatter.steps [.fields [(field, f)], .rename a.table .toWire]).gated .isRecord) := by
  refine ⟨?_, fun v => apply_gated_isRecord _⟩
  intro r ordered
  have values : ∀ m ∈ r, m.2.Ordered := Json.orderedMembers_iff.1 ordered.2
  refine ⟨a.table.renameMembers .toWire (Formatter.onMember field f.apply r).value, rfl, ?_⟩
  rw [Formatter.value_onMember]
  exact RenameTable.onWire_renameMembers apart a.changed
    (fun key v => if key = field then (f.apply v).value else v) ordered.1
    fun m hm => allowed m.1 m.2 (values m hm)

theorem serialises_transactionResult : Serialises sentRecord transactionResult := by
  refine serialises_steps (a := sentRecord) (by unfold Apart; decide) "to" .emptyToNull ?_
  intro key v _
  show ReceiverNulled key v _
  unfold ReceiverNulled
  by_cases receiver : key = "to"
  · rw [if_pos receiver]
    show if _ then Formatter.nullIfEmpty v = Json.null else Formatter.nullIfEmpty v = v
    cases v with
    | str s => by_cases empty : s = "" <;> simp [Formatter.nullIfEmpty, receiver, empty]
    | _ => simp [Formatter.nullIfEmpty]
  · simp [receiver]

theorem serialises_receiptResult : Serialises receiptRecord receiptResult := by
  refine serialises_steps (a := receiptRecord) (by unfold Apart; decide) "logs"
    (.each (.rename log .toWire)) ?_
  intro key v ordered
  show LogsRenamed key v _
  unfold LogsRenamed
  split
  · exact logList_each ordered
  · rfl

/-- Every method that is answered with such a record has a formatter for it. -/
theorem results_of_mem_methods {a : RecordResult} (listed : a ∈ recordResults) {method : String}
    (h : method ∈ a.methods) :
    ∃ f, Record.get? formatting.results method = some f ∧ Serialises a f := by
  rw [results_formatting, results, FormatterTable.ofList, Record.get?_ofList]
  rcases (by simpa [recordResults] using listed : _ ∨ _ ∨ _ ∨ _) with rfl | rfl | rfl | rfl
  · have serves := serialises_renamed (a := blockRecord) (by unfold Apart; decide) rfl
    rcases (by simpa [blockRecord] using h : _ ∨ _) with rfl | rfl
    all_goals exact ⟨renamed block, rfl, serves⟩
  · have serves := serialises_renamed (a := countRecord) (by unfold Apart; decide) rfl
    rcases (by simpa [countRecord] using h : _ ∨ _) with rfl | rfl
    all_goals exact ⟨renamed transaction, rfl, serves⟩
  · obtain rfl := List.mem_singleton.1 h
    exact ⟨transactionResult, rfl, serialises_transactionResult⟩
  · obtain rfl := List.mem_singleton.1 h
    exact ⟨receiptResult, rfl, serialises_receiptResult⟩

/-! ## Lists of log entries -/

theorem results_of_log {method : String} (h : method ∈ logMethods) :
    Record.get? formatting.results method = some Tester.logs := by
  rw [results_formatting, results, FormatterTable.ofList, Record.get?_ofList]
  rcases (by simpa [logMethods] using h : _ ∨ _ ∨ _) with rfl | rfl | rfl
  all_goals rfl

theorem apply_logs_records (entries : List (Record Json)) :
    (Tester.logs.apply (.arr (entries.map .obj))).value
      = .arr ((entries.map (log.renameMembers .toWire)).map .obj) := by
  have records : Condition.isListOfRecords.holds (.arr (entries.map .obj)) = true := by
    simp [Condition.holds, Json.isRecord]
  rw [Tester.logs, Formatter.gated, Formatter.apply, if_pos records, Formatter.apply,
    Noted.value_map, Noted.value_each, List.map_map, List.map_map]
  rfl

theorem apply_logs_other {v : Json}
    (other : ∀ entries : List (Record Json), v ≠ .arr (entries.map .obj)) :
    (Tester.logs.apply v).value = v := by
  have noRecords : Condition.isListOfRecords.holds v = false := by
    cases v with
    | arr vs =>
      rw [Bool.eq_false_iff]
      intro records
      have entries : vs ∈ Set.range (List.map Json.obj) := by
        rw [Set.range_list_map]
        intro v hv
        have record : v.isRecord = true := List.all_eq_true.1 records v hv
        cases v with
        | obj r => exact ⟨r, rfl⟩
        | _ => cases record
      -- A list that passes the gate is a list of records after all.
      obtain ⟨rs, rfl⟩ := entries
      exact other rs rfl
    | _ => rfl
  rw [Tester.logs, Formatter.gated, Formatter.apply, noRecords]
  rfl

/-! ## Every method -/

/-- A method whose results are formatted is of one of the kinds. -/
theorem kind_of_results {method : String} {f : Formatter}
    (found : Record.get? formatting.results method = some f) :
    (∃ a ∈ recordResults, method ∈ a.methods) ∨ method ∈ logMethods ∨ method ∈ issuers := by
  have kinds : ∀ m ∈ Record.keys results,
      (∃ a ∈ recordResults, m ∈ a.methods) ∨ m ∈ logMethods ∨ m ∈ issuers := by decide +kernel
  rw [results_formatting] at found
  exact kinds method (List.mem_map_of_mem (Record.mem_of_get?_eq_some found))

theorem value_formatResult {method : String} {f : Formatter}
    (found : Record.get? formatting.results method = some f) (v : Json) :
    (formatting.formatResult method v).value = (f.apply v).value := by
  rw [Formatting.formatResult, found]

theorem handedOut_formatResult (method : String) {v : Json} (ordered : v.Ordered) :
    HandedOut method v (formatting.formatResult method v).value := by
  refine ⟨?_, ?_, ?_, ?_⟩
  · rintro a listed h r rfl
    obtain ⟨f, found, serves⟩ := results_of_mem_methods listed h
    rw [value_formatResult found]
    exact serves.record r ordered
  · rintro h entries rfl
    rw [value_formatResult (results_of_log h), apply_logs_records]
    refine ⟨_, rfl, ?_⟩
    rw [List.forall₂_map_right_iff, List.forall₂_same]
    intro r hr
    have record := Json.orderedItems_iff.1 ordered _ (List.mem_map_of_mem (f := Json.obj) hr)
    exact onWire_rename apart_log record.1
  · rintro h q rfl
    rw [formatResult_of_issuer h]
    exact Quantity.integerToHex_toJson q
  · intro noRecord noLogs noHandle
    cases found : Record.get? formatting.results method with
    | none =>
      rw [Formatting.formatResult, found]
      rfl
    | some f =>
      rcases kind_of_results found with ⟨a, listed, h⟩ | h | h
      · obtain ⟨g, found', serves⟩ := results_of_mem_methods listed h
        rw [value_formatResult found']
        refine serves.other v ?_
        cases v with
        | obj r => exact absurd rfl (noRecord a listed h r)
        | _ => rfl
      · rw [value_formatResult (results_of_log h)]
        exact apply_logs_other (noLogs h)
      · rw [formatResult_of_issuer h]
        exact Quantity.integerToHex_of_ne_toJson (noHandle h)

end EthGateway.Tester
