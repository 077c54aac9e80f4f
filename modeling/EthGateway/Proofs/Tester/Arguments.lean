import EthGateway.Proofs.Formatter.Fields
import EthGateway.Proofs.Normalization.Stability
import EthGateway.Proofs.Pipeline.Run
import EthGateway.Proofs.Quantity.Spelling
import EthGateway.Proofs.Record.Renaming
import EthGateway.Tester

/-
# EthGateway.Proofs.Tester.Arguments -- the records and handles that the test backend is given

A transaction or a filter is renamed first and respelled afterwards, so a quantity is respelled
under the name that it arrives with, and a member that comes in under the backend's own name is
respelled like the others. What arrives is in the conventions of the backend (`Native`): no name of
the wire is left, and no quantity in the spelling of the wire. Nothing is lost on the way and
nothing made up (`Converted`): an integer field arrives exactly if it was sent under one of its two
names, with the integer of a quantity or else with the value that was sent.

The test backend issues filters and snapshots under numbers and takes them back under the same
numbers. On its way out a number that is a quantity becomes hexadecimal text, and any other number
stays (`formatResult_of_issuer`); on its way back whatever is read as a quantity becomes an integer
again (`received_of_consumer`). The two undo each other for every number, digit for digit
(`hexToInteger_integerToHex_num`).
-/

namespace EthGateway

/-! ## Quantities as integers -/

namespace Quantity

/-- A quantity in the spelling of the wire became the integer of the same value; every other value
stayed. -/
structure Respelled (v w : Json) : Prop where
  quantity : ∀ n, Spells v n → w = .ofNat n
  other : (∀ n, ¬ Spells v n) → w = v

theorem Respelled.not_spells {v w : Json} (h : Respelled v w) (n : Nat) : ¬ Spells w n := by
  by_cases spelled : ∃ m, Spells v m
  · obtain ⟨m, hm⟩ := spelled
    rw [h.quantity m hm]
    rintro ⟨s, ds, isText, -⟩
    cases isText
  · have never : ∀ m, ¬ Spells v m := not_exists.1 spelled
    rw [h.other never]
    exact never n

/-- Digits after a sign are a quantity if they are not empty and their number is small enough. -/
theorem respelled_hexToInteger {s : String} (hex : isHexText s = true) :
    Respelled (.str s) (Json.hexToInteger (.str s)) := by
  cases decoded : decode? s with
  | some q =>
    have integer : Json.hexToInteger (.str s) = .ofNat q.val := by
      rw [Json.hexToInteger, decoded]
      rfl
    have spelled : Spells (.str s) q.val := spells_str_iff.2 ⟨hex, by rw [decoded]; rfl⟩
    refine ⟨?_, fun never => absurd spelled (never q.val)⟩
    intro n h
    have value := (spells_str_iff.1 h).2
    rw [decoded] at value
    rw [integer, Option.some.inj value]
  | none =>
    have unchanged : Json.hexToInteger (.str s) = .str s := by rw [Json.hexToInteger, decoded]
    refine ⟨?_, fun _ => unchanged⟩
    intro n h
    have value := (spells_str_iff.1 h).2
    rw [decoded] at value
    cases value

theorem respelled_integerIfHex (v : Json) :
    Respelled v (Formatter.apply .integerIfHex v).value := by
  have value : (Formatter.apply .integerIfHex v).value
      = if v.isHexString then v.hexToInteger else v := by
    unfold Formatter.integerIfHex
    rw [Formatter.apply]
    show (if v.isHexString then _ else _ : Noted Json).value = _
    split <;> rfl
  rw [value]
  split
  · next hex =>
    cases v with
    | str s => exact respelled_hexToInteger hex
    | _ => cases hex
  · next hex =>
    refine ⟨?_, fun _ => rfl⟩
    intro n h
    exact absurd (spells_iff.1 h).1 hex

end Quantity

namespace Tester

open Quantity (Respelled Spells)

/-! ## Renamed, then respelled -/

/-- The formatters of integer fields. -/
def integerFormatters (integers : List String) : List (String × Formatter) :=
  integers.map fun n => (n, .integerIfHex)

theorem keys_integerFormatters (integers : List String) :
    Record.keys (integerFormatters integers) = integers := by
  simp [integerFormatters, Record.keys, Function.comp_def]

/-- A record with its fields renamed inwards and its quantities respelled. -/
def converted (table : RenameTable) (integers : List String) (r : Record Json) : Record Json :=
  (Formatter.applyFields (integerFormatters integers) (table.renameMembers .toInternal r)).value

section

variable {table : RenameTable} {integers : List String} (distinct : integers.Nodup)
include distinct

theorem converted_eq_map (r : Record Json) :
    converted table integers r =
      List.map (fun m => (m.1, (Formatter.onField (integerFormatters integers) m.1 m.2).value))
        (table.renameMembers .toInternal r) :=
  Formatter.value_applyFields ((keys_integerFormatters integers).symm ▸ distinct) _

theorem keys_converted (r : Record Json) :
    Record.keys (converted table integers r) =
      Record.keys (table.renameMembers .toInternal r) := by
  rw [converted_eq_map distinct, Record.keys, List.map_map]
  rfl

theorem respelled_onField {key : String} (h : key ∈ integers) (v : Json) :
    Respelled v (Formatter.onField (integerFormatters integers) key v).value := by
  have listed : (key, Formatter.integerIfHex) ∈ integerFormatters integers :=
    List.mem_map_of_mem h
  rw [Formatter.onField_of_mem ((keys_integerFormatters integers).symm ▸ distinct) listed]
  exact Quantity.respelled_integerIfHex v

/-- Of the names that the table has for the wire, none is left. -/
theorem wire_not_mem_keys_converted {p : String × String} (h : p ∈ table.pairs)
    (wireOnly : p.2 ∉ table.pairs.map Prod.fst) (r : Record Json) :
    p.2 ∉ Record.keys (converted table integers r) := by
  rw [keys_converted distinct, RenameTable.mem_keys_renameMembers]
  rintro ⟨m, _, same⟩
  exact RenameTable.target_ne_source .toInternal h wireOnly m.1 same

end

/-! ## What a record is like that arrives -/

/-- A record that some methods take as their first argument: how its fields are renamed, which of
them are integers, and which names do not arrive. -/
structure RecordArgument where
  methods : List String
  table : RenameTable
  integers : List String
  gone : List String

/-- A transaction. -/
def transactionRecord : RecordArgument where
  methods := ["eth_sendTransaction", "eth_estimateGas", "eth_call", "personal_sendTransaction"]
  table := transactionParams
  integers := ["gas", "gas_price", "value"]
  gone := ["gasPrice", "nonce"]

/-- A filter. -/
def filterRecord : RecordArgument where
  methods := ["eth_newFilter", "eth_getLogs"]
  table := filterParams
  integers := ["from_block", "to_block"]
  gone := ["fromBlock", "toBlock"]

/-- The records in the conventions of the backend: some names are gone, and no integer field holds a
quantity in the spelling of the wire. -/
structure Native (a : RecordArgument) (arrived : Record Json) : Prop where
  gone : ∀ key ∈ a.gone, key ∉ Record.keys arrived
  integers : ∀ n ∈ arrived, n.1 ∈ a.integers → ∀ q, ¬ Spells n.2 q

/-- The integer fields of a record that arrives are those of the record that was sent, under either
of their names, and its quantities are respelled. -/
structure Converted (a : RecordArgument) (sent arrived : Record Json) : Prop where
  fromSent : ∀ n ∈ arrived, n.1 ∈ a.integers →
    ∃ m ∈ sent, a.table.target .toInternal m.1 = n.1 ∧ Respelled m.2 n.2
  kept : ∀ m ∈ sent, a.table.target .toInternal m.1 ∈ a.integers →
    a.table.target .toInternal m.1 ∈ Record.keys arrived

/-- What a formatter does that is for the first argument of some methods: a record arrives as one in
the conventions of the backend, and any other value as it is. -/
structure Serves (a : RecordArgument) (f : Formatter) : Prop where
  record : ∀ sent, ∃ arrived, (f.apply (.obj sent)).value = .obj arrived ∧
    Converted a sent arrived ∧ Native a arrived
  other : ∀ v, v.isRecord = false → (f.apply v).value = v

theorem Converted.not_spells {a : RecordArgument} {sent arrived : Record Json}
    (h : Converted a sent arrived) : ∀ n ∈ arrived, n.1 ∈ a.integers → ∀ q, ¬ Spells n.2 q := by
  intro n hn hk q
  obtain ⟨m, _, _, respelled⟩ := h.fromSent n hn hk
  exact respelled.not_spells q

theorem converted_of_renamed (a : RecordArgument) (distinct : a.integers.Nodup) (r : Record Json) :
    Converted a r (converted a.table a.integers r) := by
  refine ⟨?_, ?_⟩
  · intro n hn hk
    rw [converted_eq_map distinct] at hn
    obtain ⟨renamed, inRenamed, rfl⟩ := List.mem_map.1 hn
    obtain ⟨m, hm, name, value⟩ := RenameTable.exists_of_mem_renameMembers inRenamed
    refine ⟨m, hm, name, ?_⟩
    rw [value]
    exact respelled_onField distinct hk renamed.2
  · intro m hm _
    rw [keys_converted distinct]
    exact RenameTable.mem_keys_renameMembers.2 ⟨m, hm, rfl⟩

/-- Without a field that is no integer, the integer fields are the same. -/
theorem Converted.erase {a : RecordArgument} {sent arrived : Record Json}
    (h : Converted a sent arrived) {key : String} (noInteger : key ∉ a.integers) :
    Converted a sent (Record.erase arrived key) := by
  refine ⟨?_, ?_⟩
  · intro n hn hk
    exact h.fromSent n (Record.mem_erase.1 hn).1 hk
  · intro m hm hk
    refine Record.mem_keys_erase.2 ⟨h.kept m hm hk, ?_⟩
    intro same
    exact noInteger (same ▸ hk)

/-! ## Transactions and filters -/

theorem serves_transactionArgument : Serves transactionRecord transactionArgument := by
  refine ⟨?_, ?_⟩
  · intro sent
    have distinct : transactionRecord.integers.Nodup := by decide
    have arrives := (converted_of_renamed transactionRecord distinct sent).erase
      (show "nonce" ∉ transactionRecord.integers by decide)
    refine ⟨_, rfl, arrives, ?_, arrives.not_spells⟩
    intro key hkey present
    obtain ⟨inConverted, notNonce⟩ := Record.mem_keys_erase.1 present
    -- The price is gone because it was renamed, the nonce because it was taken away.
    rcases List.mem_cons.1 hkey with rfl | hkey
    · have pair : ("gas_price", "gasPrice") ∈ transactionParams.pairs := by decide
      exact wire_not_mem_keys_converted distinct pair (by decide) sent inConverted
    · exact notNonce (List.mem_singleton.1 hkey)
  · intro v other
    cases v with
    | obj r => cases other
    | _ => rfl

theorem serves_filterArgument : Serves filterRecord filterArgument := by
  refine ⟨?_, ?_⟩
  · intro sent
    have distinct : filterRecord.integers.Nodup := by decide
    have arrives := converted_of_renamed filterRecord distinct sent
    refine ⟨_, rfl, arrives, ?_, arrives.not_spells⟩
    intro key hkey
    have pair : ∃ p ∈ filterParams.pairs, p.2 = key ∧ p.2 ∉ filterParams.pairs.map Prod.fst := by
      revert key
      decide
    obtain ⟨p, listed, rfl, wireOnly⟩ := pair
    exact wire_not_mem_keys_converted distinct listed wireOnly sent
  · intro v other
    cases v with
    | obj r => cases other
    | _ => rfl

/-- The records that the backend takes in its own conventions. -/
def recordArguments : List RecordArgument := [transactionRecord, filterRecord]

theorem requests_formatting : formatting.requests = requests := by rw [formatting]

/-- Every method that takes a transaction has the same formatter for it. -/
theorem requests_transaction {method : String} (h : method ∈ transactionRecord.methods) :
    ∃ others,
      Record.get? formatting.requests method = some (.args (transactionArgument :: others)) := by
  rw [requests_formatting, requests, FormatterTable.ofList, Record.get?_ofList]
  rcases (by simpa [transactionRecord] using h : _ ∨ _ ∨ _ ∨ _) with rfl | rfl | rfl | rfl
  all_goals exact ⟨_, rfl⟩

/-- Every method that takes such a record has a formatter for it. -/
theorem requests_of_mem_methods {a : RecordArgument} (listed : a ∈ recordArguments)
    {method : String} (h : method ∈ a.methods) :
    ∃ f others, Record.get? formatting.requests method = some (.args (f :: others)) ∧
      Serves a f := by
  rcases List.mem_cons.1 listed with rfl | listed
  · obtain ⟨others, found⟩ := requests_transaction h
    exact ⟨transactionArgument, others, found, serves_transactionArgument⟩
  · obtain rfl := List.mem_singleton.1 listed
    rw [requests_formatting, requests, FormatterTable.ofList, Record.get?_ofList]
    rcases (by simpa [filterRecord] using h : _ ∨ _) with rfl | rfl
    all_goals exact ⟨filterArgument, _, rfl, serves_filterArgument⟩

/-! ## Filters and snapshots by their numbers -/

/-- The methods that the backend answers with a handle. -/
def issuers : List String :=
  ["eth_newFilter", "eth_newBlockFilter", "eth_newPendingTransactionFilter", "evm_snapshot"]

/-- The methods whose first argument is a handle. -/
def consumers : List String :=
  ["eth_getFilterChanges", "eth_getFilterLogs", "eth_uninstallFilter", "evm_revert"]

theorem results_formatting : formatting.results = results := by rw [formatting]

theorem results_of_issuer {method : String} (h : method ∈ issuers) :
    Record.get? formatting.results method = some .integerToHex := by
  rw [results_formatting, results, FormatterTable.ofList, Record.get?_ofList]
  rcases (by simpa [issuers] using h : _ ∨ _ ∨ _ ∨ _) with rfl | rfl | rfl | rfl
  all_goals rfl

theorem requests_of_consumer {method : String} (h : method ∈ consumers) :
    Record.get? formatting.requests method = some (.args [.hexToInteger]) := by
  rw [requests_formatting, requests, FormatterTable.ofList, Record.get?_ofList]
  rcases (by simpa [consumers] using h : _ ∨ _ ∨ _ ∨ _) with rfl | rfl | rfl | rfl
  all_goals rfl

theorem formatResult_of_issuer {method : String} (h : method ∈ issuers) (v : Json) :
    formatting.formatResult method v = pure v.integerToHex := by
  rw [Formatting.formatResult, results_of_issuer h]
  rfl

theorem received_of_consumer {method : String} (h : method ∈ consumers) (v : Json)
    (rest : List Json) :
    formatting.received ⟨method, v :: rest⟩ = ⟨method, v.hexToInteger :: rest⟩ := by
  have params := Formatting.params_received (requests_of_consumer h) (v :: rest)
  have others : (Formatter.applyArgs [] rest).value = rest := by cases rest <;> rfl
  rw [Formatter.applyArgs, Noted.value_bind, Noted.value_map, others] at params
  exact congrArg (Call.mk method) params

/-- Every number comes back as it was, whether it is a quantity or not. -/
theorem hexToInteger_integerToHex_num (n : Numeral) :
    (Json.num n).integerToHex.hexToInteger = .num n :=
  Json.hexToInteger_integerToHex (.num n)

end Tester

end EthGateway
