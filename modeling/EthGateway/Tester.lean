import EthGateway.Formatter

/-
# EthGateway.Tester -- the conventions of the test backend

The test backend names the fields of records in snake case and takes quantities as integers, where
the wire has camel case and hexadecimal text. Arguments go into its conventions, results come back
out of them. It issues filters and snapshots under integers, which callers see as hexadecimal text.
-/

namespace EthGateway.Tester

/-! ## Names of fields -/

/-- The fields of a transaction. -/
def transaction : RenameTable where
  name := "transaction"
  pairs :=
    [("block_hash", "blockHash"), ("block_number", "blockNumber"), ("gas_price", "gasPrice"),
     ("transaction_hash", "transactionHash"), ("transaction_index", "transactionIndex")]
  internal_nodup := by decide
  wire_nodup := by decide

/-- The fields of a log entry. -/
def log : RenameTable where
  name := "log"
  pairs :=
    [("log_index", "logIndex"), ("transaction_index", "transactionIndex"),
     ("transaction_hash", "transactionHash"), ("block_hash", "blockHash"),
     ("block_number", "blockNumber")]
  internal_nodup := by decide
  wire_nodup := by decide

/-- The fields of a receipt. -/
def receipt : RenameTable where
  name := "receipt"
  pairs :=
    [("block_hash", "blockHash"), ("block_number", "blockNumber"),
     ("contract_address", "contractAddress"), ("gas_used", "gasUsed"),
     ("cumulative_gas_used", "cumulativeGasUsed"), ("transaction_hash", "transactionHash"),
     ("transaction_index", "transactionIndex")]
  internal_nodup := by decide
  wire_nodup := by decide

/-- The fields of a block. -/
def block : RenameTable where
  name := "block"
  pairs :=
    [("gas_limit", "gasLimit"), ("sha3_uncles", "sha3Uncles"),
     ("transactions_root", "transactionsRoot"), ("parent_hash", "parentHash"),
     ("bloom", "logsBloom"), ("state_root", "stateRoot"), ("receipt_root", "receiptsRoot"),
     ("total_difficulty", "totalDifficulty"), ("extra_data", "extraData"),
     ("gas_used", "gasUsed")]
  internal_nodup := by decide
  wire_nodup := by decide

/-- The fields of a transaction that is an argument. -/
def transactionParams : RenameTable where
  name := "transaction_params"
  pairs := [("gas_price", "gasPrice")]
  internal_nodup := by decide
  wire_nodup := by decide

/-- The fields of a filter that is an argument. -/
def filterParams : RenameTable where
  name := "filter_params"
  pairs := [("from_block", "fromBlock"), ("to_block", "toBlock")]
  internal_nodup := by decide
  wire_nodup := by decide

/-! ## Arguments -/

open Formatter

/-- Fields of integers. -/
def integerFields (names : List String) : Formatter :=
  .fields (names.map fun n => (n, integerIfHex))

/-- A transaction, without the nonce that the backend does not take. -/
def transactionArgument : Formatter :=
  .steps [.rename transactionParams .toInternal, integerFields ["gas", "gas_price", "value"],
    .removeKey "nonce"]

/-- A filter. -/
def filterArgument : Formatter :=
  .steps [.rename filterParams .toInternal, integerFields ["from_block", "to_block"]]

/-- What is done to the arguments of each method. -/
def requests : FormatterTable :=
  .ofList
    [("eth_getBlockByNumber", .args [blockNumberOrName]),
     ("eth_getBlockTransactionCountByNumber", .args [blockNumberOrName]),
     ("eth_getUncleCountByBlockNumber", .args [blockNumberOrName]),
     ("eth_getTransactionByBlockHashAndIndex", .args [.identity, integerIfHex]),
     ("eth_getTransactionByBlockNumberAndIndex", .args [blockNumberOrName, integerIfHex]),
     ("eth_getUncleByBlockNumberAndIndex", .args [blockNumberOrName, integerIfHex]),
     ("eth_getCode", .args [.identity, blockNumberOrName]),
     ("eth_getFilterChanges", .args [.hexToInteger]),
     ("eth_getFilterLogs", .args [.hexToInteger]),
     ("eth_uninstallFilter", .args [.hexToInteger]),
     ("evm_revert", .args [.hexToInteger]),
     ("eth_newFilter", .args [filterArgument]),
     ("eth_getLogs", .args [filterArgument]),
     ("eth_sendTransaction", .args [transactionArgument]),
     ("eth_estimateGas", .args [transactionArgument]),
     ("eth_call", .args [transactionArgument, blockNumberOrName]),
     ("personal_sendTransaction", .args [transactionArgument, .identity])]

/-! ## Results -/

/-- A record with its fields renamed. -/
def renamed (table : RenameTable) : Formatter := (Formatter.rename table .toWire).gated .isRecord

/-- A list of log entries. -/
def logs : Formatter := (Formatter.each (.rename log .toWire)).gated .isListOfRecords

/-- A transaction; one that creates a contract has no receiver. -/
def transactionResult : Formatter :=
  (Formatter.steps [.fields [("to", .emptyToNull)], .rename transaction .toWire]).gated .isRecord

/-- A receipt with its log entries. -/
def receiptResult : Formatter :=
  (Formatter.steps
    [.fields [("logs", .each (.rename log .toWire))], .rename receipt .toWire]).gated .isRecord

/-- What is done to the result of each method. -/
def results : FormatterTable :=
  .ofList
    [("eth_getBlockByHash", renamed block),
     ("eth_getBlockByNumber", renamed block),
     ("eth_getBlockTransactionCountByHash", renamed transaction),
     ("eth_getBlockTransactionCountByNumber", renamed transaction),
     ("eth_getTransactionByHash", transactionResult),
     ("eth_getTransactionReceipt", receiptResult),
     ("eth_newFilter", .integerToHex),
     ("eth_newBlockFilter", .integerToHex),
     ("eth_newPendingTransactionFilter", .integerToHex),
     ("eth_getLogs", logs),
     ("eth_getFilterChanges", logs),
     ("eth_getFilterLogs", logs),
     ("evm_snapshot", .integerToHex)]

/-- The formatting in front of the test backend. -/
def formatting : Formatting := ⟨"tester_compat", requests, results⟩

end EthGateway.Tester
