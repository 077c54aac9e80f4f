/-
# EthGateway.Methods -- the methods that are known by name

The gateway offers every method of this list and, besides, the deprecated names of some of the
node's administration. Whether a call is formatted does not depend on the list.
-/

namespace EthGateway

namespace Methods

/-- The methods of the `eth` namespace. -/
def eth : List String :=
  ["eth_accounts", "eth_blockNumber", "eth_call", "eth_chainId", "eth_coinbase",
   "eth_estimateGas", "eth_feeHistory", "eth_gasPrice", "eth_getBalance", "eth_getBlockByHash",
   "eth_getBlockByNumber", "eth_getBlockTransactionCountByHash",
   "eth_getBlockTransactionCountByNumber", "eth_getCode", "eth_getFilterChanges",
   "eth_getFilterLogs", "eth_getLogs", "eth_getProof", "eth_getStorageAt",
   "eth_getTransactionByBlockHashAndIndex", "eth_getTransactionByBlockNumberAndIndex",
   "eth_getTransactionByHash", "eth_getTransactionCount", "eth_getTransactionReceipt",
   "eth_getUncleByBlockHashAndIndex", "eth_getUncleByBlockNumberAndIndex",
   "eth_getUncleCountByBlockHash", "eth_getUncleCountByBlockNumber", "eth_hashrate",
   "eth_maxPriorityFeePerGas", "eth_mining", "eth_newBlockFilter", "eth_newFilter",
   "eth_newPendingTransactionFilter", "eth_protocolVersion", "eth_sendRawTransaction",
   "eth_sendTransaction", "eth_sign", "eth_signTransaction", "eth_signTypedData",
   "eth_submitHashrate", "eth_submitWork", "eth_syncing", "eth_uninstallFilter"]

/-- The methods of the `net` namespace. -/
def net : List String := ["net_listening", "net_peerCount", "net_version"]

/-- The methods of the `web3` namespace. -/
def web3 : List String := ["web3_clientVersion", "web3_sha3"]

/-- The methods of the `personal` namespace. -/
def personal : List String :=
  ["personal_importRawKey", "personal_listAccounts", "personal_lockAccount",
   "personal_newAccount", "personal_sendTransaction", "personal_sign", "personal_signTypedData",
   "personal_unlockAccount"]

/-- The methods of test backends and tracing nodes. -/
def extensions : List String :=
  ["evm_mine", "evm_revert", "evm_snapshot", "parity_listStorageKeys", "trace_call"]

/-- The methods of the `admin` namespace. -/
def admin : List String :=
  ["admin_addPeer", "admin_datadir", "admin_nodeInfo", "admin_peers", "admin_startRPC",
   "admin_startWS", "admin_stopRPC", "admin_stopWS"]

/-- All methods, one namespace after the other. -/
def all : List String := eth ++ net ++ web3 ++ personal ++ extensions ++ admin

end Methods

/-! ## Deprecated names -/

/-- A deprecated name, the operation that replaced it, and the method that it stands for. -/
structure Alias where
  name : String
  replacement : String
  method : String
deriving DecidableEq, Repr

namespace Alias

/-- The deprecated names of the `admin` namespace. -/
def standard : List Alias :=
  [⟨"addPeer", "add_peer", "admin_addPeer"⟩,
   ⟨"nodeInfo", "node_info", "admin_nodeInfo"⟩,
   ⟨"startRPC", "start_rpc", "admin_startRPC"⟩,
   ⟨"stopRPC", "stop_rpc", "admin_stopRPC"⟩,
   ⟨"startWS", "start_ws", "admin_startWS"⟩,
   ⟨"stopWS", "stop_ws", "admin_stopWS"⟩]

/-- The alias of a name, the last one if the name is listed more than once. -/
def resolve? (aliases : List Alias) (name : String) : Option Alias :=
  aliases.reverse.find? fun a => a.name = name

/-- The method that a name stands for; most names stand for themselves. -/
def canonical (aliases : List Alias) (name : String) : String :=
  match resolve? aliases name with
  | some a => a.method
  | none => name

end Alias

end EthGateway
