import EthGateway.Pipeline.Exchange

/-
# EthGateway.Admin -- the operations of the node's administration

Each operation is one call. Starting a server takes four texts by position, all of which have a
default.
-/

namespace EthGateway.Admin

/-- Where a server of the node listens, and for what. -/
structure StartParams where
  host : String
  port : String
  cors : String
  apis : String
deriving DecidableEq, Repr

/-- The defaults of a server. -/
def StartParams.standard : StartParams := ⟨"localhost", "8546", "", "eth,net,web3"⟩

/-- The arguments in their order. -/
def StartParams.params (p : StartParams) : List Json :=
  [.str p.host, .str p.port, .str p.cors, .str p.apis]

/-- An operation of the administration. -/
inductive Operation where
  | addPeer (enode : String)
  | datadir
  | nodeInfo
  | peers
  | startRpc (params : StartParams)
  | startWs (params : StartParams)
  | stopRpc
  | stopWs
deriving DecidableEq, Repr

/-- The call that an operation is. -/
def Operation.call : Operation → Call
  | .addPeer enode => ⟨"admin_addPeer", [.str enode]⟩
  | .datadir => ⟨"admin_datadir", []⟩
  | .nodeInfo => ⟨"admin_nodeInfo", []⟩
  | .peers => ⟨"admin_peers", []⟩
  | .startRpc p => ⟨"admin_startRPC", p.params⟩
  | .startWs p => ⟨"admin_startWS", p.params⟩
  | .stopRpc => ⟨"admin_stopRPC", []⟩
  | .stopWs => ⟨"admin_stopWS", []⟩

end EthGateway.Admin
