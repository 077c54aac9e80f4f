import EthGateway.Server.Dispatch

/-
# EthGateway.Main -- the settings of a gateway, checked before it is started

Reads the configuration from the environment and the schema file from disk, and reports what a
server with these settings would offer, or why there can be none.
-/

namespace EthGateway

/-- The variables that the configuration is read from. -/
def variableNames : List String :=
  ["BACKEND_RPC_URL", "BACKEND_DIALECT", "PROXY_PORT", "FILL_DEFAULT_FIELDS",
   "GAS_ESTIMATE_MULTIPLIER", "SCHEMA_FILE", "RUST_LOG"]

/-- The variables that are set in the environment of the process. -/
def processEnvironment : IO Environment := do
  let settings ← variableNames.mapM fun name => do return (← IO.getEnv name).map fun v => (name, v)
  return Record.get? (Record.ofList settings.reduceOption)

/-- The content of a file, if it can be read. -/
def readFile? (path : String) : IO (Option ByteArray) := do
  try return some (← IO.FS.readBinFile path) catch _ => return none

/-- The settings one by one. -/
def Config.report (c : Config) : List String :=
  ["Proxy Port: " ++ Nat.repr c.proxyPort,
   "Backend RPC: " ++ c.backendUrl,
   "Backend Dialect: " ++ (match c.dialect with | .node => "Node" | .tester => "Tester"),
   "Fill Default Fields: " ++ (if c.fillDefaultFields then "true" else "false"),
   "Gas Estimate Multiplier: " ++ Nat.repr c.gasMultiplier,
   "Log Filter: " ++ c.logFilter]
    ++ (c.schemaFile.map fun path => "Schema File: " ++ path).toList

end EthGateway

open EthGateway

/-- Check the settings and report them. -/
def main : IO UInt32 := do
  match Config.ofEnvironment (← processEnvironment) with
  | .error e =>
    IO.eprintln ("Error: " ++ e.message)
    return 1
  | .ok config =>
    for line in config.report do IO.println line
    let content ← match config.schemaFile with
      | some path => readFile? path
      | none => pure none
    match config.loadCatalog fun _ => content with
    | .error e =>
      IO.eprintln ("Error: " ++ e.message)
      return 1
    | .ok catalog =>
      IO.println ("Method schema catalog: " ++ Nat.repr catalog.size ++ " methods")
      match Server.build config catalog with
      | .error e =>
        IO.eprintln ("Error: " ++ e.name ++ " is registered already")
        return 1
      | .ok server =>
        IO.println ("Registered " ++ Nat.repr server.registry.names.length ++ " RPC methods")
        return 0
