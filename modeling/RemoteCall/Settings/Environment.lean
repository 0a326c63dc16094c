/-
# Settings from the environment

Variables of the environment override settings.  A variable whose text is no value of its
setting is passed over.
-/
import RemoteCall.Settings.Server

namespace RemoteCall

/-- The settings of both ends. -/
structure Settings where
  /-- The settings of clients. -/
  client : ClientSettings := {}
  /-- The settings of servers. -/
  server : ServerSettings := {}
deriving DecidableEq, Repr, Inhabited

namespace Settings

/-- Refuses settings that a client or a server cannot be run with; the client's come first. -/
def validate (s : Settings) : Except Failure Unit := do
  s.client.validate
  s.server.validate

/-- The variables that are set. -/
abbrev Environment : Type := Named String

/-- The value of a variable, read in a given way; the present value if it is not set or cannot be
read. -/
def override {α : Type} (env : Environment) (name : String) (read : String → Option α)
    (present : α) : α :=
  ((env.get? name).bind read).getD present

/-- Reads a number of one byte. -/
def readByte (s : String) : Option UInt8 := (Text.natBelow? UInt8.size s).map UInt8.ofNat

/-- Reads a number of one word. -/
def readWord (s : String) : Option UInt64 := (Text.natBelow? UInt64.size s).map UInt64.ofNat

/-- Reads a truth value. -/
def readFlag (s : String) : Option Bool :=
  if s = "true" then some true else if s = "false" then some false else none

/-- The settings after the variables of the environment have been heeded. -/
def withEnvironment (s : Settings) (env : Environment) : Settings :=
  { client :=
      { s.client with
        addresses := override env "SOCKRPC_CLIENT_ADDRESSES" some s.client.addresses
        versionMin := override env "SOCKRPC_CLIENT_VERSION_MIN" readByte s.client.versionMin
        versionMax := override env "SOCKRPC_CLIENT_VERSION_MAX" readByte s.client.versionMax
        keepAliveInterval :=
          override env "SOCKRPC_CLIENT_KEEP_ALIVE_INTERVAL_MS" readWord s.client.keepAliveInterval
        keepAliveTimeout :=
          override env "SOCKRPC_CLIENT_KEEP_ALIVE_TIMEOUT_MS" readWord s.client.keepAliveTimeout
        reconnectInterval :=
          override env "SOCKRPC_RECONNECT_INTERVAL_MS" readWord s.client.reconnectInterval
        callTimeout :=
          override env "SOCKRPC_DEFAULT_CALL_TIMEOUT_MS" readWord s.client.callTimeout
        strictEnums :=
          override env "SOCKRPC_CLIENT_ENUM_HARD_FAIL" readFlag s.client.strictEnums }
    server :=
      { s.server with
        address := override env "SOCKRPC_SERVER_ADDR" SocketAddress.ofString? s.server.address
        versionMin := override env "SOCKRPC_SERVER_VERSION_MIN" readByte s.server.versionMin
        versionMax := override env "SOCKRPC_SERVER_VERSION_MAX" readByte s.server.versionMax
        keepAliveInterval :=
          override env "SOCKRPC_SERVER_KEEP_ALIVE_INTERVAL_MS" readWord s.server.keepAliveInterval
        keepAliveTimeout :=
          override env "SOCKRPC_SERVER_KEEP_ALIVE_TIMEOUT_MS" readWord s.server.keepAliveTimeout
        drainTimeout :=
          override env "SOCKRPC_MAX_TIME_TO_WAIT_FOR_REQUEST_COMPLETION_MS" readWord
            s.server.drainTimeout
        workers := override env "SOCKRPC_WORKER_POOL_SIZE" readWord s.server.workers
        strictEnums :=
          override env "SOCKRPC_SERVER_ENUM_HARD_FAIL" readFlag s.server.strictEnums } }

end Settings

end RemoteCall
