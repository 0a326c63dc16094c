/-
# Settings of a server
-/
import RemoteCall.Settings.Client

namespace RemoteCall

/-- The settings of a server. -/
structure ServerSettings where
  /-- The address to listen on. -/
  address : SocketAddress := .loopback 7300
  /-- The oldest version to accept. -/
  versionMin : UInt8 := 1
  /-- The newest version to accept. -/
  versionMax : UInt8 := 5
  /-- How long the server may be silent. -/
  keepAliveInterval : UInt64 := 5000
  /-- How long a client may be silent. -/
  keepAliveTimeout : UInt64 := 15000
  /-- How long a drain waits for requests to be answered. -/
  drainTimeout : UInt64 := 5000
  /-- The pause between two looks of a drain. -/
  drainPoll : UInt64 := 25
  /-- How long the opening of a client may take. -/
  handshakeTimeout : UInt64 := 5000
  /-- How many handlers may run at once. -/
  workers : UInt64 := 64
  /-- Whether unknown constants are refused even where a sentinel stands for them. -/
  strictEnums : Bool := false
deriving DecidableEq, Repr, Inhabited

namespace ServerSettings

/-- The settings of a server that only this machine can reach. -/
def withPort (s : ServerSettings) (port : UInt16) : ServerSettings :=
  { s with address := .loopback port }

/-- The settings of a server that every machine can reach. -/
def bindAll (s : ServerSettings) : ServerSettings :=
  { s with address := .anyHost s.address.port }

/-- The versions to accept. -/
def range (s : ServerSettings) : Except Failure VersionRange :=
  VersionRange.ofSettings s.versionMin s.versionMax

/-- The pause between two looks of a drain, at least a millisecond. -/
def drainPause (s : ServerSettings) : Duration := .ofMillis (max s.drainPoll.toNat 1)

/-- How strictly arguments are read. -/
def decodeOptions (s : ServerSettings) : DecodeOptions := { strictEnums := s.strictEnums }

/-- The times of the settings: keep-alive interval and timeout, drain window and pause, handshake
timeout. -/
def durations (s : ServerSettings) : List Duration :=
  [s.keepAliveInterval, s.keepAliveTimeout, s.drainTimeout].map
      (fun ms => Duration.ofMillis ms.toNat) ++
    [s.drainPause, Duration.ofMillis s.handshakeTimeout.toNat]

/-- Refuses settings that a server cannot be run with. -/
def validate (s : ServerSettings) : Except Failure Unit := do
  let _ ← s.range
  checkKeepAlive s.keepAliveInterval s.keepAliveTimeout
  if s.workers = 0 then throw (.config "worker_pool_size must be > 0")

end ServerSettings

end RemoteCall
