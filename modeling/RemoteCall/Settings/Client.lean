/-
# Settings of a client

All times are in whole milliseconds and fill one word; a longer time is cut to its lowest 64
bits.
-/
import RemoteCall.Address.Candidates
import RemoteCall.Projection
import RemoteCall.Version

namespace RemoteCall

/-- Refuses keep-alive settings without an interval, or with a timeout that is not longer. -/
def checkKeepAlive (interval timeout : UInt64) : Except Failure Unit :=
  if interval = 0 then .error (.config "keep_alive_interval_ms must be > 0")
  else if timeout ≤ interval then
    .error <| .config <|
      s!"keep_alive_timeout_ms ({timeout}) must exceed keep_alive_interval_ms ({interval})"
  else .ok ()

/-- The settings of a client. -/
structure ClientSettings where
  /-- The candidate servers, separated by commas. -/
  addresses : String := "127.0.0.1:7300"
  /-- The oldest version to offer. -/
  versionMin : UInt8 := 1
  /-- The newest version to offer. -/
  versionMax : UInt8 := 5
  /-- How long the client may be silent. -/
  keepAliveInterval : UInt64 := 5000
  /-- How long the server may be silent. -/
  keepAliveTimeout : UInt64 := 15000
  /-- The pause between two attempts to find a server. -/
  reconnectInterval : UInt64 := 1000
  /-- How long a call waits when it does not say how long. -/
  callTimeout : UInt64 := 30000
  /-- How long an attempt to connect may take. -/
  connectTimeout : UInt64 := 2000
  /-- How long the answer to the opening may take. -/
  handshakeTimeout : UInt64 := 5000
  /-- How long a start waits for a session. -/
  startTimeout : UInt64 := 10000
  /-- The pause between two looks for calls that have waited too long. -/
  sweepInterval : UInt64 := 50
  /-- Whether unknown constants are refused even where a sentinel stands for them. -/
  strictEnums : Bool := false
deriving DecidableEq, Repr, Inhabited

namespace ClientSettings

/-- The candidate servers. -/
def candidates (s : ClientSettings) : List String := candidatesOf s.addresses

/-- The versions to offer. -/
def range (s : ClientSettings) : Except Failure VersionRange :=
  VersionRange.ofSettings s.versionMin s.versionMax

/-- The pause between two looks for calls that have waited too long, at least a millisecond. -/
def sweepPause (s : ClientSettings) : Duration := .ofMillis (max s.sweepInterval.toNat 1)

/-- How strictly results are read when a call does not say so. -/
def decodeOptions (s : ClientSettings) : DecodeOptions := { strictEnums := s.strictEnums }

/-- The times of the settings: keep-alive interval and timeout, pause before a reconnect, call,
connect, handshake and start timeout, pause between sweeps. -/
def durations (s : ClientSettings) : List Duration :=
  [s.keepAliveInterval, s.keepAliveTimeout, s.reconnectInterval, s.callTimeout,
    s.connectTimeout, s.handshakeTimeout, s.startTimeout].map
      (fun ms => Duration.ofMillis ms.toNat) ++ [s.sweepPause]

/-- Refuses settings that a client cannot be run with. -/
def validate (s : ClientSettings) : Except Failure Unit := do
  let _ ← s.range
  if s.candidates.isEmpty then throw (.config "client address list is empty")
  checkKeepAlive s.keepAliveInterval s.keepAliveTimeout
  if s.callTimeout = 0 then throw (.config "default_call_timeout_ms must be > 0")

end ClientSettings

end RemoteCall
