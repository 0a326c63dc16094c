/-
# Settings from a document

A document has a section for clients and one for servers.  A setting that is not named keeps its
default, and names that are no settings are passed over.  A section may also be an array, which
gives its settings by position, or a date, which gives none.
-/
import RemoteCall.Settings.Environment
import RemoteCall.Toml.Document

namespace RemoteCall.Settings

open Toml

/-- The settings of a section, under the names of a list. -/
def section? (names : List String) : Item → Option Entries
  | .table _ _ entries => some entries
  | .inlined entries => some entries
  | .array items => some (names.zip items)
  | .moment => some []
  | _ => none

/-- Reads a text. -/
def textItem : Item → Option String
  | .string s => some s
  | _ => none

/-- Reads a number below a limit. -/
def naturalItem (limit : Nat) : Item → Option Nat
  | .integer i => if 0 ≤ i && i < limit then some i.toNat else none
  | _ => none

/-- Reads a number of one byte. -/
def byteItem (i : Item) : Option UInt8 := (naturalItem UInt8.size i).map UInt8.ofNat

/-- Reads a number of one word. -/
def wordItem (i : Item) : Option UInt64 := (naturalItem UInt64.size i).map UInt64.ofNat

/-- Reads a truth value. -/
def flagItem : Item → Option Bool
  | .boolean b => some b
  | _ => none

/-- Reads a socket address. -/
def addressItem (i : Item) : Option SocketAddress := (textItem i).bind SocketAddress.ofString?

/-- The value of a setting; its default if it is not named, nothing if its item is of the wrong
kind. -/
def setting? {α : Type} (entries : Entries) (name : String) (read : Item → Option α)
    (default : α) : Option α :=
  match entries.get? name with
  | none => some default
  | some i => read i

/-- The names of the settings of a client, by position. -/
def clientNames : List String :=
  ["addresses", "protocol_version_min", "protocol_version_max", "keep_alive_interval_ms",
    "keep_alive_timeout_ms", "reconnect_interval_ms", "default_call_timeout_ms",
    "connect_timeout_ms", "handshake_timeout_ms", "start_timeout_ms", "sweep_interval_ms",
    "enum_hard_fail"]

/-- The settings of a client from a section. -/
def clientOf? (i : Item) : Option ClientSettings := do
  let e ← section? clientNames i
  let d : ClientSettings := {}
  pure
    { addresses := ← setting? e "addresses" textItem d.addresses
      versionMin := ← setting? e "protocol_version_min" byteItem d.versionMin
      versionMax := ← setting? e "protocol_version_max" byteItem d.versionMax
      keepAliveInterval := ← setting? e "keep_alive_interval_ms" wordItem d.keepAliveInterval
      keepAliveTimeout := ← setting? e "keep_alive_timeout_ms" wordItem d.keepAliveTimeout
      reconnectInterval := ← setting? e "reconnect_interval_ms" wordItem d.reconnectInterval
      callTimeout := ← setting? e "default_call_timeout_ms" wordItem d.callTimeout
      connectTimeout := ← setting? e "connect_timeout_ms" wordItem d.connectTimeout
      handshakeTimeout := ← setting? e "handshake_timeout_ms" wordItem d.handshakeTimeout
      startTimeout := ← setting? e "start_timeout_ms" wordItem d.startTimeout
      sweepInterval := ← setting? e "sweep_interval_ms" wordItem d.sweepInterval
      strictEnums := ← setting? e "enum_hard_fail" flagItem d.strictEnums }

/-- The section that gives the settings of a client. -/
def clientEntries (s : ClientSettings) : Entries :=
  clientNames.zip
    [.string s.addresses, .integer s.versionMin.toNat, .integer s.versionMax.toNat,
      .integer s.keepAliveInterval.toNat, .integer s.keepAliveTimeout.toNat,
      .integer s.reconnectInterval.toNat, .integer s.callTimeout.toNat,
      .integer s.connectTimeout.toNat, .integer s.handshakeTimeout.toNat,
      .integer s.startTimeout.toNat, .integer s.sweepInterval.toNat, .boolean s.strictEnums]

/-- The names of the settings of a server, by position. -/
def serverNames : List String :=
  ["addr", "protocol_version_min", "protocol_version_max", "keep_alive_interval_ms",
    "keep_alive_timeout_ms", "max_time_to_wait_for_request_completion_ms",
    "drain_poll_interval_ms", "handshake_timeout_ms", "worker_pool_size", "enum_hard_fail"]

/-- The settings of a server from a section. -/
def serverOf? (i : Item) : Option ServerSettings := do
  let e ← section? serverNames i
  let d : ServerSettings := {}
  pure
    { address := ← setting? e "addr" addressItem d.address
      versionMin := ← setting? e "protocol_version_min" byteItem d.versionMin
      versionMax := ← setting? e "protocol_version_max" byteItem d.versionMax
      keepAliveInterval := ← setting? e "keep_alive_interval_ms" wordItem d.keepAliveInterval
      keepAliveTimeout := ← setting? e "keep_alive_timeout_ms" wordItem d.keepAliveTimeout
      drainTimeout :=
        ← setting? e "max_time_to_wait_for_request_completion_ms" wordItem d.drainTimeout
      drainPoll := ← setting? e "drain_poll_interval_ms" wordItem d.drainPoll
      handshakeTimeout := ← setting? e "handshake_timeout_ms" wordItem d.handshakeTimeout
      workers := ← setting? e "worker_pool_size" wordItem d.workers
      strictEnums := ← setting? e "enum_hard_fail" flagItem d.strictEnums }

/-- The section that gives the settings of a server. -/
def serverEntries (s : ServerSettings) : Entries :=
  serverNames.zip
    [.string s.address.text, .integer s.versionMin.toNat, .integer s.versionMax.toNat,
      .integer s.keepAliveInterval.toNat, .integer s.keepAliveTimeout.toNat,
      .integer s.drainTimeout.toNat, .integer s.drainPoll.toNat,
      .integer s.handshakeTimeout.toNat, .integer s.workers.toNat, .boolean s.strictEnums]

/-- The settings of a document; nothing if the text is no document or a setting is of the wrong
kind. -/
def ofDocument? (s : String) : Option Settings := do
  let root ← Toml.parse? s
  let client ← setting? root "client" clientOf? {}
  let server ← setting? root "server" serverOf? {}
  pure { client, server }

end RemoteCall.Settings
