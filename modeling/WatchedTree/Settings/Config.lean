import WatchedTree.Failure
import WatchedTree.Text.Blank

/-!
The settings, their defaults, and what makes them valid.
-/
namespace WatchedTree

/-- Where to connect, and how long to wait. -/
structure ConnectionConfig where
  /-- Comma separated list of hosts, handed to the transport as it is. -/
  connectString : Text := "127.0.0.1:2181".toList
  sessionTimeoutMillis : Nat := 60000
  /-- How long a handle is given out without a connection. -/
  connectionTimeoutMillis : Nat := 15000
deriving DecidableEq, Repr

namespace ConnectionConfig

def sessionTimeout (config : ConnectionConfig) : Span :=
  Span.ofMillis config.sessionTimeoutMillis

def connectionTimeout (config : ConnectionConfig) : Span :=
  Span.ofMillis config.connectionTimeoutMillis

def check (config : ConnectionConfig) : Except Misconfiguration Unit :=
  if Text.isBlank config.connectString then .error .blankConnectString
  else if config.sessionTimeoutMillis = 0 then .error .zeroSessionTimeout
  else if config.connectionTimeoutMillis = 0 then .error .zeroConnectionTimeout
  else .ok ()

def describe (config : ConnectionConfig) : Text :=
  Text.record "ConnectionConfig"
    [Text.field "connect_string" (Text.quoted config.connectString),
      Text.field "session_timeout_ms" (Text.ofNat config.sessionTimeoutMillis),
      Text.field "connection_timeout_ms" (Text.ofNat config.connectionTimeoutMillis)]

end ConnectionConfig

/-- Defaults for every cache. -/
structure CacheConfig where
  sendRefreshEvents : Bool := true
  refreshOnStart : Bool := true
  sortChildren : Bool := true
  /-- The small bound on entries. -/
  weakValuesCapacity : Nat := 1000
  /-- The large bound on entries. -/
  softValuesCapacity : Nat := 10000
deriving DecidableEq, Repr

namespace CacheConfig

def check (config : CacheConfig) : Except Misconfiguration Unit :=
  if config.weakValuesCapacity = 0 then .error .zeroWeakCapacity
  else if config.softValuesCapacity < config.weakValuesCapacity then
    .error (.softBelowWeak config.softValuesCapacity config.weakValuesCapacity)
  else .ok ()

def describe (config : CacheConfig) : Text :=
  Text.record "CacheConfig"
    [Text.field "send_refresh_events" (Text.ofBool config.sendRefreshEvents),
      Text.field "refresh_on_start" (Text.ofBool config.refreshOnStart),
      Text.field "sort_children" (Text.ofBool config.sortChildren),
      Text.field "weak_values_capacity" (Text.ofNat config.weakValuesCapacity),
      Text.field "soft_values_capacity" (Text.ofNat config.softValuesCapacity)]

end CacheConfig

structure Settings where
  connection : ConnectionConfig := {}
  cache : CacheConfig := {}
deriving DecidableEq, Repr

namespace Settings

/-- The connection is checked before the cache. -/
def check (settings : Settings) : Except Misconfiguration Unit :=
  settings.connection.check >>= fun _ => settings.cache.check

def describe (settings : Settings) : Text :=
  Text.record "Settings"
    [Text.field "connection" settings.connection.describe,
      Text.field "cache" settings.cache.describe]

end Settings

end WatchedTree
