import WatchedTree.Path
import WatchedTree.Settings.Fault
import WatchedTree.Span

/-!
Failures by their causes, and their messages. A failure may carry the one that led to it;
`Failure.sources` lists the messages down that chain.
-/
namespace WatchedTree

/-- What the remote transport reports. -/
inductive TransportFault where
  | noNode (path : Path)
  | connectionLoss
  | sessionExpired
  | other (text : Text)
deriving DecidableEq, Repr

namespace TransportFault

def isNoNode : TransportFault → Bool
  | noNode _ => true
  | _ => false

def message : TransportFault → Text
  | noNode path => "No node at ".toList ++ path
  | connectionLoss => "Connection loss".toList
  | sessionExpired => "Session expired".toList
  | other text => text

def describe : TransportFault → Text
  | noNode path => Text.record "NoNode" [Text.field "path" (Text.quoted path)]
  | connectionLoss => "ConnectionLoss".toList
  | sessionExpired => "SessionExpired".toList
  | other text => Text.applied "Other" (Text.quoted text)

/-- The kind alone, without its details. -/
def label : TransportFault → String
  | noNode _ => "NoNode"
  | connectionLoss => "ConnectionLoss"
  | sessionExpired => "SessionExpired"
  | other _ => "Other"

end TransportFault

/-- Why settings or a cache's options are refused. -/
inductive Misconfiguration where
  | badPath (fault : PathFault)
  | blankConnectString
  | zeroSessionTimeout
  | zeroConnectionTimeout
  | zeroWeakCapacity
  | softBelowWeak (soft weak : Nat)
  | singleNodeAndSelector
  | zeroEntries
  | zeroExpiry
  /-- A message without a known cause. -/
  | stated (text : Text)
deriving DecidableEq, Repr

namespace Misconfiguration

def message : Misconfiguration → Text
  | badPath fault => fault.message
  | blankConnectString => "connect_string cannot be empty".toList
  | zeroSessionTimeout => "session_timeout_ms must be greater than 0".toList
  | zeroConnectionTimeout => "connection_timeout_ms must be greater than 0".toList
  | zeroWeakCapacity => "weak_values_capacity must be greater than 0".toList
  | softBelowWeak soft weak =>
    "soft_values_capacity (".toList ++ Text.ofNat soft ++
      ") must not be below weak_values_capacity (".toList ++ Text.ofNat weak ++ [')']
  | singleNodeAndSelector => "a cache is either single-node or selector driven, not both".toList
  | zeroEntries => "max_entries must be greater than 0".toList
  | zeroExpiry => "expiry durations must be greater than 0".toList
  | stated text => text

end Misconfiguration

/-- Why an operation does not fit the present state. -/
inductive Misuse where
  | noRuntime
  | alreadyStarted
  | outsideCache (path base : Path)
  /-- A message without a known cause. -/
  | stated (text : Text)
deriving DecidableEq, Repr

namespace Misuse

def message : Misuse → Text
  | noRuntime => "cache must be started within a tokio runtime".toList
  | alreadyStarted => "cache already started".toList
  | outsideCache path base => path ++ " is outside of cache ".toList ++ base
  | stated text => text

end Misuse

/-- A failure as it is handed to a caller or a listener. -/
inductive Failure where
  /-- No live session within the connection timeout. -/
  | connectionTimeout (elapsed : Span)
  /-- The session expired and opening another one failed. -/
  | sessionExpired (source : Failure)
  | fetchFailed (path : Path) (source : TransportFault)
  | configuration (cause : Misconfiguration)
  | settings (fault : SettingsFault)
  | transport (fault : TransportFault)
  | notStarted
  | closed
  | illegalState (cause : Misuse)
  | refreshCancelled
deriving DecidableEq, Repr

namespace Failure

def message : Failure → Text
  | connectionTimeout elapsed => "Connection timed out after ".toList ++ elapsed.describe
  | sessionExpired source =>
    "Session expired and could not be re-established: ".toList ++ source.message
  | fetchFailed path source =>
    "Fetch of ".toList ++ path ++ " failed: ".toList ++ source.message
  | configuration cause => "Configuration error: ".toList ++ cause.message
  | settings fault => fault.message
  | transport fault => fault.message
  | notStarted => "Connection has not been started".toList
  | closed => "Closed".toList
  | illegalState cause => "Illegal state: ".toList ++ cause.message
  | refreshCancelled => "Refresh cancelled".toList

/-- The messages of the failures behind this one, nearest first. -/
def sources : Failure → List Text
  | sessionExpired source => source.message :: source.sources
  | fetchFailed _ source => [source.message]
  | _ => []

end Failure

end WatchedTree
