/-!
Metadata of a remote node and its payload.
-/
namespace WatchedTree

/-- The payload of a node. -/
abbrev Payload := List UInt8

/-- Metadata sent with every read of a node. -/
structure Stat where
  /-- Transaction that created the node. -/
  czxid : Int := 0
  /-- Transaction of the last change of the payload. -/
  mzxid : Int := 0
  ctime : Int := 0
  mtime : Int := 0
  /-- Number of changes of the payload. -/
  version : Int := 0
  /-- Number of children added and removed. -/
  cversion : Int := 0
  aversion : Int := 0
  /-- Owner of an ephemeral node, 0 for a persistent one. -/
  ephemeralOwner : Int := 0
  dataLength : Int := 0
  numChildren : Int := 0
  /-- Transaction of the last change of the child list. -/
  pzxid : Int := 0
deriving DecidableEq, Repr

namespace Stat

def isEphemeral (stat : Stat) : Bool := stat.ephemeralOwner != 0

/-- Strict order of remote time: by the last payload change, then by the last child change. -/
def isOlderThan (mine theirs : Stat) : Bool :=
  mine.mzxid < theirs.mzxid || (mine.mzxid == theirs.mzxid && mine.pzxid < theirs.pzxid)

/-- Takes a number into the range of 32 bits with a sign, modulo `2 ^ 32`. -/
def narrow (number : Int) : Int := number.bmod UInt32.size

/-- A stat from its numbers by name. Versions and counts have 32 bits. -/
def ofFields (number : String → Int) : Stat :=
  { czxid := number "czxid"
    mzxid := number "mzxid"
    ctime := number "ctime"
    mtime := number "mtime"
    version := narrow (number "version")
    cversion := narrow (number "cversion")
    aversion := narrow (number "aversion")
    ephemeralOwner := number "ephemeral_owner"
    dataLength := narrow (number "data_length")
    numChildren := narrow (number "num_children")
    pzxid := number "pzxid" }

/-- The numbers in their fixed order. -/
def toList (stat : Stat) : List Int :=
  [stat.czxid, stat.mzxid, stat.ctime, stat.mtime, stat.version, stat.cversion, stat.aversion,
    stat.ephemeralOwner, stat.dataLength, stat.numChildren, stat.pzxid]

end Stat

end WatchedTree
