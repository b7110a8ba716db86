import WatchedTree.Text.Pieces

/-!
Absolute paths: parent, name, joining, descent, depth, and the rule that a valid path keeps.
-/
namespace WatchedTree

/-- A path is its text; segments are what stands between slashes. -/
abbrev Path := Text

/-- Why a text is no valid path. -/
inductive PathFault where
  | empty
  | relative (path : Path)
  | trailingSlash (path : Path)
  | emptySegment (path : Path)
deriving DecidableEq, Repr

namespace PathFault

def message : PathFault → Text
  | empty => "path must not be empty".toList
  | relative path => "path must be absolute: ".toList ++ path
  | trailingSlash path => "path must not end with '/': ".toList ++ path
  | emptySegment path => "path contains an empty segment: ".toList ++ path

end PathFault

namespace Path

def root : Path := ['/']

def endsWithSlash (path : Path) : Bool := path.getLast? == some '/'

/-- The pieces between the slashes; one more than there are slashes. -/
def pieces (path : Path) : List Text := Text.pieces '/' path

/-- What stands in front of the last slash; the root is its own parent. -/
def parent (path : Path) : Path :=
  match path.reverse.dropWhile (· ≠ '/') with
  | [] => root
  | [_] => root
  | _ :: stem => stem.reverse

/-- What follows the last slash. -/
def name (path : Path) : Text := (path.reverse.takeWhile (· ≠ '/')).reverse

/-- Appends a child name, with a slash unless the path ends with one. -/
def child (path : Path) (childName : Text) : Path :=
  if endsWithSlash path then path ++ childName else path ++ '/' :: childName

/-- Holds of the paths strictly below the base: longer, and cut off from it at a slash. -/
def isBelow (base path : Path) : Bool :=
  base.isPrefixOf path &&
    match path.drop base.length with
    | [] => false
    | letter :: _ => endsWithSlash base || letter == '/'

/-- The rest of a path after its base, without slashes in front. -/
def restBelow (base path : Path) : Text := (path.drop base.length).dropWhile (· = '/')

/-- Number of segments from the base down to the path, `none` outside the base. -/
def depthBelow (base path : Path) : Option Nat :=
  if path = base then some 0
  else if isBelow base path then some (pieces (restBelow base path)).length
  else none

/-- The first segment of a path below the base. -/
def firstBelow (base path : Path) : Text := (restBelow base path).takeWhile (· ≠ '/')

/-- A valid path starts with a slash, and has no empty segment and no slash at its end, the root
apart. -/
def check (path : Path) : Except PathFault Unit :=
  if path = [] then .error .empty
  else if path.head? ≠ some '/' then .error (.relative path)
  else if path = root then .ok ()
  else if endsWithSlash path then .error (.trailingSlash path)
  else if [] ∈ pieces path.tail then .error (.emptySegment path)
  else .ok ()

/-- The path and its ancestors up to the root. -/
def ancestry (path : Path) : List Path := climb path.length path
where
  climb : Nat → Path → List Path
    | 0, path => if path = root then [path] else [path, root]
    | steps + 1, path => if path = root then [path] else path :: climb steps (parent path)

end Path

end WatchedTree
