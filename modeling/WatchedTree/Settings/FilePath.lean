import WatchedTree.Text.Pieces

/-!
Paths of files. Repeated slashes and points that stand for the same directory do not count, except
at the end, where they ask for a directory.
-/
namespace WatchedTree

/-- A path of names with slashes between them. -/
abbrev FilePath := Text

namespace FilePath

/-- A path seen from a directory; one that starts with a slash stands for itself. -/
def within (directory : FilePath) : FilePath → FilePath
  | '/' :: rest => '/' :: rest
  | path => directory ++ '/' :: path

/-- Nothing, and the point for the same directory, lead nowhere. -/
def isIdle (name : Text) : Bool := name.isEmpty || name == ['.']

/-- The names that count. -/
def names (path : FilePath) : List Text := (Text.pieces '/' path).filter fun name => !isIdle name

/-- Holds if the path ends with the name of a file. -/
def namesFile (path : FilePath) : Bool := !isIdle ((Text.pieces '/' path).getLast?.getD [])

/-- Holds if two paths lead to the same place. -/
def leadsTo (path other : FilePath) : Bool :=
  path.head? == other.head? && names path == names other

/-- What follows the last point of the last name, with the point; a point at the front of the name
starts no ending. -/
def ending (path : FilePath) : Text :=
  let name := (names path).getLast?.getD []
  let stem := (name.reverse.dropWhile (· ≠ '.')).tail
  if stem.isEmpty then [] else name.drop stem.length

/-- The path with an ending after its last name. A path without a name, and one that ends with the
way up, stay as they are. -/
def withEnding (path : FilePath) (ending : Text) : FilePath :=
  match (names path).getLast? with
  | none => path
  | some name =>
    if name = ['.', '.'] then path
    else
      let named := Text.join '/' ((names path).dropLast ++ [name ++ ending])
      if path.head? = some '/' then '/' :: named else named

end FilePath

end WatchedTree
