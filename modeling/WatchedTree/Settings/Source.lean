import WatchedTree.Settings.Environment
import WatchedTree.Settings.FilePath
import WatchedTree.Toml.Document

/-!
Where settings come from: the defaults, a file, and the environment, of which a later one wins leaf
by leaf.
-/
namespace WatchedTree

/-- The environment variables, and the files that can be read, by path from the root. -/
structure Surroundings where
  environment : Environment := []
  files : Table FilePath Text := []
deriving DecidableEq, Repr

namespace Surroundings

/-- The only known ending of a file's name. -/
def fileEnding : Text := ".toml".toList

/-- The text of the file at a path. -/
def textAt? (surroundings : Surroundings) (path : FilePath) : Option Text :=
  if FilePath.namesFile path then
    (surroundings.files.find? fun entry => FilePath.leadsTo entry.1 path).map Prod.snd
  else none

/-- The text of a file. The file at exactly this path has to have the known ending; if there is
none, the ending is appended. -/
def readFile? (surroundings : Surroundings) (path : FilePath) : Option Text :=
  match surroundings.textAt? path with
  | some text => if FilePath.ending path = fileEnding then some text else none
  | none => surroundings.textAt? (FilePath.withEnding path fileEnding)

/-- The layer of settings in a file. -/
def fileLayer (surroundings : Surroundings) (path : FilePath) : Except SettingsFault ValueTable :=
  match (surroundings.readFile? path).bind Toml.read? with
  | none => .error .unreadable
  | some layer => .ok layer

end Surroundings

namespace Settings

/-- Lays a file, if there is one, and the environment over settings. -/
def layered (settings : Settings) (surroundings : Surroundings) (path : Option FilePath) :
    Except SettingsFault Settings := do
  let base ← settings.toValues
  let file ← match path with
    | none => .ok []
    | some path => surroundings.fileLayer path
  ofValues (ValueTable.overlayAll (ValueTable.overlayAll (ValueTable.overlayAll [] base) file)
    surroundings.environment.layer)

/-- The defaults, the file that the environment names, and the environment. -/
def load (surroundings : Surroundings) : Except SettingsFault Settings :=
  layered {} surroundings (surroundings.environment.get? Environment.fileVariable)

/-- Lays a file and the environment over settings. -/
def withFile (settings : Settings) (surroundings : Surroundings) (path : FilePath) :
    Except SettingsFault Settings :=
  settings.layered surroundings (some path)

end Settings

end WatchedTree
