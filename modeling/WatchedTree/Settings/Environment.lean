import WatchedTree.Settings.Layer

/-!
The layer of settings that environment variables make: a prefix, and then the path of keys, each
behind two lines. Names are matched in lower case, and empty variables do not count.
-/
namespace WatchedTree

/-- Environment variables by name. -/
abbrev Environment := Table Text Text

namespace Environment

/-- What the names of settings start with. -/
def namePrefix : Text := "curator__".toList

/-- The variable that names a file of settings. -/
def fileVariable : Text := "CURATOR_CONFIG_PATH".toList

/-- The key that a variable's name stands for, with points between its parts. -/
def keyOf? (name : Text) : Option Text :=
  let name := Text.lower name
  if namePrefix.isPrefixOf name then
    some (Text.replacePair '_' '.' (name.drop namePrefix.length))
  else none

/-- What a variable's text is taken for: a truth value, an integer, a real number, or a text. -/
def valueOf (text : Text) : Value :=
  if Text.lower text = "true".toList then .boolean true
  else if Text.lower text = "false".toList then .boolean false
  else match Text.int64? text with
    | some number => .integer number
    | none =>
      match Binary64.ofText? text with
      | some number => .real number
      | none => .text text

def layer (environment : Environment) : ValueTable :=
  environment.filterMap fun (name, text) =>
    if text = [] then none else (keyOf? name).map fun key => (key, valueOf text)

end Environment

end WatchedTree
