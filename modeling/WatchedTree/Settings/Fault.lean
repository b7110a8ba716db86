import WatchedTree.Text.Quoted

/-!
Why settings could not be loaded.
-/
namespace WatchedTree

/-- What was found in the place of a setting. -/
inductive Found where
  | nothing
  | boolean (value : Bool)
  | integer (value : Int)
  /-- A floating point number, by its written form. -/
  | real (written : Text)
  | string (text : Text)
  | array
  | table
deriving DecidableEq, Repr

namespace Found

/-- The words for what was found in the place of a field. -/
def inField : Found → Text
  | nothing => "unit value".toList
  | boolean value => "boolean `".toList ++ Text.ofBool value ++ "`".toList
  | integer value => "64-bit integer `".toList ++ Text.ofInt value ++ "`".toList
  | real written => "floating point `".toList ++ written ++ "`".toList
  | string text => "string ".toList ++ Text.quoted text
  | array => "sequence".toList
  | table => "map".toList

/-- The words for what was found in the place of a section. -/
def inSection : Found → Text
  | integer value => "integer `".toList ++ Text.ofInt value ++ "`".toList
  | found => found.inField

end Found

/-- The two sections of the settings. -/
inductive SettingsSection where
  | connection
  | cache
deriving DecidableEq, Repr

namespace SettingsSection

def key : SettingsSection → Text
  | connection => "connection".toList
  | cache => "cache".toList

/-- The name under which a section's type is reported. -/
def typeName : SettingsSection → Text
  | connection => "ConnectionConfig".toList
  | cache => "CacheConfig".toList

end SettingsSection

/-- What a field takes. -/
inductive Expected where
  | integer
  | unsignedInteger
  | boolean
  | string
deriving DecidableEq, Repr

namespace Expected

def words : Expected → Text
  | integer => "an integer".toList
  | unsignedInteger => "an unsigned 64 bit or less integer".toList
  | boolean => "a boolean".toList
  | string => "a string".toList

end Expected

inductive SettingsFault where
  /-- A message without a known cause. -/
  | stated (text : Text)
  /-- The file is missing, has an unknown ending, or breaks the grammar. -/
  | unreadable
  /-- A number too large to be layered. -/
  | tooLarge (number : Nat)
  | notATable (found : Found) (which : SettingsSection)
  | wrongType (found : Found) (expected : Expected) (key : Text)
deriving DecidableEq, Repr

namespace SettingsFault

/-- The greatest number that layering keeps. -/
def greatestInteger : Nat := 9223372036854775807

def message : SettingsFault → Text
  | stated text => text
  | unreadable => "unreadable".toList
  | tooLarge number =>
    "value ".toList ++ Text.ofNat number ++ " is greater than the max ".toList ++
      Text.ofNat greatestInteger
  | notATable found which =>
    "invalid type: ".toList ++ found.inSection ++ ", expected struct ".toList ++ which.typeName
  | wrongType found expected key =>
    "invalid type: ".toList ++ found.inField ++ ", expected ".toList ++ expected.words ++
      " for key `".toList ++ key ++ "`".toList

end SettingsFault

end WatchedTree
