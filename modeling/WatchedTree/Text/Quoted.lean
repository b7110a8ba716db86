import WatchedTree.Text.Printable

/-!
Quoted text: quotes, backslashes and common controls are written after a backslash, other
characters that do not show by their code point in braces.
-/
namespace WatchedTree

namespace Text

/-- Lower-case hexadecimal digits of a number. -/
def hexDigits (number : Nat) : Text := Nat.toDigits 16 number

/-- The written form of one character between quotes. -/
def escape (letter : Char) : Text :=
  if letter = '"' then ['\\', '"']
  else if letter = '\\' then ['\\', '\\']
  else if letter = '\n' then ['\\', 'n']
  else if letter = '\t' then ['\\', 't']
  else if letter = '\r' then ['\\', 'r']
  else if letter = '\x00' then ['\\', '0']
  else if isPrintable letter then [letter]
  else "\\u\x7b".toList ++ hexDigits letter.toNat ++ ['\x7d']

def quoted (text : Text) : Text := '"' :: text.flatMap escape ++ ['"']

end Text

/-! ## Records in one line -/

namespace Text

/-- Writes a value inside spaced braces. -/
def braced (inner : Text) : Text := " \x7b ".toList ++ inner ++ " \x7d".toList

/-- Joins texts with a comma and a space. -/
def commaJoined : List Text → Text
  | [] => []
  | [text] => text
  | text :: others => text ++ ", ".toList ++ commaJoined others

def field (label : String) (value : Text) : Text := label.toList ++ ": ".toList ++ value

/-- A record: its name, and its fields in braces. -/
def record (label : String) (fields : List Text) : Text :=
  label.toList ++ braced (commaJoined fields)

/-- A record with fields that are not shown, for which two dots stand. -/
def openRecord (label : String) (fields : List Text) : Text :=
  record label (fields ++ ["..".toList])

/-- A constructor with one argument. -/
def applied (label : String) (argument : Text) : Text :=
  label.toList ++ ['('] ++ argument ++ [')']

/-- A tuple of written values. -/
def tuple (parts : List Text) : Text := '(' :: commaJoined parts ++ [')']

/-- A list of written values. -/
def bracketed (items : List Text) : Text := '[' :: commaJoined items ++ [']']

def ofBool (value : Bool) : Text := if value then "true".toList else "false".toList

end Text

end WatchedTree
