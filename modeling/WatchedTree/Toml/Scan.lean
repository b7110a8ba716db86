import WatchedTree.Text.Pieces

/-!
The pieces that TOML documents are made of: blanks, comments, line ends, and quoted texts. A scanner
takes its piece from the front of a text and returns the rest, or `none` if the text does not
start with such a piece.
-/
namespace WatchedTree

namespace Toml

/-- A result and the rest of the text. -/
abbrev Scanned (Result : Type) := Option (Result × Text)

def isBlank (letter : Char) : Bool := letter == ' ' || letter == '\t'

def skipBlanks (text : Text) : Text := text.dropWhile isBlank

/-- Controls other than the tab stand nowhere but in line ends. -/
def isPlain (letter : Char) : Bool :=
  letter == '\t' || (0x20 ≤ letter.toNat && letter.toNat != 0x7f)

/-- Takes a line end, if there is one. -/
def lineEnd? : Text → Option Text
  | '\n' :: rest => some rest
  | '\r' :: '\n' :: rest => some rest
  | _ => none

/-- Skips a comment up to the end of its line. -/
def skipComment : Text → Text
  | '#' :: rest => rest.dropWhile isPlain
  | text => text

/-- What may follow on a line, and the end of the line or of the text. -/
def finishLine? (text : Text) : Option Text :=
  match skipComment (skipBlanks text) with
  | [] => some []
  | rest => lineEnd? rest

/-- Skips blanks, comments and line ends. -/
def skipLines : Nat → Text → Text
  | 0, text => text
  | steps + 1, text =>
    let rest := skipComment (skipBlanks text)
    match lineEnd? rest with
    | some more => skipLines steps more
    | none => rest

/-- Skips all blanks, comments and line ends. -/
def skipFill (text : Text) : Text := skipLines text.length text

/-! ## Quoted texts -/

def hexValue? (letter : Char) : Option Nat :=
  if letter.isDigit then some (letter.toNat - '0'.toNat)
  else if 'a' ≤ letter && letter ≤ 'f' then some (letter.toNat - 'a'.toNat + 10)
  else if 'A' ≤ letter && letter ≤ 'F' then some (letter.toNat - 'A'.toNat + 10)
  else none

/-- The number that hexadecimal digits stand for. -/
def hexNumber? (digits : Text) : Option Nat :=
  digits.foldl (fun number? digit => do return 16 * (← number?) + (← hexValue? digit)) (some 0)

/-- A character by that many hexadecimal digits; surrogates and larger numbers are none. -/
def codePoint? (count : Nat) (text : Text) : Scanned Char :=
  match hexNumber? (text.take count) with
  | none => none
  | some code =>
    if count ≤ text.length && code.isValidChar then some (Char.ofNat code, text.drop count)
    else none

/-- What follows a backslash. -/
def escaped? : Text → Scanned Char
  | 'b' :: rest => some ('\x08', rest)
  | 't' :: rest => some ('\t', rest)
  | 'n' :: rest => some ('\n', rest)
  | 'f' :: rest => some ('\x0c', rest)
  | 'r' :: rest => some ('\r', rest)
  | '"' :: rest => some ('"', rest)
  | '\\' :: rest => some ('\\', rest)
  | 'u' :: rest => codePoint? 4 rest
  | 'U' :: rest => codePoint? 8 rest
  | _ => none

/-- Puts a letter in front of a scanned text. -/
def prepend (letter : Char) (scanned : Scanned Text) : Scanned Text :=
  scanned.map fun (text, rest) => (letter :: text, rest)

/-- A text on one line with escapes, up to its closing quote. -/
def basic? : Nat → Text → Scanned Text
  | 0, _ => none
  | _, [] => none
  | steps + 1, letter :: rest =>
    if letter = '"' then some ([], rest)
    else if letter = '\\' then
      match escaped? rest with
      | none => none
      | some (meant, more) => prepend meant (basic? steps more)
    else if isPlain letter then prepend letter (basic? steps rest)
    else none

/-- A text on one line without escapes, up to its closing quote. -/
def literal? : Text → Scanned Text
  | [] => none
  | letter :: rest =>
    if letter = '\'' then some ([], rest)
    else if isPlain letter then prepend letter (literal? rest)
    else none

/-- The end of a text over several lines: of up to five quotes the last three close it, and those
in front belong to it. -/
def closing? (quote : Char) (text : Text) : Scanned Text :=
  let run := (text.takeWhile (· = quote)).take 5
  if 3 ≤ run.length then some (run.drop 3, text.drop run.length) else none

/-- Skips the rest of a line that holds nothing but blanks, and all blanks and line ends after
it. -/
def joinLines? (text : Text) : Option Text :=
  (lineEnd? (skipBlanks text)).map fun rest => skipGap rest.length rest
where
  skipGap : Nat → Text → Text
    | 0, text => text
    | steps + 1, text =>
      match lineEnd? (skipBlanks text) with
      | some more => skipGap steps more
      | none => skipBlanks text

/-- A text over several lines with escapes. A backslash at the end of a line joins the lines. -/
def basicLines? : Nat → Text → Scanned Text
  | 0, _ => none
  | _, [] => none
  | steps + 1, letter :: rest =>
    match closing? '"' (letter :: rest), lineEnd? (letter :: rest) with
    | some closed, _ => some closed
    | none, some more => prepend '\n' (basicLines? steps more)
    | none, none =>
      if letter = '\\' then
        match joinLines? rest, escaped? rest with
        | some more, _ => basicLines? steps more
        | none, some (meant, more) => prepend meant (basicLines? steps more)
        | none, none => none
      else if isPlain letter then prepend letter (basicLines? steps rest)
      else none

/-- A text over several lines without escapes. -/
def literalLines? : Nat → Text → Scanned Text
  | 0, _ => none
  | _, [] => none
  | steps + 1, letter :: rest =>
    match closing? '\'' (letter :: rest), lineEnd? (letter :: rest) with
    | some closed, _ => some closed
    | none, some more => prepend '\n' (literalLines? steps more)
    | none, none => if isPlain letter then prepend letter (literalLines? steps rest) else none

/-- The text after its opening quotes; a line end there does not belong to it. -/
def afterOpening (text : Text) : Text := (lineEnd? text).getD text

/-- A quoted text of any of the four kinds. -/
def quoted? : Text → Scanned Text
  | '"' :: '"' :: '"' :: rest => basicLines? (rest.length + 1) (afterOpening rest)
  | '"' :: rest => basic? (rest.length + 1) rest
  | '\'' :: '\'' :: '\'' :: rest => literalLines? (rest.length + 1) (afterOpening rest)
  | '\'' :: rest => literal? rest
  | _ => none

/-! ## Keys -/

def isKeyLetter (letter : Char) : Bool := letter.isAlphanum || letter == '_' || letter == '-'

/-- One name of a key: bare, or quoted on one line. -/
def name? : Text → Scanned Text
  | '"' :: rest => basic? (rest.length + 1) rest
  | '\'' :: rest => literal? rest
  | text =>
    let bare := text.takeWhile isKeyLetter
    if bare.isEmpty then none else some (bare, text.drop bare.length)

/-- Names with points between them. -/
def names? : Nat → Text → Scanned (List Text)
  | 0, _ => none
  | steps + 1, text =>
    match name? (skipBlanks text) with
    | none => none
    | some (name, rest) =>
      match skipBlanks rest with
      | '.' :: more => (names? steps more).map fun (names, after) => (name :: names, after)
      | after => some ([name], after)

/-- The greatest number of names in a key, and of arrays and tables inside each other. -/
def greatestDepth : Nat := 79

/-- A key: names with points between them, and not too many. -/
def key? (text : Text) : Scanned (List Text) :=
  (names? (text.length + 1) text).filter fun scanned => scanned.1.length ≤ greatestDepth

end Toml

end WatchedTree
