import WatchedTree.Text.Order

/-!
White space in the sense of the Unicode property of that name.
-/
namespace WatchedTree

namespace Text

/-- Tab to carriage return, the spaces, and the line and paragraph separators. -/
def isSpace (letter : Char) : Bool :=
  let code := letter.toNat
  (9 ≤ code && code ≤ 13) || code == 0x20 || code == 0x85 || code == 0xa0 || code == 0x1680 ||
    (0x2000 ≤ code && code ≤ 0x200a) || code == 0x2028 || code == 0x2029 || code == 0x202f ||
    code == 0x205f || code == 0x3000

/-- A blank text has nothing but white space. -/
def isBlank (text : Text) : Bool := text.all isSpace

end Text

end WatchedTree
