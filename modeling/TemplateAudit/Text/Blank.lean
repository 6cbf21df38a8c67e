/-!
# TemplateAudit.Text.Blank

White space and the removal of it from both ends of a text.

* `isBlank` is the table of white space characters: the ASCII controls that separate
  fields or lines, the space, and the space and separator characters beyond ASCII. The
  zero width space, the word joiner and the byte-order mark are not white space.
* `strip` removes every blank at the start and every blank at the end.

Both work on lists of characters; `strip` on `String` is the same function through
`String.toList`.
-/

namespace TemplateAudit.Text

/-- White space: the characters that `strip` takes off the ends of a text. -/
def isBlank (c : Char) : Bool :=
  let n := c.toNat
  (0x09 ≤ n && n ≤ 0x0D) || (0x1C ≤ n && n ≤ 0x20) || n == 0x85 || n == 0xA0 || n == 0x1680 ||
    (0x2000 ≤ n && n ≤ 0x200A) || n == 0x2028 || n == 0x2029 || n == 0x202F || n == 0x205F ||
    n == 0x3000

/-- The characters without the blanks they start with. -/
def stripStart (cs : List Char) : List Char :=
  cs.dropWhile isBlank

/-- The characters without the blanks they end with. -/
def stripEnd (cs : List Char) : List Char :=
  (cs.reverse.dropWhile isBlank).reverse

/-- The characters without the blanks at either end. -/
def stripChars (cs : List Char) : List Char :=
  stripEnd (stripStart cs)

/-- The text without the blanks at either end. -/
def strip (s : String) : String :=
  String.ofList (stripChars s.toList)

end TemplateAudit.Text
