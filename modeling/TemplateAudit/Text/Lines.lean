import TemplateAudit.Text.Utf8

/-!
# TemplateAudit.Text.Lines

Lines of a text. A line ends at a carriage return with the line feed after it, at either of
the two alone, at the next-line character, and at the line and paragraph separators. These
are the breaks that also move a reading position to a new line, so a position found while
reading names a line of `splitLines`.

* `splitLines` cuts a text into lines. A break ends a line and does not open another one, so
  the empty text has no line and a text that ends with a break has no empty line after it.
* `unifyBreaks` writes every carriage return, with or without a line feed, as a line feed.
* `dropMark` takes one byte-order mark off the start.
-/

namespace TemplateAudit.Text

/-- The characters that end a line. -/
def isBreak (c : Char) : Bool :=
  c == '\n' || c == '\r' || c.toNat == 0x85 || c.toNat == 0x2028 || c.toNat == 0x2029

/-- The lines of a text, without their breaks. -/
def splitLineChars : List Char → List (List Char)
  | [] => []
  | '\r' :: '\n' :: cs => [] :: splitLineChars cs
  | c :: cs =>
    if isBreak c then [] :: splitLineChars cs
    else
      match splitLineChars cs with
      | [] => [[c]]
      | l :: ls => (c :: l) :: ls

/-- The lines of a text, without their breaks. -/
def splitLines (s : String) : List String :=
  (splitLineChars s.toList).map String.ofList

/-- A carriage return, and the line feed after it if there is one, becomes a line feed. -/
def unifyBreaks : List Char → List Char
  | [] => []
  | '\r' :: '\n' :: cs => '\n' :: unifyBreaks cs
  | c :: cs => (if c == '\r' then '\n' else c) :: unifyBreaks cs

/-- The characters after a byte-order mark at their start. -/
def dropMarkChars : List Char → List Char
  | [] => []
  | c :: cs => if c == Utf8.byteOrderMark then cs else c :: cs

/-- The text after a byte-order mark at its start. -/
def dropMark (s : String) : String := String.ofList (dropMarkChars s.toList)

/-- Octets as text: one byte-order mark at the start is dropped, and each broken piece becomes
one replacement character. -/
def ofOctets (bs : List UInt8) : String :=
  String.ofList (Utf8.decode (Utf8.dropMarkOctets bs))

end TemplateAudit.Text
