import TemplateAudit.Text.Digit
import TemplateAudit.Text.Point
import TemplateAudit.Text.Printable

/-!
# TemplateAudit.Text.Quoted

Texts and octets between quotes, as they are shown in messages.

The quote is an apostrophe, unless the text holds an apostrophe and no double quote. Inside,
the quote and the backslash are escaped with a backslash; line feed, carriage return and tab
have letters of their own; every other character that is not printable, and every surrogate, is
written with its code point to base sixteen, on two, four or eight places.
-/

namespace TemplateAudit.Text

/-- The quote a text is put between: the double one only if that saves escaping. -/
def quoteOf (hasSingle hasDouble : Bool) : Char :=
  if hasSingle && !hasDouble then '"' else '\''

/-- A code point to base sixteen after a backslash, on as few of 2, 4, 8 places as hold it. -/
def escapeCode (n : Nat) : List Char :=
  if n ≤ 0xFF then '\\' :: 'x' :: hexPadded 2 n
  else if n ≤ 0xFFFF then '\\' :: 'u' :: hexPadded 4 n
  else '\\' :: 'U' :: hexPadded 8 n

/-- One character of a quoted text. -/
def quotedChar (quote c : Char) : List Char :=
  if c == quote || c == '\\' then ['\\', c]
  else if c == '\n' then ['\\', 'n']
  else if c == '\r' then ['\\', 'r']
  else if c == '\t' then ['\\', 't']
  else if isPrintable c then [c]
  else escapeCode c.toNat

/-- Characters between quotes. -/
def quotedChars (cs : List Char) : List Char :=
  let quote := quoteOf (cs.contains '\'') (cs.contains '"')
  quote :: cs.flatMap (quotedChar quote) ++ [quote]

/-- A string between quotes. -/
def quoted (s : String) : String := String.ofList (quotedChars s.toList)

/-- One code point of a quoted text. -/
def quotedPoint (quote : Char) : Point → List Char
  | .char c => quotedChar quote c
  | p => escapeCode p.code

/-- A text between quotes. -/
def quotedText (t : Text) : String :=
  let quote := quoteOf (t.contains (.char '\'')) (t.contains (.char '"'))
  String.ofList (quote :: t.flatMap (quotedPoint quote) ++ [quote])

/-- One octet of a quoted row of octets: only the printable ASCII characters stand as they are. -/
def quotedOctet (quote : Char) (b : UInt8) : List Char :=
  let c := Char.ofNat b.toNat
  if b < 0x7F then quotedChar quote c else escapeCode b.toNat

/-- A row of octets between quotes, with the letter `b` before it. -/
def quotedOctets (bs : List UInt8) : String :=
  let quote := quoteOf (bs.contains 0x27) (bs.contains 0x22)
  String.ofList ('b' :: quote :: bs.flatMap (quotedOctet quote) ++ [quote])

end TemplateAudit.Text
