import TemplateAudit.Text.Lines

/-!
# TemplateAudit.Yaml.Mark

Positions in a text, and a reader that moves through it.

A `Mark` counts characters, lines and columns from zero. A `Cursor` is a mark together with
the characters still to be read. `Cursor.advance` reads one character: every line break
starts a new line, but the carriage return of a pair leaves that to its line feed; a
byte-order mark takes no column. At the end of the text the reader sees `Cursor.ending`, a
character that no text may hold.

A text may be supplied block by block, so it matters how far a reader has looked. `Cursor.reach`
is the furthest position that has been asked for: every reader has looked at the character it
stands before, and `Cursor.ask` looks further ahead.
-/

namespace TemplateAudit.Yaml

open TemplateAudit.Text (isBreak)

/-- A position in a text, counted from zero. -/
structure Mark where
  index : Nat
  line : Nat
  column : Nat
  deriving DecidableEq, Repr, Inhabited

/-- A reader: where it stands, and what is still to be read. -/
structure Cursor where
  rest : List Char
  /-- How many characters are still to be read. -/
  remaining : Nat
  index : Nat
  line : Nat
  column : Nat
  /-- The furthest position that has been asked for. -/
  reach : Nat
  deriving Repr, Inhabited

namespace Cursor

/-- A reader at the start of a text. -/
def start (cs : List Char) : Cursor :=
  { rest := cs, remaining := cs.length, index := 0, line := 0, column := 0, reach := 0 }

/-- The position of a reader. -/
def mark (c : Cursor) : Mark := { index := c.index, line := c.line, column := c.column }

/-- What a reader sees after the last character. -/
def ending : Char := Char.ofNat 0

/-- The character `k` places ahead. -/
def peekAt (c : Cursor) (k : Nat) : Char := (c.rest.drop k).headD ending

/-- The next character. -/
def peek (c : Cursor) : Char := c.rest.headD ending

/-- The reader after a look at the character `k` places ahead. -/
def ask (c : Cursor) (k : Nat) : Cursor := { c with reach := max c.reach (c.index + k) }

/-- Whether reading `ch` before `next` starts a new line. -/
def endsLine (ch : Char) (next : Option Char) : Bool :=
  if ch == '\r' then next != some '\n' else isBreak ch

/-- The reader after one character. -/
def advance (c : Cursor) : Cursor :=
  match c.rest with
  | [] => c
  | ch :: cs =>
    let index := c.index + 1
    let next := { c with
      rest := cs, remaining := c.remaining - 1, index, reach := max c.reach index }
    if endsLine ch cs.head? then { next with line := c.line + 1, column := 0 }
    else if ch == Text.Utf8.byteOrderMark then next
    else { next with column := c.column + 1 }

/-- The reader after `n` characters. -/
def skip (c : Cursor) : Nat → Cursor
  | 0 => c
  | n + 1 => c.advance.skip n

/-- The characters up to the first that a class does not hold. -/
def run (c : Cursor) (p : Char → Bool) : List Char := c.rest.takeWhile p

/-- The reader after the characters of a class. -/
def skipRun (c : Cursor) (p : Char → Bool) : Cursor := c.skip (c.run p).length

/-- The reader after a row of blanks. -/
def skipSpaces (c : Cursor) : Cursor := c.skipRun (· == ' ')

/-- The reader at the end of the line it stands on. -/
def skipLine (c : Cursor) : Cursor := c.skipRun (!isBreak ·)

/-- A line break as it is kept in a text, and the reader after it. The two separators stay
what they are, every other break becomes a line feed; without a break nothing is read. -/
def lineBreak (c : Cursor) : List Char × Cursor :=
  match c.rest with
  | '\r' :: '\n' :: _ => (['\n'], c.skip 2)
  | ch :: _ =>
    if ch == '\n' || ch == '\r' || ch.toNat == 0x85 then (['\n'], c.advance)
    else if isBreak ch then ([ch], c.advance)
    else ([], c)
  | [] => ([], c)

/-- As many steps as reading to the end can take. -/
def fuel (c : Cursor) : Nat := c.remaining + 1

end Cursor

/-! ## Classes of characters -/

/-- The end of the text or a line break. -/
def isLineEnd (c : Char) : Bool := c == Cursor.ending || isBreak c

/-- The end of the text, a space or a line break. -/
def isSpaceOrEnd (c : Char) : Bool := c == ' ' || isLineEnd c

/-- The end of the text, a space, a tab or a line break. -/
def isGap (c : Char) : Bool := c == '\t' || isSpaceOrEnd c

/-- A space or a tab. -/
def isSpaceOrTab (c : Char) : Bool := c == ' ' || c == '\t'

/-- The characters that a text may hold. -/
def isAcceptable (c : Char) : Bool :=
  let n := c.toNat
  n == 0x09 || n == 0x0A || n == 0x0D || (0x20 ≤ n && n ≤ 0x7E) || n == 0x85 ||
    (0xA0 ≤ n && n ≤ 0xD7FF) || (0xE000 ≤ n && n ≤ 0xFFFD) || 0x10000 ≤ n

/-- A line of three dashes or three points, with a gap after them. -/
def Cursor.atSeparator (c : Cursor) (dash : Char) : Bool :=
  match c.rest with
  | a :: b :: d :: cs => a == dash && b == dash && d == dash && isGap (cs.headD Cursor.ending)
  | _ => false

/-- A line that starts or ends a document. -/
def Cursor.atAnySeparator (c : Cursor) : Bool := c.atSeparator '-' || c.atSeparator '.'

/-- Three dashes or three points. -/
def Cursor.atTriple (c : Cursor) : Bool :=
  match c.rest with
  | a :: b :: d :: _ => (a == '-' || a == '.') && a == b && a == d
  | _ => false

/-- The reader after a look whether a line starts or ends a document: at three characters, and at
the next one only if they are the right ones. -/
def Cursor.askSeparator (c : Cursor) : Cursor := if c.atTriple then c.ask 3 else c.ask 2

end TemplateAudit.Yaml
