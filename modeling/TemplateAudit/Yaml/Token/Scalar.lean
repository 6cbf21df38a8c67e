import TemplateAudit.Yaml.Token

/-!
# TemplateAudit.Yaml.Token.Scalar

Scalars in their three spellings.

* A plain scalar ends at a gap before something that is no part of it: a colon with a gap
  after it, a comment, inside brackets also a comma, a question mark or a bracket, and on a
  new line too little indentation or a line that separates documents.
* A quoted scalar ends at its quote. Double quotes know escapes.
* A block scalar takes the lines that are indented far enough.

In the first two, a single line break becomes a blank and of several the first is dropped, but a
line or paragraph separator is kept. In a block scalar that is folded, this holds between
two lines that do not start with a blank.
-/

namespace TemplateAudit.Yaml

open TemplateAudit.Text (Point isBreak hexDigit? isAsciiDigit)

/-- An error while reading tokens, at a place, with the cursor where it is noticed. -/
def tokenErrorAt (activity : Option Activity) (since : Option Mark) (problem : Problem)
    (mark : Mark) (c : Cursor) : Halt :=
  { fault := .marked { stage := .tokens, activity, since, problem, mark }, reach := c.reach }

/-- An error while reading tokens, at the cursor. -/
def tokenError (activity : Option Activity) (since : Option Mark) (problem : Problem)
    (c : Cursor) : Halt :=
  tokenErrorAt activity since problem c.mark c

/-- What line breaks become when lines are joined: `first` is the first break and `more` those
after it. -/
def foldBreaks (first more : List Char) : List Char :=
  if first != ['\n'] then first ++ more
  else if more.isEmpty then [' ']
  else more

/-! ## Plain scalars -/

/-- A plain scalar as far as it has been read. -/
structure PlainScalar where
  text : List Char
  /-- Just after the last character of the text. -/
  stop : Mark
  cursor : Cursor
  /-- Whether a line break was passed after the text, so that a simple key may follow. -/
  passedBreak : Bool

/-- Whether a character ends a piece of a plain scalar; `next` is the character after it. -/
def endsPlain (inFlow : Bool) (c next : Char) : Bool :=
  isGap c || (c == ':' && (isGap next || (inFlow && ",[]\x7b\x7d".toList.contains next))) ||
    (inFlow && ",?[]\x7b\x7d".toList.contains c)

/-- The characters up to the end of a piece of a plain scalar. -/
def plainRun (inFlow : Bool) : List Char → List Char
  | [] => []
  | c :: cs => if endsPlain inFlow c (cs.headD Cursor.ending) then [] else c :: plainRun inFlow cs

/-- Blanks and line breaks after a first line break; `none` for the breaks at a line that
separates documents. -/
def plainBreaks : (fuel : Nat) → Cursor → Option (List Char) × Cursor
  | 0, c => (some [], c)
  | fuel + 1, c =>
    if c.peek == ' ' then plainBreaks fuel c.advance
    else
      match c.lineBreak with
      | ([], _) => (some [], c)
      | (b, c) =>
        let c := c.askSeparator
        if c.atAnySeparator then (none, c)
        else
          let (more, c) := plainBreaks fuel c
          (more.map (b ++ ·), c)

/-- The gap after a piece of a plain scalar: what it becomes if more text follows, the cursor
after it, and whether it holds a line break. -/
def plainGap (c : Cursor) : List Char × Cursor × Bool :=
  let blanks := c.run (· == ' ')
  let c := c.skipSpaces
  match c.lineBreak with
  | ([], _) => (blanks, c, false)
  | (b, c) =>
    let c := c.askSeparator
    if c.atAnySeparator then ([], c, true)
    else
      match plainBreaks c.fuel c with
      | (none, c) => ([], c, true)
      | (some more, c) => (foldBreaks b more, c, true)

/-- The cursor after a piece of a plain scalar. A colon there has been looked past. -/
def skipPiece (c : Cursor) (piece : List Char) : Cursor :=
  let c := c.skip piece.length
  if c.peek == ':' then c.ask 1 else c

/-- The pieces of a plain scalar from here on; `gap` is what stands for the gap before them. -/
def plainPieces (inFlow : Bool) (indent : Int) : (fuel : Nat) → (gap : List Char) →
    PlainScalar → PlainScalar
  | 0, _, s => s
  | fuel + 1, gap, s =>
    let piece := plainRun inFlow s.cursor.rest
    if s.cursor.peek == '#' then s
    else if piece.isEmpty then { s with cursor := skipPiece s.cursor piece }
    else
      let c := skipPiece s.cursor piece
      let (next, after, passed) := plainGap c
      let s : PlainScalar :=
        { text := s.text ++ gap ++ piece, stop := c.mark, cursor := after, passedBreak := passed }
      if next.isEmpty || after.peek == '#' || (!inFlow && after.column < indent) then s
      else plainPieces inFlow indent fuel next s

/-- A plain scalar; outside brackets its lines are indented by `indent` at least. -/
def readPlain (inFlow : Bool) (indent : Int) (c : Cursor) : PlainScalar :=
  plainPieces inFlow indent c.fuel []
    { text := [], stop := c.mark, cursor := c, passedBreak := false }

/-! ## Quoted scalars -/

/-- The character that a letter after a backslash stands for. -/
def escapeOf? : Char → Option Char
  | '0' => some (Char.ofNat 0x00)
  | 'a' => some (Char.ofNat 0x07)
  | 'b' => some (Char.ofNat 0x08)
  | 't' => some '\t'
  | '\t' => some '\t'
  | 'n' => some '\n'
  | 'v' => some (Char.ofNat 0x0B)
  | 'f' => some (Char.ofNat 0x0C)
  | 'r' => some '\r'
  | 'e' => some (Char.ofNat 0x1B)
  | ' ' => some ' '
  | '"' => some '"'
  | '\\' => some '\\'
  | '/' => some '/'
  | 'N' => some (Char.ofNat 0x85)
  | '_' => some (Char.ofNat 0xA0)
  | 'L' => some (Char.ofNat 0x2028)
  | 'P' => some (Char.ofNat 0x2029)
  | _ => none

/-- The number of digits after a letter that announces a code point. -/
def escapePlaces? : Char → Option Nat
  | 'x' => some 2
  | 'u' => some 4
  | 'U' => some 8
  | _ => none

/-- The number that the next digits to base sixteen write, or how far away the first character is
that is no such digit. -/
def readHex (c : Cursor) (places : Nat) : Except Nat Nat :=
  (List.range places).foldlM (fun n k =>
    match hexDigit? (c.peekAt k) with
    | some d => .ok (n * 16 + d)
    | none => .error k) 0

/-- Line breaks inside a quoted scalar, each with the blanks and tabs before it. A line that
separates documents may not start there. -/
def quotedBreaks (since : Mark) : (fuel : Nat) → Cursor → Except Halt (List Char × Cursor)
  | 0, c => .ok ([], c)
  | fuel + 1, c =>
    let c := c.askSeparator
    if c.atAnySeparator then
      .error (tokenError (some .quotedScalar) since .unexpectedSeparator c)
    else
      match (c.skipRun isSpaceOrTab).lineBreak with
      | ([], c) => .ok ([], c)
      | (b, c) => do
        let (more, c) ← quotedBreaks since fuel c
        return (b ++ more, c)

/-- An escape in double quotes, after its backslash. -/
def readEscape (since : Mark) (c : Cursor) : Except Halt (Text × Cursor) := do
  let letter := c.peek
  match escapeOf? letter, escapePlaces? letter with
  | some ch, _ => return ([.char ch], c.advance)
  | none, some places =>
    let c := c.advance
    match readHex c places with
    | .error k =>
      throw (tokenError (some .doubleQuotedScalar) since (.expectedHex places (c.peekAt k))
        (c.ask k))
    | .ok code =>
      if 0x110000 ≤ code then
        throw { fault := .noCodePoint code, reach := (c.ask (places - 1)).reach }
      return ([Point.ofCode code], c.skip places)
  | none, none =>
    if isBreak letter then
      let (breaks, c) ← quotedBreaks since c.fuel c.lineBreak.2
      return (Text.ofChars breaks, c)
    else throw (tokenError (some .doubleQuotedScalar) since (.unknownEscape letter) c)

/-- Characters of a quoted scalar up to a gap or its closing quote. -/
def quotedRun (double : Bool) (since : Mark) : (fuel : Nat) → Cursor →
    Except Halt (Text × Cursor)
  | 0, c => .ok ([], c)
  | fuel + 1, c => do
    let piece := c.run fun ch => !(isGap ch || ch == '\'' || ch == '"' || ch == '\\')
    let c := c.skip piece.length
    let ch := c.peek
    let c := if !double && ch == '\'' then c.ask 1 else c
    if !double && ch == '\'' && c.peekAt 1 == '\'' then
      let (more, c) ← quotedRun double since fuel (c.skip 2)
      return (Text.ofChars (piece ++ ['\'']) ++ more, c)
    else if (double && ch == '\'') || (!double && (ch == '"' || ch == '\\')) then
      let (more, c) ← quotedRun double since fuel c.advance
      return (Text.ofChars (piece ++ [ch]) ++ more, c)
    else if double && ch == '\\' then
      let (escaped, c) ← readEscape since c.advance
      let (more, c) ← quotedRun double since fuel c
      return (Text.ofChars piece ++ escaped ++ more, c)
    else return (Text.ofChars piece, c)

/-- A gap in a quoted scalar, and what it becomes. -/
def quotedGap (since : Mark) (c : Cursor) : Except Halt (List Char × Cursor) := do
  let blanks := c.run isSpaceOrTab
  let c := c.skip blanks.length
  if c.peek == Cursor.ending then
    throw (tokenError (some .quotedScalar) since .unexpectedEnd c)
  match c.lineBreak with
  | ([], _) => return (blanks, c)
  | (b, c) =>
    let (more, c) ← quotedBreaks since c.fuel c
    return (foldBreaks b more, c)

/-- Gaps and runs of a quoted scalar up to its closing quote. -/
def quotedTail (double : Bool) (since : Mark) : (fuel : Nat) → Cursor →
    Except Halt (Text × Cursor)
  | 0, c => .ok ([], c)
  | fuel + 1, c => do
    if c.peek == (if double then '"' else '\'') then return ([], c)
    let (gap, c) ← quotedGap since c
    let (piece, c) ← quotedRun double since c.fuel c
    let (more, c) ← quotedTail double since fuel c
    return (Text.ofChars gap ++ piece ++ more, c)

/-- A quoted scalar, from its opening quote. -/
def readQuoted (double : Bool) (c : Cursor) : Except Halt (Text × Cursor) := do
  let since := c.mark
  let (piece, c) ← quotedRun double since c.fuel c.advance
  let (more, c) ← quotedTail double since c.fuel c
  return (piece ++ more, c.advance)

/-! ## Block scalars -/

/-- What happens to the line breaks at the end of a block scalar. -/
inductive Chomping
  /-- One of them is kept. -/
  | clip
  /-- All of them are kept. -/
  | keep
  /-- None of them is kept. -/
  | strip
  deriving DecidableEq, Repr

/-- A sign for the end of a block scalar. -/
def chomping? : Char → Option Chomping
  | '+' => some .keep
  | '-' => some .strip
  | _ => none

/-- The number that gives the indentation of a block scalar. -/
def readIndentation (since : Mark) (c : Cursor) : Except Halt (Option Nat × Cursor) :=
  let ch := c.peek
  if ch == '0' then .error (tokenError (some .blockScalar) since .zeroIndentation c)
  else if isAsciiDigit ch then .ok (some (ch.toNat - '0'.toNat), c.advance)
  else .ok (none, c)

/-- The sign and the number after the first character of a block scalar, in either order. -/
def readIndicators (since : Mark) (c : Cursor) :
    Except Halt (Chomping × Option Nat × Cursor) := do
  let (chomping, indentation, c) ← match chomping? c.peek with
    | some chomping => do
      let (indentation, c) ← readIndentation since c.advance
      pure (chomping, indentation, c)
    | none => do
      let (indentation, c) ← readIndentation since c
      match indentation, chomping? c.peek with
      | some _, some chomping => pure (chomping, indentation, c.advance)
      | _, _ => pure (Chomping.clip, indentation, c)
  if !isSpaceOrEnd c.peek then
    throw (tokenError (some .blockScalar) since (.expectedIndicators c.peek) c)
  return (chomping, indentation, c)

/-- Blanks, a comment and the line break after what has been read on a line. -/
def finishLine (activity : Activity) (since : Mark) (c : Cursor) : Except Halt Cursor :=
  let c := c.skipSpaces
  let c := if c.peek == '#' then c.skipLine else c
  if isLineEnd c.peek then .ok c.lineBreak.2
  else .error (tokenError (some activity) since (.expectedLineEnd c.peek) c)

/-- Empty lines before a block scalar whose indentation is not given: their breaks, the widest
indentation met, the place after the last break, and the cursor. -/
def leadingLines : (fuel : Nat) → (widest : Nat) → (stop : Mark) → Cursor →
    List Char × Nat × Mark × Cursor
  | 0, widest, stop, c => ([], widest, stop, c)
  | fuel + 1, widest, stop, c =>
    if c.peek == ' ' then
      let c := c.advance
      leadingLines fuel (max widest c.column) stop c
    else
      match c.lineBreak with
      | ([], _) => ([], widest, stop, c)
      | (b, c) =>
        let (more, widest, stop, c) := leadingLines fuel widest c.mark c
        (b ++ more, widest, stop, c)

/-- The cursor after at most as many blanks as an indentation has. -/
def skipIndent (indent : Nat) (c : Cursor) : Cursor :=
  c.skip (min (c.run (· == ' ')).length (indent - c.column))

/-- Line breaks in a block scalar, each with the indentation after it; also the place after
the last break. -/
def blockBreaks (indent : Nat) : (fuel : Nat) → (stop : Mark) → Cursor →
    List Char × Mark × Cursor
  | 0, stop, c => ([], stop, c)
  | fuel + 1, stop, c =>
    match c.lineBreak with
    | ([], _) => ([], stop, c)
    | (b, c) =>
      let (more, stop, c) := blockBreaks indent fuel c.mark (skipIndent indent c)
      (b ++ more, stop, c)

/-- A block scalar as far as it has been read: its lines, the break after the last of them and
the breaks of the empty lines after that. -/
structure BlockScalar where
  text : List Char
  lastBreak : List Char
  emptyLines : List Char
  stop : Mark
  cursor : Cursor

/-- Whether a line of a block scalar starts here. -/
def atBlockLine (indent : Nat) (c : Cursor) : Bool :=
  c.column == indent && c.peek != Cursor.ending

/-- What stands between two lines of a block scalar. -/
def joinLines (folded leadingText : Bool) (lineBreak emptyLines : List Char) (next : Char) :
    List Char :=
  if folded && lineBreak == ['\n'] && leadingText && !isSpaceOrTab next then
    (if emptyLines.isEmpty then [' '] else [])
  else lineBreak

/-- The lines of a block scalar from here on. -/
def blockLines (folded : Bool) (indent : Nat) : (fuel : Nat) → BlockScalar → BlockScalar
  | 0, s => s
  | fuel + 1, s =>
    if atBlockLine indent s.cursor then
      let leadingText := !isSpaceOrTab s.cursor.peek
      let line := s.cursor.run (!isLineEnd ·)
      let (lineBreak, c) := (s.cursor.skip line.length).lineBreak
      let (emptyLines, stop, c) :=
        blockBreaks indent c.fuel c.mark (skipIndent indent c)
      let text := s.text ++ s.emptyLines ++ line
      if atBlockLine indent c then
        let joint := joinLines folded leadingText lineBreak emptyLines c.peek
        blockLines folded indent fuel
          { text := text ++ joint, lastBreak := lineBreak, emptyLines, stop, cursor := c }
      else { text, lastBreak := lineBreak, emptyLines, stop, cursor := c }
    else s

/-- The text of a block scalar with the line breaks at its end that are kept. -/
def BlockScalar.chomped (s : BlockScalar) : Chomping → List Char
  | .clip => s.text ++ s.lastBreak
  | .keep => s.text ++ s.lastBreak ++ s.emptyLines
  | .strip => s.text

/-- A block scalar, from its first character; `parent` is the indentation around it. Also the
place where it stops. -/
def readBlock (folded : Bool) (parent : Int) (c : Cursor) :
    Except Halt (List Char × Mark × Cursor) := do
  let since := c.mark
  let (chomping, indentation, c) ← readIndicators since c.advance
  let c ← finishLine .blockScalar since c
  let least := (max (parent + 1) 1).toNat
  let fuel := c.fuel
  let (emptyLines, indent, stop, c) := match indentation with
    | none =>
      let (emptyLines, widest, stop, c) := leadingLines fuel 0 c.mark c
      (emptyLines, max least widest, stop, c)
    | some n =>
      let indent := least + n - 1
      let (emptyLines, stop, c) := blockBreaks indent fuel c.mark (skipIndent indent c)
      (emptyLines, indent, stop, c)
  let s := blockLines folded indent fuel
    { text := [], lastBreak := [], emptyLines, stop, cursor := c }
  return (s.chomped chomping, s.stop, s.cursor)

end TemplateAudit.Yaml
