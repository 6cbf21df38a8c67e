import TemplateAudit.Yaml.Token.Scalar

/-!
# TemplateAudit.Yaml.Token.Lexer

From text to tokens.

A mapping key has no mark of its own in front of it: only the colon after it tells. So
whatever could be a key is remembered as a `SimpleKey`, one for each level of brackets, and
the tokens from the oldest such key on are *held*: when the colon comes, the token for the
key, and outside brackets possibly one for the start of a mapping, goes in before them. A
token that no remembered key stands at or before is *ready* and never changes again. A
key is given up when its line ends or 1024 characters have passed; where the layout demands a
key, that is an error.

`Lexer.step` reads the next token together with the tokens that the layout asks for before it.
`tokenize` repeats it to the end of the text or to the first fault.
-/

namespace TemplateAudit.Yaml

open TemplateAudit.Text (hexDigit? isAsciiAlnum isAsciiDigit)

/-- Something that is a key if a colon follows. -/
structure SimpleKey where
  /-- The number of tokens before it. -/
  number : Nat
  /-- Whether the layout allows nothing but a key here. -/
  required : Bool
  mark : Mark
  deriving DecidableEq, Repr

/-- The state of the lexer. -/
structure Lexer where
  cursor : Cursor
  /-- How many brackets are open. -/
  flow : Nat
  /-- The column of the innermost block collection, -1 outside of all. -/
  indent : Int
  /-- The columns of the collections around it. -/
  indents : List Int
  /-- Whether a simple key may start here. -/
  keyAllowed : Bool
  /-- The simple keys that are still possible, by level of brackets. -/
  keys : List (Nat × SimpleKey)
  /-- The tokens that nothing can be put in front of any more, last first. -/
  ready : List Token
  /-- How many tokens are ready. -/
  readyCount : Nat
  /-- The tokens that wait for a simple key to be decided. -/
  held : List Token

namespace Lexer

/-- The lexer at the start of a text. -/
def start (cs : List Char) : Lexer :=
  { cursor := .start cs, flow := 0, indent := -1, indents := [], keyAllowed := true, keys := [],
    ready := [], readyCount := 0, held := [] }

/-- The lexer with one more token. -/
def push (l : Lexer) (kind : TokenKind) (start stop : Mark) : Lexer :=
  { l with held := l.held ++ [{ kind, start, stop }] }

/-- The lexer with a token in front of the `n`-th of all tokens. -/
def insertAt (l : Lexer) (n : Nat) (kind : TokenKind) (mark : Mark) : Lexer :=
  let k := n - l.readyCount
  { l with held := l.held.take k ++ { kind, start := mark, stop := mark } :: l.held.drop k }

/-- The lexer after `n` characters that are one token. -/
def pushChars (l : Lexer) (kind : TokenKind) (n : Nat) : Lexer :=
  let c := l.cursor.skip n
  { l.push kind l.cursor.mark c.mark with cursor := c }

/-! ## Simple keys -/

/-- The error of a key that is demanded and has no colon. -/
def missingColon (key : SimpleKey) (c : Cursor) : Halt :=
  tokenError (some .simpleKey) (some key.mark) .missingColon c

/-- A key that cannot get its colon any more. -/
def isStale (c : Cursor) (key : SimpleKey) : Bool :=
  key.mark.line != c.line || key.mark.index + 1024 < c.index

/-- The lexer without the keys that are stale. -/
def dropStaleKeys (l : Lexer) : Except Halt Lexer :=
  match l.keys.find? fun k => isStale l.cursor k.2 && k.2.required with
  | some (_, key) => .error (missingColon key l.cursor)
  | none => .ok { l with keys := l.keys.filter fun k => !isStale l.cursor k.2 }

/-- The lexer without the key of this level. -/
def dropKey (l : Lexer) : Except Halt Lexer :=
  match l.keys.find? fun k => k.1 == l.flow && k.2.required with
  | some (_, key) => .error (missingColon key l.cursor)
  | none => .ok { l with keys := l.keys.filter fun k => k.1 != l.flow }

/-- The lexer with a possible key at this place, if one may stand here. -/
def saveKey (l : Lexer) : Except Halt Lexer :=
  if l.keyAllowed then do
    let required := l.flow == 0 && l.indent == Int.ofNat l.cursor.column
    let l ← l.dropKey
    let key := { number := l.readyCount + l.held.length, required, mark := l.cursor.mark }
    return { l with keys := l.keys ++ [(l.flow, key)] }
  else return l

/-- The lexer with every token ready that stands before all possible keys. -/
def release (l : Lexer) : Lexer :=
  let first := l.keys.foldl (fun n k => min n k.2.number) (l.readyCount + l.held.length)
  let k := first - l.readyCount
  { l with
    ready := (l.held.take k).reverse ++ l.ready
    readyCount := l.readyCount + (l.held.take k).length
    held := l.held.drop k }

/-! ## Indentation -/

/-- The lexer with the block collections closed that are indented more than a column. The
columns still open bound the number of steps. -/
def unwind (l : Lexer) (column : Int) : List Int → Lexer
  | [] => l
  | outer :: more =>
    if column < l.indent then
      let mark := l.cursor.mark
      ({ l.push .blockEnd mark mark with indent := outer, indents := more }).unwind column more
    else l

/-- The lexer with the block collections closed that end before this column. -/
def closeBlocks (l : Lexer) (column : Int) : Lexer :=
  if l.flow == 0 then l.unwind column l.indents else l

/-- The lexer with a new innermost column, and whether it is new. -/
def openBlock (l : Lexer) (column : Nat) : Lexer × Bool :=
  if l.indent < Int.ofNat column then
    ({ l with indent := Int.ofNat column, indents := l.indent :: l.indents }, true)
  else (l, false)

/-- The lexer with a token for a block collection that starts here, if one does. -/
def startBlock (l : Lexer) (kind : TokenKind) : Lexer :=
  let mark := l.cursor.mark
  match l.openBlock l.cursor.column with
  | (l, true) => l.push kind mark mark
  | (l, false) => l

/-! ## Blanks and comments -/

/-- The lexer at the next character that is part of a token. -/
def skipBlanks : (fuel : Nat) → Lexer → Lexer
  | 0, l => l
  | fuel + 1, l =>
    let c := l.cursor.skipSpaces
    let c := if c.peek == '#' then c.skipLine else c
    match c.lineBreak with
    | ([], _) => { l with cursor := c }
    | (_, c) =>
      skipBlanks fuel { l with cursor := c, keyAllowed := l.keyAllowed || l.flow == 0 }

/-- The lexer at the next token; a byte-order mark at the very start is skipped too. -/
def skipToToken (l : Lexer) : Lexer :=
  let c := l.cursor
  let c := if c.index == 0 && c.peek == Text.Utf8.byteOrderMark then c.advance else c
  skipBlanks c.fuel { l with cursor := c }

/-! ## Names, tags and directives -/

/-- The characters of names. -/
def isNameChar (c : Char) : Bool := isAsciiAlnum c || c == '-' || c == '_'

/-- The name of an alias or an anchor, after its first character. -/
def readAnchorName (activity : Activity) (since : Mark) (c : Cursor) :
    Except Halt (String × Cursor) :=
  let name := c.run isNameChar
  let after := c.skip name.length
  let found := after.peek
  if name.isEmpty || !(isGap found || "?:,]\x7d%@`".toList.contains found) then
    .error (tokenError (some activity) since (.expectedName found) after)
  else .ok (String.ofList name, after)

/-- The characters of tags that stand for themselves, and the percent sign of an escape. -/
def isUriChar (c : Char) : Bool :=
  isAsciiAlnum c || "-;/?:@&=+$,_.!~*'()[]%".toList.contains c

/-- A row of octets, each written as a percent sign and two digits to base sixteen. -/
def uriOctets (activity : Activity) (since : Mark) : (fuel : Nat) → Cursor →
    Except Halt (List UInt8 × Cursor)
  | 0, c => .ok ([], c)
  | fuel + 1, c =>
    if c.peek == '%' then
      let c := c.advance
      match readHex c 2 with
      | .error k =>
        .error (tokenError (some activity) since (.expectedUriEscape (c.peekAt k)) (c.ask k))
      | .ok n => do
        let (more, c) ← uriOctets activity since fuel (c.skip 2)
        return (n.toUInt8 :: more, c)
    else .ok ([], c)

/-- The characters of a tag. -/
def uriChars (activity : Activity) (since : Mark) : (fuel : Nat) → Cursor →
    Except Halt (List Char × Cursor)
  | 0, c => .ok ([], c)
  | fuel + 1, c => do
    let piece := c.run fun ch => isUriChar ch && ch != '%'
    let c := c.skip piece.length
    if c.peek == '%' then
      let at0 := c.mark
      let (octets, c) ← uriOctets activity since c.fuel c
      match Text.Utf8.decodeStrict octets with
      | .error e => throw (tokenErrorAt (some activity) since (.uriNotUtf8 e) at0 c)
      | .ok cs =>
        let (more, c) ← uriChars activity since fuel c
        return (piece ++ cs ++ more, c)
    else return (piece, c)

/-- A tag, or the text that a handle stands for, which may not be empty. -/
def readUri (activity uriActivity : Activity) (since : Mark) (c : Cursor) :
    Except Halt (String × Cursor) :=
  if isUriChar c.peek then do
    let (cs, c) ← uriChars activity since c.fuel c
    return (String.ofList cs, c)
  else .error (tokenError (some uriActivity) since (.expectedUri c.peek) c)

/-- A handle: an exclamation mark, and perhaps a name with another one after it. -/
def readHandle (activity : Activity) (since : Mark) (c : Cursor) :
    Except Halt (String × Cursor) :=
  if c.peek != '!' then
    .error (tokenError (some activity) since (.expectedBang c.peek) c)
  else if c.peekAt 1 == ' ' then .ok ("!", c.advance)
  else
    let name := c.advance.run isNameChar
    let after := c.advance.skip name.length
    if after.peek != '!' then
      .error (tokenError (some activity) since (.expectedBang after.peek) after)
    else .ok (String.ofList ('!' :: name ++ ['!']), after.advance)

/-- A tag, from its exclamation mark: its handle if it has one, the rest, and the cursor after
it. -/
def readTag (c : Cursor) : Except Halt (Option String × String × Cursor) := do
  let since := c.mark
  let next := c.peekAt 1
  let c := c.ask 1
  let (handle, suffix, c) ←
    if next == '<' then do
      let (uri, c) ← readUri .tag .tagUri since (c.skip 2)
      if c.peek != '>' then
        throw (tokenError (some .tagUri) since (.expectedUriEnd c.peek) c)
      pure (none, uri, c.advance)
    else if isGap next then pure (none, "!", c.advance)
    else do
      let word := c.advance.run fun ch => !(isSpaceOrEnd ch || ch == '!')
      let c := c.ask (1 + word.length)
      let (handle, c) ←
        if c.peekAt (1 + word.length) == '!' then readHandle .tag since c
        else pure ("!", c.advance)
      let (uri, c) ← readUri .tag .tagUri since c
      pure (some handle, uri, c)
  if !isSpaceOrEnd c.peek then
    throw (tokenError (some .tag) since (.expectedSpace c.peek) c)
  return (handle, suffix, c)

/-- A number of a version. It may not have more digits than an integer that is read. -/
def readVersionNumber (since : Mark) (c : Cursor) : Except Halt (Nat × Cursor) :=
  let ds := c.run isAsciiDigit
  if ds.isEmpty then
    .error (tokenError (some .directive) since (.expectedDigit c.peek) c)
  else if Number.maxDigits < ds.length then
    .error { fault := .tooManyDigits ds.length, reach := (c.ask ds.length).reach }
  else .ok (ds.foldl (fun n d => n * 10 + (d.toNat - '0'.toNat)) 0, c.skip ds.length)

/-- The version of a version directive. -/
def readVersion (since : Mark) (c : Cursor) : Except Halt (Directive × Cursor) := do
  let (major, c) ← readVersionNumber since c.skipSpaces
  if c.peek != '.' then
    throw (tokenError (some .directive) since (.expectedDigitOrPoint c.peek) c)
  let (minor, c) ← readVersionNumber since c.advance
  if !isSpaceOrEnd c.peek then
    throw (tokenError (some .directive) since (.expectedDigitOrSpace c.peek) c)
  return (.version major minor, c)

/-- The handle and the text of a tag directive. -/
def readTagHandle (since : Mark) (c : Cursor) : Except Halt (Directive × Cursor) := do
  let (handle, c) ← readHandle .directive since c.skipSpaces
  if c.peek != ' ' then
    throw (tokenError (some .directive) since (.expectedSpace c.peek) c)
  let (uri, c) ← readUri .directive .directiveUri since c.skipSpaces
  if !isSpaceOrEnd c.peek then
    throw (tokenError (some .directive) since (.expectedSpace c.peek) c)
  return (.tagHandle handle uri, c)

/-- A directive, from its percent sign: the directive, the place where it stops, and the cursor
on the next line. -/
def readDirective (c : Cursor) : Except Halt (Directive × Mark × Cursor) := do
  let since := c.mark
  let c := c.advance
  let name := c.run isNameChar
  let after := c.skip name.length
  if name.isEmpty || !isSpaceOrEnd after.peek then
    throw (tokenError (some .directive) since (.expectedName after.peek) after)
  let (directive, stop, c) ←
    if name == "YAML".toList then do
      let (d, c) ← readVersion since after
      pure (d, c.mark, c)
    else if name == "TAG".toList then do
      let (d, c) ← readTagHandle since after
      pure (d, c.mark, c)
    else pure (Directive.unknown (String.ofList name), after.mark, after.skipLine)
  let c ← finishLine .directive since c
  return (directive, stop, c)

/-! ## Tokens -/

/-- The lexer at the end of all blocks, where no simple key may stand. -/
def leaveBlocks (l : Lexer) : Except Halt Lexer := do
  let l ← (l.closeBlocks (-1)).dropKey
  return { l with keyAllowed := false }

/-- The token for a dash before an item. -/
def blockEntry (l : Lexer) : Except Halt Lexer := do
  let l ←
    if l.flow != 0 then pure l
    else if l.keyAllowed then pure (l.startBlock .blockSequenceStart)
    else throw (tokenError none none .sequenceNotAllowed l.cursor)
  let l ← { l with keyAllowed := true }.dropKey
  return l.pushChars .blockEntry 1

/-- The token for a question mark before a key. -/
def explicitKey (l : Lexer) : Except Halt Lexer := do
  let l ←
    if l.flow != 0 then pure l
    else if l.keyAllowed then pure (l.startBlock .blockMappingStart)
    else throw (tokenError none none .keyNotAllowed l.cursor)
  let l ← { l with keyAllowed := l.flow == 0 }.dropKey
  return l.pushChars .key 1

/-- The token for a colon before a value, and those it decides on before a simple key. -/
def valueMark (l : Lexer) : Except Halt Lexer := do
  match l.keys.find? fun k => k.1 == l.flow with
  | some (_, key) =>
    let l := { l with keys := l.keys.filter fun k => k.1 != l.flow }
    let l := l.insertAt key.number .key key.mark
    let l :=
      if l.flow == 0 then
        match l.openBlock key.mark.column with
        | (l, true) => l.insertAt key.number .blockMappingStart key.mark
        | (l, false) => l
      else l
    return { l with keyAllowed := false }.pushChars .value 1
  | none =>
    let l ←
      if l.flow != 0 then pure l
      else if l.keyAllowed then pure (l.startBlock .blockMappingStart)
      else throw (tokenError none none .valueNotAllowed l.cursor)
    let l ← { l with keyAllowed := l.flow == 0 }.dropKey
    return l.pushChars .value 1

/-- The token for an opening bracket. -/
def openFlow (l : Lexer) (kind : TokenKind) : Except Halt Lexer := do
  let l ← l.saveKey
  return { l with flow := l.flow + 1, keyAllowed := true }.pushChars kind 1

/-- The token for a closing bracket. -/
def closeFlow (l : Lexer) (kind : TokenKind) : Except Halt Lexer := do
  let l ← l.dropKey
  return { l with flow := l.flow - 1, keyAllowed := false }.pushChars kind 1

/-- The token for an alias or an anchor. -/
def nameToken (l : Lexer) (activity : Activity) (kind : String → TokenKind) :
    Except Halt Lexer := do
  let l ← l.saveKey
  let start := l.cursor.mark
  let (name, c) ← readAnchorName activity start l.cursor.advance
  return { l with keyAllowed := false, cursor := c }.push (kind name) start c.mark

/-- The token for a tag. -/
def tagToken (l : Lexer) : Except Halt Lexer := do
  let l ← l.saveKey
  let start := l.cursor.mark
  let (handle, suffix, c) ← readTag l.cursor
  return { l with keyAllowed := false, cursor := c }.push (.tag handle suffix) start c.mark

/-- The token for a quoted scalar. -/
def quotedToken (l : Lexer) (double : Bool) : Except Halt Lexer := do
  let l ← l.saveKey
  let start := l.cursor.mark
  let (text, c) ← readQuoted double l.cursor
  return { l with keyAllowed := false, cursor := c }.push (.scalar text false) start c.mark

/-- The token for a block scalar. -/
def blockToken (l : Lexer) (folded : Bool) : Except Halt Lexer := do
  let l ← { l with keyAllowed := true }.dropKey
  let start := l.cursor.mark
  let (cs, stop, c) ← readBlock folded l.indent l.cursor
  return { l with cursor := c }.push (.scalar (Text.ofChars cs) false) start stop

/-- The token for a plain scalar. -/
def plainToken (l : Lexer) : Except Halt Lexer := do
  let l ← l.saveKey
  let s := readPlain (l.flow != 0) (l.indent + 1) l.cursor
  return { l with keyAllowed := s.passedBreak, cursor := s.cursor }.push
    (.scalar (Text.ofChars s.text) true) l.cursor.mark s.stop

/-- The token for the end of the text. -/
def endToken (l : Lexer) : Except Halt Lexer := do
  let l ← l.leaveBlocks
  return { l with keys := [] }.pushChars .streamEnd 0

/-- The token for a line that starts or ends a document. -/
def separatorToken (l : Lexer) (kind : TokenKind) : Except Halt Lexer := do
  let l ← l.leaveBlocks
  return l.pushChars kind 3

/-- The token for a directive. -/
def directiveToken (l : Lexer) : Except Halt Lexer := do
  let l ← l.leaveBlocks
  let start := l.cursor.mark
  let (d, stop, c) ← readDirective l.cursor
  return { l with cursor := c }.push (.directive d) start stop

/-- Whether a character alone tells that no plain scalar starts with it, unless the one after it
says otherwise. -/
def isIndicator (c : Char) : Bool := isGap c || "-?:,[]\x7b\x7d#&*!|>'\"%@`".toList.contains c

/-- Whether a plain scalar starts here. -/
def atPlain (l : Lexer) : Bool :=
  let c := l.cursor.peek
  let next := l.cursor.peekAt 1
  !isIndicator c || (!isGap next && (c == '-' || (l.flow == 0 && (c == '?' || c == ':'))))

/-- The cursor after the look that it takes to tell which token starts there. At the start of a
line that may be a separator of documents. A character that could be part of a plain scalar
is looked past, but inside brackets a question mark or a colon is always a token. -/
def lookAhead (l : Lexer) : Cursor :=
  let c := l.cursor
  let ch := c.peek
  let c := if c.column == 0 && (ch == '-' || ch == '.') then c.askSeparator else c
  let looksPast :=
    ch == '-' || ch == '#' || ch == '\t' || ch == '@' || ch == '`' || ch == '%' ||
      (l.flow == 0 && (ch == '?' || ch == ':')) || (l.flow != 0 && (ch == '|' || ch == '>'))
  if looksPast then c.ask 1 else c

/-- The token that starts at the cursor. -/
def tokenHere (l : Lexer) : Except Halt Lexer :=
  let c := l.cursor.peek
  let lineStart := l.cursor.column == 0
  let gapAfter := isGap (l.cursor.peekAt 1)
  let inFlow := l.flow != 0
  if c == Cursor.ending then l.endToken
  else if c == '%' && lineStart then l.directiveToken
  else if lineStart && l.cursor.atSeparator '-' then l.separatorToken .documentStart
  else if lineStart && l.cursor.atSeparator '.' then l.separatorToken .documentEnd
  else if c == '[' then l.openFlow .flowSequenceStart
  else if c == '{' then l.openFlow .flowMappingStart
  else if c == ']' then l.closeFlow .flowSequenceEnd
  else if c == '}' then l.closeFlow .flowMappingEnd
  else if c == ',' then do
    let l ← { l with keyAllowed := true }.dropKey
    return l.pushChars .flowEntry 1
  else if c == '-' && gapAfter then l.blockEntry
  else if c == '?' && (inFlow || gapAfter) then l.explicitKey
  else if c == ':' && (inFlow || gapAfter) then l.valueMark
  else if c == '*' then l.nameToken .alias .alias
  else if c == '&' then l.nameToken .anchor .anchor
  else if c == '!' then l.tagToken
  else if c == '|' && !inFlow then l.blockToken false
  else if c == '>' && !inFlow then l.blockToken true
  else if c == '\'' then l.quotedToken false
  else if c == '"' then l.quotedToken true
  else if l.atPlain then l.plainToken
  else .error (tokenError (some .nextToken) none (.cannotStart c) l.cursor)

/-- The token that starts at the cursor, after the look that it takes to tell it. -/
def token (l : Lexer) : Except Halt Lexer := { l with cursor := l.lookAhead }.tokenHere

/-- The next token with what the layout asks for before it, and the tokens made ready by it. -/
def step (l : Lexer) : Except Halt Lexer := do
  let l ← l.skipToToken.dropStaleKeys
  let l ← (l.closeBlocks l.cursor.column).token
  let l ← l.dropStaleKeys
  return l.release

end Lexer

/-! ## Whole texts -/

/-- How far a text can be read before its supply fails, and how it fails: the characters before
`limit` were supplied, and asking for the one at `limit` brings the fault to light. -/
structure Shortage where
  limit : Nat
  fault : Fault

/-- The fault of the supply, once the character at a position has been asked for. -/
def Shortage.reached (shortage : Option Shortage) (reach : Nat) : Option Fault :=
  match shortage with
  | some s => if s.limit ≤ reach then some s.fault else none
  | none => none

/-- The token for the end of the text, at a place. -/
def endAt (m : Mark) : Token := { kind := .streamEnd, start := m, stop := m }

/-- The tokens from here on. -/
def Lexer.run (shortage : Option Shortage) : (fuel : Nat) → Lexer → TokenStream
  | 0, l => { tokens := l.ready.reverse, final := .ok (endAt l.cursor.mark) }
  | fuel + 1, l =>
    match l.step with
    | .error h =>
      { tokens := l.ready.reverse
        final := .error ((Shortage.reached shortage h.reach).getD h.fault) }
    | .ok next =>
      match Shortage.reached shortage next.cursor.reach, next.ready with
      | some f, _ => { tokens := l.ready.reverse, final := .error f }
      | none, ⟨.streamEnd, start, _⟩ :: earlier =>
        { tokens := earlier.reverse, final := .ok (endAt start) }
      | none, _ => next.run shortage fuel

/-- The tokens of a text whose supply may fail. -/
def tokenizeSupplied (cs : List Char) (shortage : Option Shortage) : TokenStream :=
  match shortage with
  | some { limit := 0, fault } => { tokens := [], final := .error fault }
  | _ => (Lexer.start cs).run shortage (cs.length + 2)

/-- The first character that no document may hold, and its position. -/
def findUnacceptable (position : Nat) : List Char → Option Fault
  | [] => none
  | c :: cs =>
    if isAcceptable c then findUnacceptable (position + 1) cs
    else some (.unacceptable c.toNat position)

/-- The tokens of a text, all of whose characters are looked at first. -/
def tokenize (cs : List Char) : TokenStream :=
  match findUnacceptable 0 cs with
  | some f => { tokens := [], final := .error f }
  | none => tokenizeSupplied cs none

end TemplateAudit.Yaml
