import TemplateAudit.Number.Literal
import TemplateAudit.Text.Quoted
import TemplateAudit.Yaml.Mark

/-!
# TemplateAudit.Yaml.Error

Why a text is no document, and how that is said.

An `Error` names a `Problem` and the place where it shows, and mostly also the `Activity`
during which it came up and where that began. `Error.message` puts them on lines: the
activity, its place unless that has the line and column of the problem, the problem, its place.
A place names the source, the line and the column, counted from one; a source that keeps its
text also shows a piece of the line with a caret below the position.

A `Halt` is a fault together with how far the text had been asked for when it came up.
-/

namespace TemplateAudit.Yaml

open TemplateAudit.Text (quoted)

/-- The part of the reading in which an error comes up. -/
inductive Stage
  | tokens
  | grammar
  | nodes
  | values
  deriving DecidableEq, Repr

/-- What was being read when an error came up. -/
inductive Activity
  | simpleKey
  | nextToken
  | directive
  | directiveUri
  | alias
  | anchor
  | tag
  | tagUri
  | blockScalar
  | quotedScalar
  | doubleQuotedScalar
  | node
  | blockNode
  | flowNode
  | blockCollection
  | blockMapping
  | flowSequence
  | flowMapping
  | firstAnchor (name : String)
  | singleDocument
  | mappingValue
  | orderedMap
  | pairs
  deriving DecidableEq, Repr

/-- The wording of an activity. -/
def Activity.message : Activity → String
  | .simpleKey => "while scanning a simple key"
  | .nextToken => "while scanning for the next token"
  | .directive => "while scanning a directive"
  | .directiveUri => "while parsing a directive"
  | .alias => "while scanning an alias"
  | .anchor => "while scanning an anchor"
  | .tag => "while scanning a tag"
  | .tagUri => "while parsing a tag"
  | .blockScalar => "while scanning a block scalar"
  | .quotedScalar => "while scanning a quoted scalar"
  | .doubleQuotedScalar => "while scanning a double-quoted scalar"
  | .node => "while parsing a node"
  | .blockNode => "while parsing a block node"
  | .flowNode => "while parsing a flow node"
  | .blockCollection => "while parsing a block collection"
  | .blockMapping => "while parsing a block mapping"
  | .flowSequence => "while parsing a flow sequence"
  | .flowMapping => "while parsing a flow mapping"
  | .firstAnchor name => s!"found duplicate anchor {quoted name}; first occurrence"
  | .singleDocument => "expected a single document in the stream"
  | .mappingValue => "while constructing a mapping"
  | .orderedMap => "while constructing an ordered map"
  | .pairs => "while constructing pairs"

/-- What is wrong. A character that was found is `Cursor.ending` at the end of the text, and a
token that was found is known by its name. -/
inductive Problem
  | missingColon
  | cannotStart (found : Char)
  | sequenceNotAllowed
  | keyNotAllowed
  | valueNotAllowed
  | expectedName (found : Char)
  | expectedDigitOrPoint (found : Char)
  | expectedDigit (found : Char)
  | expectedDigitOrSpace (found : Char)
  | expectedSpace (found : Char)
  | expectedBang (found : Char)
  | expectedUri (found : Char)
  | expectedUriEnd (found : Char)
  | expectedUriEscape (found : Char)
  | uriNotUtf8 (error : Text.Utf8.Error)
  | expectedLineEnd (found : Char)
  | zeroIndentation
  | expectedIndicators (found : Char)
  | unexpectedEnd
  | unexpectedSeparator
  | unknownEscape (found : Char)
  | expectedHex (places : Nat) (found : Char)
  | expectedDocumentStart (found : String)
  | duplicateVersion
  | incompatibleVersion
  | duplicateHandle (handle : String)
  | undefinedHandle (handle : String)
  | expectedContent (found : String)
  | expectedBlockEnd (found : String)
  | expectedCommaOrBracket (found : String)
  | expectedCommaOrBrace (found : String)
  | undefinedAlias (name : String)
  | secondAnchor
  | anotherDocument
  | unknownTag (tag : String)
  | unhashableKey
  | expectedMergeMapping (found : String)
  | expectedMergeMappings (found : String)
  | expectedScalarNode (found : String)
  | expectedSequenceNode (found : String)
  | expectedMappingNode (found : String)
  | expectedSequence (found : String)
  | expectedPair (found : String)
  | expectedOneItem (count : Nat)
  | notAscii (points : Text) (position : Nat)
  | notBase64 (dataChars : Nat)
  deriving DecidableEq, Repr

/-- A character between quotes. -/
def quotedChar (c : Char) : String := quoted (String.singleton c)

/-- Where and why octets are not UTF-8. -/
def utf8Message (e : Text.Utf8.Error) : String :=
  match e.octets with
  | [b] =>
    let code := String.ofList (Text.hexPadded 2 b.toNat)
    s!"'utf-8' codec can't decode byte 0x{code} in position {e.position}: {e.fault.message}"
  | bs =>
    let last := e.position + bs.length - 1
    s!"'utf-8' codec can't decode bytes in position {e.position}-{last}: {e.fault.message}"

/-- A row of code points that are not ASCII, and where it starts. -/
def asciiMessage (points : Text) (position : Nat) : String :=
  match points with
  | [p] =>
    let code := String.ofList (Text.escapeCode p.code)
    s!"'ascii' codec can't encode character '{code}' in position {position}: " ++
      "ordinal not in range(128)"
  | ps =>
    let last := position + ps.length - 1
    s!"'ascii' codec can't encode characters in position {position}-{last}: " ++
      "ordinal not in range(128)"

/-- Why a number of characters makes no base 64 text. -/
def base64Message (dataChars : Nat) : String :=
  if dataChars % 4 == 1 then
    s!"Invalid base64-encoded string: number of data characters ({dataChars}) cannot be 1 more " ++
      "than a multiple of 4"
  else "Incorrect padding"

/-- The wording of a problem. -/
def Problem.message : Problem → String
  | .missingColon => "could not find expected ':'"
  | .cannotStart c => s!"found character {quotedChar c} that cannot start any token"
  | .sequenceNotAllowed => "sequence entries are not allowed here"
  | .keyNotAllowed => "mapping keys are not allowed here"
  | .valueNotAllowed => "mapping values are not allowed here"
  | .expectedName c => s!"expected alphabetic or numeric character, but found {quotedChar c}"
  | .expectedDigitOrPoint c => s!"expected a digit or '.', but found {quotedChar c}"
  | .expectedDigit c => s!"expected a digit, but found {quotedChar c}"
  | .expectedDigitOrSpace c => s!"expected a digit or ' ', but found {quotedChar c}"
  | .expectedSpace c => s!"expected ' ', but found {quotedChar c}"
  | .expectedBang c => s!"expected '!', but found {quotedChar c}"
  | .expectedUri c => s!"expected URI, but found {quotedChar c}"
  | .expectedUriEnd c => s!"expected '>', but found {quotedChar c}"
  | .expectedUriEscape c =>
    s!"expected URI escape sequence of 2 hexadecimal numbers, but found {quotedChar c}"
  | .uriNotUtf8 e => utf8Message e
  | .expectedLineEnd c => s!"expected a comment or a line break, but found {quotedChar c}"
  | .zeroIndentation => "expected indentation indicator in the range 1-9, but found 0"
  | .expectedIndicators c =>
    s!"expected chomping or indentation indicators, but found {quotedChar c}"
  | .unexpectedEnd => "found unexpected end of stream"
  | .unexpectedSeparator => "found unexpected document separator"
  | .unknownEscape c => s!"found unknown escape character {quotedChar c}"
  | .expectedHex n c =>
    s!"expected escape sequence of {n} hexadecimal numbers, but found {quotedChar c}"
  | .expectedDocumentStart t => s!"expected '<document start>', but found {quoted t}"
  | .duplicateVersion => "found duplicate YAML directive"
  | .incompatibleVersion => "found incompatible YAML document (version 1.* is required)"
  | .duplicateHandle h => s!"duplicate tag handle {quoted h}"
  | .undefinedHandle h => s!"found undefined tag handle {quoted h}"
  | .expectedContent t => s!"expected the node content, but found {quoted t}"
  | .expectedBlockEnd t => s!"expected <block end>, but found {quoted t}"
  | .expectedCommaOrBracket t => s!"expected ',' or ']', but got {quoted t}"
  | .expectedCommaOrBrace t => s!"expected ',' or '\x7d', but got {quoted t}"
  | .undefinedAlias n => s!"found undefined alias {quoted n}"
  | .secondAnchor => "second occurrence"
  | .anotherDocument => "but found another document"
  | .unknownTag t => s!"could not determine a constructor for the tag {quoted t}"
  | .unhashableKey => "found unhashable key"
  | .expectedMergeMapping k => s!"expected a mapping for merging, but found {k}"
  | .expectedMergeMappings k =>
    s!"expected a mapping or list of mappings for merging, but found {k}"
  | .expectedScalarNode k => s!"expected a scalar node, but found {k}"
  | .expectedSequenceNode k => s!"expected a sequence node, but found {k}"
  | .expectedMappingNode k => s!"expected a mapping node, but found {k}"
  | .expectedSequence k => s!"expected a sequence, but found {k}"
  | .expectedPair k => s!"expected a mapping of length 1, but found {k}"
  | .expectedOneItem n => s!"expected a single mapping item, but found {n} items"
  | .notAscii ps n => s!"failed to convert base64 data into ascii: {asciiMessage ps n}"
  | .notBase64 n => s!"failed to decode base64 data: {base64Message n}"

/-- An error at a place in the text. -/
structure Error where
  stage : Stage
  activity : Option Activity
  /-- Where the activity began, if that is told. -/
  since : Option Mark
  problem : Problem
  mark : Mark
  deriving DecidableEq, Repr

/-- Why a text is no document. -/
inductive Fault
  /-- The text holds a character that no document may hold. -/
  | unacceptable (code position : Nat)
  /-- The octets of the text are not UTF-8. -/
  | undecodable
  /-- An escape names a number that is no code point. -/
  | noCodePoint (code : Nat)
  /-- A number of a version has too many digits. -/
  | tooManyDigits (count : Nat)
  | marked (error : Error)
  deriving DecidableEq, Repr

/-- The end of a reading. -/
structure Halt where
  fault : Fault
  /-- The furthest position that had been asked for. -/
  reach : Nat
  deriving DecidableEq, Repr

/-! ## Places -/

/-- Where a text comes from: its name, and the text itself if errors quote it. -/
structure Source where
  name : String
  text : Option (List Char)

/-- The text around a position: `back` is what comes before it on its line, last character
first, and `ahead` what follows. Each side is cut short after 37 characters, by five, and marked. -/
def snippet (back ahead : List Char) : String :=
  let side (cs : List Char) : List Char × Bool :=
    if 37 ≤ cs.length then (cs.take 32, true) else (cs, false)
  let (before, cutBefore) := side back
  let (after, cutAfter) := side ahead
  let head := if cutBefore then " ... " else ""
  let tail := if cutAfter then " ... " else ""
  let column := 4 + before.length + head.length
  "    " ++ head ++ String.ofList (before.reverse ++ after) ++ tail ++ "\n" ++
    String.ofList (List.replicate column ' ') ++ "^"

/-- The text around a position of a text. -/
def snippetAt (text : List Char) (index : Nat) : String :=
  snippet ((text.take index).reverse.takeWhile (!isLineEnd ·))
    ((text.drop index).takeWhile (!isLineEnd ·))

/-- A place: the source, the line and the column, and the text around it. -/
def Source.place (s : Source) (m : Mark) : String :=
  let quote := Char.ofNat 0x22
  let place := s!"  in {quote}{s.name}{quote}, line {m.line + 1}, column {m.column + 1}"
  match s.text with
  | none => place
  | some text => place ++ ":\n" ++ snippetAt text m.index

/-- The wording of an error. -/
def Error.message (e : Error) (source : Source) : String :=
  let activity := match e.activity with
    | some a => [a.message]
    | none => []
  let since := match e.since with
    | some m =>
      if m.line == e.mark.line && m.column == e.mark.column then [] else [source.place m]
    | none => []
  "\n".intercalate (activity ++ since ++ [e.problem.message, source.place e.mark])

/-- The wording of a fault. -/
def Fault.message (f : Fault) (source : Source) : String :=
  let quote := Char.ofNat 0x22
  match f with
  | .unacceptable code position =>
    let hex := String.ofList (Text.hexPadded 4 code)
    s!"unacceptable character #x{hex}: special characters are not allowed\n" ++
      s!"  in {quote}{source.name}{quote}, position {position}"
  | .undecodable => "the octets are not UTF-8"
  | .noCodePoint code =>
    if code < 0x80000000 then "chr() arg not in range(0x110000)"
    else "Python int too large to convert to C int"
  | .tooManyDigits count => Number.tooLongMessage (some count)
  | .marked e => e.message source

end TemplateAudit.Yaml
