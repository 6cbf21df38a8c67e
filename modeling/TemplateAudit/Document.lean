import TemplateAudit.Failure
import TemplateAudit.Log
import TemplateAudit.Text.Blank
import TemplateAudit.Text.Lines
import TemplateAudit.Yaml.Node.Reader

/-!
# TemplateAudit.Document

A template as text: its lines, numbered from one, and the lines that are silenced.

A line that holds nothing but the suppression token, blanks around it aside, is a directive. It
silences the line after it, if there is one.
-/

namespace TemplateAudit

/-- A line and its number. -/
structure Line where
  number : Int
  text : String
  deriving DecidableEq, Repr

/-- The token of directives, unless the settings name another one. -/
def defaultToken : String := "# guardrails:ignore-next-line"

/-! ## Directives -/

/-- Whether a line is a directive. -/
def Line.isDirective (token : Text) (l : Line) : Bool := token == Text.strip l.text

/-- The numbers of the lines that directives silence, in the order of the directives. -/
def silencedLines (token : Text) (lines : List Line) : List Int :=
  ((lines.filter fun l => l.isDirective token && l.number + 1 ≤ (lines.length : Int)).map
    fun l => l.number + 1).eraseDups

/-- The directives after which there is no line. -/
def idleDirectives (token : Text) (lines : List Line) : List Line :=
  lines.filter fun l => l.isDirective token && (lines.length : Int) < l.number + 1

/-! ## Documents -/

/-- Texts as lines, numbered from `n` on. -/
def numberFrom (n : Int) : List String → List Line
  | [] => []
  | s :: ss => { number := n, text := s } :: numberFrom (n + 1) ss

/-- A document that rules can look at. -/
structure Document where
  lines : List Line
  suppressed : List Int
  text : String

namespace Document

/-- The document of a text, as it is after a byte-order mark. -/
def ofPlainText (text : String) (token : Text) : Document :=
  let lines := numberFrom 1 (Text.splitLines text)
  { lines, suppressed := silencedLines token lines, text }

/-- The document of a text. One byte-order mark at its start is not part of it. -/
def ofText (text : String) (token : Text) : Document := ofPlainText (Text.dropMark text) token

/-- The document of a text in UTF-8. -/
def ofOctets (octets : List UInt8) (token : Text) : Document :=
  ofPlainText (Text.ofOctets octets) token

/-- The number of lines. -/
def lineCount (d : Document) : Nat := d.lines.length

/-- What is told about a document when it is made. -/
def log (d : Document) (token : Text) : List Log.Record :=
  let record (message : String) : Log.Record :=
    { level := .debug, origin := .lines, message }
  (idleDirectives token d.lines).map
      (fun l => record s!"Directive on final line {l.number} has no target") ++
    [record s!"Indexed {d.lineCount} line(s), {d.suppressed.length} suppressed"]

/-! ## Lines -/

/-- A line number that a document does not have. -/
structure NoSuchLine where
  number : Int
  count : Nat
  deriving DecidableEq, Repr

/-- What is said of such a number. -/
def NoSuchLine.message (e : NoSuchLine) : String :=
  s!"Line {e.number} is outside 1..{e.count}"

/-- The line with a number. -/
def line (d : Document) (number : Int) : Except NoSuchLine Line :=
  match if 1 ≤ number then d.lines[(number - 1).toNat]? else none with
  | some l => .ok l
  | none => .error { number, count := d.lineCount }

/-- The lines from one number to another, as far as there are such. -/
def window (d : Document) (first last : Int) : List Line :=
  (d.lines.take last.toNat).drop (max first 1 - 1).toNat

/-! ## Templates -/

/-- Why a document is no template. -/
inductive TemplateFault
  | unreadable (fault : Yaml.Fault)
  | rootNotMapping
  deriving DecidableEq, Repr

/-- The word for the kind of a fault. -/
def faultKind : Yaml.Fault → String
  | .unacceptable .. => "ReaderError"
  | .undecodable => "UnicodeDecodeError"
  | .noCodePoint code => if code < 0x80000000 then "ValueError" else "OverflowError"
  | .tooManyDigits _ => "ValueError"
  | .marked e =>
    match e.stage with
    | .tokens => "ScannerError"
    | .grammar => "ParserError"
    | .nodes => "ComposerError"
    | .values => "ConstructorError"

/-- A fault of a text as a failure. -/
def TemplateFault.failure (text : String) : TemplateFault → Failure
  | .unreadable fault =>
    { kind := faultKind fault,
      text := fault.message { name := "<unicode string>", text := some text.toList } }
  | .rootNotMapping => { kind := "ValueError", text := "Template root is not a mapping" }

/-- The root of the template that a text is, which must be a mapping, or none for an empty
text. -/
def composeTemplate (text : String) : Except TemplateFault (Option Yaml.Node) :=
  match Yaml.compose text.toList with
  | .error fault => .error (.unreadable fault)
  | .ok none => .ok none
  | .ok (some root) => if root.isMapping then .ok (some root) else .error .rootNotMapping

/-- The root of the template that a document is. -/
def template (d : Document) : Except TemplateFault (Option Yaml.Node) := composeTemplate d.text

end Document

end TemplateAudit
