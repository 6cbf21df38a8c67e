import TemplateAudit.Outcome

/-!
# TemplateAudit.Report.Workflow

The report for a build: one workflow command on a line for each annotation and each diagnostic.

Whatever could end a line or a field is written as a percent sign and its code, and so is the
percent sign itself, so that no text can be taken for a command.
-/

namespace TemplateAudit.Report.Workflow

/-- The characters of a message. -/
def escapeChar : Char → List Char
  | '%' => "%25".toList
  | '\r' => "%0D".toList
  | '\n' => "%0A".toList
  | c => [c]

/-- The characters of a property, which also ends at a colon or a comma. -/
def escapePropertyChar : Char → List Char
  | ':' => "%3A".toList
  | ',' => "%2C".toList
  | c => escapeChar c

/-- One code point, its character written by a function. -/
def escapePoint (write : Char → List Char) : Text.Point → Text
  | .char c => Text.ofChars (write c)
  | p => [p]

/-- A message. -/
def escape (t : Text) : Text := t.flatMap (escapePoint escapeChar)

/-- A property. -/
def escapeProperty (t : Text) : Text := t.flatMap (escapePoint escapePropertyChar)

/-- The kind of command for a severity. -/
def level : Severity → String
  | .critical => "error"
  | .high => "error"
  | .medium => "warning"
  | .low => "notice"
  | .info => "notice"

/-- The command for an annotation. -/
def annotationCommand (path : Text) (a : Annotation LineRef Text) : Text :=
  "::" ++ level a.severity ++ " file=" ++ escapeProperty path ++ ",line=" ++ a.line.text ++
    ",title=" ++ escapeProperty a.ruleId ++ "::" ++ escape a.message

/-- The command for a diagnostic. -/
def diagnosticCommand (d : Diagnostic) : Text :=
  "::debug::" ++ escape (d.kind ++ ": " ++ d.message)

/-- The commands for an outcome. -/
def commands (path : Text) (o : Outcome LineRef Text) : List Text :=
  o.annotations.map (annotationCommand path) ++ o.diagnostics.map diagnosticCommand

/-- The report. -/
def render (path : Text) (o : Outcome LineRef Text) : Text := Text.join "\n" (commands path o)

end TemplateAudit.Report.Workflow
