import TemplateAudit.Outcome

/-!
# TemplateAudit.Report.Text

The report for people: a table of severities, then the annotations and the diagnostics.
-/

namespace TemplateAudit.Report.Text

/-- A text filled up with blanks on the right. -/
def padRight (width : Nat) (s : String) : String :=
  s ++ String.ofList (List.replicate (width - s.length) ' ')

/-- A text filled up with blanks on the left. -/
def padLeft (width : Nat) (s : String) : String :=
  String.ofList (List.replicate (width - s.length) ' ') ++ s

/-- A line of one character. -/
def rule (width : Nat) (c : Char) : String := String.ofList (List.replicate width c)

/-- A row of the table. -/
def row (name count : String) : String := padRight 10 name ++ " | " ++ padLeft 5 count

/-- The head of the table. -/
def header : String := row "Severity" "Count"

/-- The word for the verdict. -/
def status (passed : Bool) : String := if passed then "PASS" else "FAIL"

/-- The table of severities, the verdict and the number of findings. -/
def summaryLines (o : Outcome LineRef Text) : List String :=
  let line := rule header.length '-'
  ["Annotation Summary", rule 40 '=', header, line] ++
    o.summary.rows.map (fun (severity, count) => row severity.name (toString count)) ++
    [line, "Status    : " ++ status o.passed,
      s!"Findings  : {o.totalFindings} ({o.annotations.length} shown)"]

/-- The lines of an annotation. -/
def annotationLines (path : String) (a : Annotation LineRef Text) : List Text :=
  [s!"{path}:{a.line.text}: [{a.severity.name}] " ++ a.ruleId ++ " " ++ a.message, "  " ++ a.title]

/-- The line of a diagnostic. -/
def diagnosticLine (d : Diagnostic) : String :=
  let owner := match d.ruleId with
    | some id => if id.isEmpty then "" else " " ++ id
    | none => ""
  s!"[{d.kind}]{owner} {d.message}"

/-- A part of the report with its title, unless it is empty. -/
def part (title : String) (lines : List Text) : List Text :=
  if lines.isEmpty then [] else [[], Text.ofString title, Text.ofString (rule 40 '-')] ++ lines

/-- The report. -/
def render (path : String) (o : Outcome LineRef Text) : Text :=
  Text.join "\n" <|
    (summaryLines o).map Text.ofString ++
      part "Annotations" (o.annotations.flatMap (annotationLines path)) ++
      part "Diagnostics" (o.diagnostics.map fun d => Text.ofString (diagnosticLine d))

end TemplateAudit.Report.Text
