import TemplateAudit.Json.Printer
import TemplateAudit.Outcome

/-!
# TemplateAudit.Report.Json

The report for programs: one JSON object.
-/

namespace TemplateAudit.Report

namespace Json

open TemplateAudit (Json)

/-- A line number. -/
def lineNumber : LineRef → Json
  | .number n => .int n
  | .flag b => .bool b

/-- An annotation. -/
def annotationObject (a : Annotation LineRef Text) : Json :=
  .ofMembers [
    ("line", lineNumber a.line),
    ("rule_id", .text a.ruleId),
    ("title", .text a.title),
    ("severity", .ofString a.severity.name),
    ("importance", .int a.importance),
    ("message", .text a.message),
    ("recommendation", .text a.recommendation)]

/-- A diagnostic. -/
def diagnosticObject (d : Diagnostic) : Json :=
  .ofMembers [
    ("kind", .ofString d.kind),
    ("message", .ofString d.message),
    ("rule_id", match d.ruleId with
      | some id => .ofString id
      | none => .null)]

/-- The numbers of annotations by severity. -/
def summaryObject (s : Summary) : Json :=
  .ofMembers [
    ("critical", .int s.critical),
    ("high", .int s.high),
    ("medium", .int s.medium),
    ("low", .int s.low),
    ("info", .int s.info)]

/-- The report as an object. -/
def outcomeObject (path : String) (o : Outcome LineRef Text) : Json :=
  .ofMembers [
    ("path", .ofString path),
    ("summary", summaryObject o.summary),
    ("annotations", .list (o.annotations.map annotationObject)),
    ("diagnostics", .list (o.diagnostics.map diagnosticObject)),
    ("total_findings", .int o.totalFindings),
    ("passed", .bool o.passed)]

/-- The report. -/
def render (path : String) (o : Outcome LineRef Text) : String :=
  (outcomeObject path o).indented

end Json

end TemplateAudit.Report
