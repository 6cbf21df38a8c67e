import TemplateAudit.Data.Value
import TemplateAudit.Text.Blank
import TemplateAudit.Text.Case

/-!
# TemplateAudit.Severity

How grave a finding is. Each severity has a name and a verdict: 2 for those that fail a build,
1 for a warning, 0 for the rest.
-/

namespace TemplateAudit

open TemplateAudit.Data (Value)

/-- How grave a finding is. -/
inductive Severity
  | critical
  | high
  | medium
  | low
  | info
  deriving DecidableEq, Repr

namespace Severity

/-- All severities, gravest first. -/
def all : List Severity := [.critical, .high, .medium, .low, .info]

/-- The name of a severity. -/
def name : Severity → String
  | .critical => "CRITICAL"
  | .high => "HIGH"
  | .medium => "MEDIUM"
  | .low => "LOW"
  | .info => "INFO"

/-- What a severity means for the exit code. -/
def verdict : Severity → Nat
  | .critical => 2
  | .high => 2
  | .medium => 1
  | .low => 0
  | .info => 0

/-- The severity with a name. -/
def ofName? (s : String) : Option Severity := all.find? fun severity => severity.name == s

/-- The severity that a text names, in any case and with any blanks around it. -/
def ofText? (t : Text) : Option Severity := ofName? (Text.upper (Text.strip t.string))

/-- The severity that a value names, as it is printed. -/
def ofValue? (v : Value) : Option Severity := ofText? v.printed

/-- What is said of a value that names no severity, as it is shown. -/
def unknownMessage (shown : String) : String := "Unknown severity: " ++ shown

end Severity

end TemplateAudit
