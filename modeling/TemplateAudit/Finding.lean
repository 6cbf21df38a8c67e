import TemplateAudit.Data.Value

/-!
# TemplateAudit.Finding

What a rule says about some lines of a document.

Rules are not trusted: they may put any value in the place of a rule identifier or a message, so
both stay values. A line must be a whole number, a `LineRef`. A truth value counts as one, as 0
or 1, and is shown as it was written. `FindingOn ℓ` leaves open what the lines are: choosing
among findings needs no more than their values as keys.
-/

namespace TemplateAudit

open TemplateAudit.Data (Value)

/-- The text that a value is. -/
def textOfValue? : Value → Option Text
  | .text t => some t
  | _ => none

/-- A line number as a rule gives it. -/
inductive LineRef
  | number (n : Int)
  | flag (b : Bool)
  deriving DecidableEq, Repr

namespace LineRef

/-- The number of a line. -/
def toInt : LineRef → Int
  | .number n => n
  | .flag b => if b then 1 else 0

/-- A line number as a value. -/
def toValue : LineRef → Value
  | .number n => .int n
  | .flag b => .bool b

/-- The line number that a value is. -/
def ofValue? : Value → Option LineRef
  | .int n => some (.number n)
  | .bool b => some (.flag b)
  | _ => none

/-- A line number as text. -/
def text : LineRef → String
  | .number n => toString n
  | .flag b => if b then "True" else "False"

end LineRef

/-- What can stand for a line in a finding. -/
class LineValue (ℓ : Type) where
  /-- The value that it is compared by. -/
  toValue : ℓ → Value

instance : LineValue LineRef := ⟨LineRef.toValue⟩

instance : LineValue Value := ⟨id⟩

/-- A finding: the rule it is attributed to, the first and the last line, and what is found. -/
structure FindingOn (ℓ : Type) where
  ruleId : Value
  first : ℓ
  last : ℓ
  message : Value

/-- A finding on numbered lines. -/
abbrev Finding := FindingOn LineRef

/-- A finding of a rule on the lines from `first` to `last`. -/
def Finding.ofLines (ruleId : String) (first last : Int) (message : Text) : Finding :=
  { ruleId := .ofString ruleId, first := .number first, last := .number last,
    message := .text message }

namespace FindingOn

variable {ℓ : Type} [LineValue ℓ]

/-- Whether two findings are of one rule on the same lines. -/
def sameKey (a b : FindingOn ℓ) : Bool :=
  a.ruleId.same b.ruleId && (LineValue.toValue a.first).same (LineValue.toValue b.first) &&
    (LineValue.toValue a.last).same (LineValue.toValue b.last)

/-- Whether the rule and the lines of a finding are such that findings can be told apart by
them. -/
def hasKey (f : FindingOn ℓ) : Bool :=
  f.ruleId.isKey && (LineValue.toValue f.first).isKey && (LineValue.toValue f.last).isKey

/-- Whether a finding starts on one of some lines. -/
def startsOn (f : FindingOn ℓ) (lines : List Int) : Bool :=
  lines.any fun n => (LineValue.toValue f.first).same (.int n)

end FindingOn

end TemplateAudit
