import TemplateAudit.Matching
import TemplateAudit.Severity

/-!
# TemplateAudit.Outcome

What comes out in the end: annotations, each on one line of the document, and diagnostics.

What an annotation says comes from rules, so it is values at first. `ℓ` is what its line is, and
`α` is `Text` once its texts are known to be texts. All verdicts on an outcome depend on the
severities of its annotations only.
-/

namespace TemplateAudit

open TemplateAudit.Data (Value)

/-- A finding as it is told. -/
structure Annotation (ℓ α : Type) where
  line : ℓ
  ruleId : α
  title : α
  severity : Severity
  importance : Int
  message : α
  recommendation : α

/-- The annotations and diagnostics of a run, and how many findings there were. -/
structure Outcome (ℓ α : Type) where
  annotations : List <| Annotation ℓ α
  diagnostics : List Diagnostic
  totalFindings : Int

/-! ## Counting -/

/-- How many annotations there are of each severity. -/
structure Summary where
  critical : Nat
  high : Nat
  medium : Nat
  low : Nat
  info : Nat
  deriving DecidableEq, Repr

namespace Summary

/-- No annotations. -/
def empty : Summary := { critical := 0, high := 0, medium := 0, low := 0, info := 0 }

/-- One more annotation of a severity. -/
def increment (s : Summary) : Severity → Summary
  | .critical => { s with critical := s.critical + 1 }
  | .high => { s with high := s.high + 1 }
  | .medium => { s with medium := s.medium + 1 }
  | .low => { s with low := s.low + 1 }
  | .info => { s with info := s.info + 1 }

/-- The number of annotations of a severity. -/
def count (s : Summary) : Severity → Nat
  | .critical => s.critical
  | .high => s.high
  | .medium => s.medium
  | .low => s.low
  | .info => s.info

/-- The severities with their numbers, gravest first. -/
def rows (s : Summary) : List (Severity × Nat) :=
  Severity.all.map fun severity => (severity, s.count severity)

/-- The number of annotations. -/
def total (s : Summary) : Nat := (Severity.all.map s.count).foldl Nat.add 0

end Summary

/-! ## Verdicts -/

namespace Outcome

variable {ℓ α : Type}

/-- The severities of the annotations. -/
def severities (o : Outcome ℓ α) : List Severity := o.annotations.map Annotation.severity

/-- The numbers of annotations by severity. -/
def summary (o : Outcome ℓ α) : Summary := o.severities.foldl Summary.increment .empty

/-- The gravest verdict on an annotation, 0 without any. -/
def exitCode (o : Outcome ℓ α) : Nat := (o.severities.map Severity.verdict).foldl max 0

/-- Whether no annotation fails or warns. -/
def passed (o : Outcome ℓ α) : Bool := o.exitCode == 0

/-- Whether something went wrong on the way. -/
def degraded (o : Outcome ℓ α) : Bool := !o.diagnostics.isEmpty

end Outcome

/-! ## Texts -/

/-- An annotation all of whose texts are texts. -/
def Annotation.texts? {ℓ : Type} (a : Annotation ℓ Value) : Option <| Annotation ℓ Text := do
  let ruleId ← textOfValue? a.ruleId
  let title ← textOfValue? a.title
  let message ← textOfValue? a.message
  let recommendation ← textOfValue? a.recommendation
  return {
    line := a.line, ruleId, title, severity := a.severity, importance := a.importance, message,
    recommendation }

/-- An outcome all of whose texts are texts. -/
def Outcome.texts? {ℓ : Type} (o : Outcome ℓ Value) : Option (Outcome ℓ Text) := do
  let annotations ← o.annotations.mapM Annotation.texts?
  return { annotations, diagnostics := o.diagnostics, totalFindings := o.totalFindings }

end TemplateAudit
