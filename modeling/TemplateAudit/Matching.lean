import TemplateAudit.Catalog
import TemplateAudit.Number.Quantity

/-!
# TemplateAudit.Matching

Running the rules of a catalog over a document.

`steps` is the course of a run: one step for each rule, and one for all rules left when the
deadline has passed. What a run finds, what goes wrong, and what is told about it are read off
its steps. A rule that fails contributes nothing but its failure. A finding outside the
document is dropped; one that only reaches beyond its end is cut. Diagnostics and records of the
log show line numbers with all their digits, without the limit `Number.maxDigits` that settings
have for integers as text.
-/

namespace TemplateAudit

open TemplateAudit.Data (Value)
open TemplateAudit.Number (Quantity Seconds)

/-- Something that went wrong and did not end the run. -/
structure Diagnostic where
  kind : String
  message : String
  ruleId : Option String
  deriving DecidableEq, Repr

/-- A clock, by the number of the reading. -/
abbrev Clock := Nat → Seconds

/-- One step of a run. -/
inductive Step
  /-- The deadline has passed before these rules. -/
  | skipped (ids : List String)
  | failed (id message : String)
  | produced (id : String) (findings : List Finding)

/-- The step that a rule makes. -/
def Rule.step (d : Document) (r : Rule) : Step :=
  match (r.evaluate d).produced with
  | .ok findings => .produced r.id findings
  | .error message => .failed r.id message

/-- Whether a deadline has passed at a reading of the clock. -/
def hasPassed (deadline : Option Quantity) (now : Seconds) : Bool :=
  match deadline with
  | some limit => now.quantity.reached limit
  | none => false

/-- The steps of a run over some rules, from a reading of the clock on. -/
def stepsFrom (deadline : Option Quantity) (clock : Clock) (d : Document) (reading : Nat) :
    List Rule → List Step
  | [] => []
  | r :: rs =>
    if hasPassed deadline (clock reading) then [.skipped ((r :: rs).map Rule.id)]
    else r.step d :: stepsFrom deadline clock d (reading + 1) rs

/-! ## Line ranges -/

/-- The finding within a document of so many lines. -/
def FindingOn.within? (lineCount : Nat) (f : Finding) : Option Finding :=
  if f.first.toInt < 1 || lineCount < f.first.toInt || f.last.toInt < f.first.toInt then none
  else if lineCount < f.last.toInt then some { f with last := .number lineCount }
  else some f

/-- The lines of a finding as text. -/
def FindingOn.rangeText (f : Finding) : String := f.first.text ++ "-" ++ f.last.text

/-! ## What a run yields -/

namespace Step

/-- The findings of a step that are within the document. -/
def findings (lineCount : Nat) : Step → List Finding
  | .produced _ fs => fs.filterMap (FindingOn.within? lineCount)
  | _ => []

/-- What went wrong in a step. -/
def diagnostics (lineCount : Nat) : Step → List Diagnostic
  | .skipped ids =>
    [{ kind := "deadline", message := "Skipped after deadline: " ++ ", ".intercalate ids,
       ruleId := none }]
  | .failed id message => [{ kind := "rule_error", message, ruleId := some id }]
  | .produced id fs =>
    (fs.filter fun f => (f.within? lineCount).isNone).map fun f =>
      { kind := "invalid_range",
        message := "Lines " ++ f.rangeText ++ s!" outside 1-{lineCount}", ruleId := some id }

/-- What is told about a step. -/
def log (lineCount : Nat) : Step → List Log.Record
  | .skipped ids =>
    let list := ", ".intercalate ids
    [{ level := .warning, origin := .matcher,
       message := s!"Rule deadline reached, skipping {ids.length} rule(s): {list}" }]
  | .failed id message =>
    [{ level := .warning, origin := .matcher, message := s!"Rule {id} failed: {message}" }]
  | .produced id fs =>
    let dropped := fs.filter fun f => (f.within? lineCount).isNone
    dropped.map (fun f =>
        { level := .debug, origin := .matcher,
          message := s!"Dropping {id} finding at {f.first.toInt}-{f.last.toInt}" }) ++
      [{ level := .debug, origin := .matcher,
         message := s!"Rule {id} produced {fs.length} finding(s)" }]

/-- The rules that were evaluated in a step. -/
def evaluated : Step → List String
  | .skipped _ => []
  | .failed id _ => [id]
  | .produced id _ => [id]

end Step

/-- What a run yields. -/
structure Match where
  findings : List Finding
  diagnostics : List Diagnostic
  log : List Log.Record
  evaluated : List String

/-- What the steps of a run yield together. -/
def Match.ofSteps (lineCount : Nat) (steps : List Step) : Match :=
  { findings := steps.flatMap (Step.findings lineCount)
    diagnostics := steps.flatMap (Step.diagnostics lineCount)
    log := steps.flatMap (Step.log lineCount)
    evaluated := steps.flatMap Step.evaluated }

/-- A run of some rules over a document. The clock is read once before each rule, starting with
the reading given, as long as there is a deadline. -/
def runRules (rules : List Rule) (d : Document) (deadline : Option Quantity) (clock : Clock)
    (reading : Nat) : Match :=
  .ofSteps d.lineCount (stepsFrom deadline clock d reading rules)

/-- A run of all rules of a catalog over a document. -/
def Catalog.run (c : Catalog) (d : Document) (deadline : Option Quantity) (clock : Clock)
    (reading : Nat) : Match :=
  runRules c.rules d deadline clock reading

end TemplateAudit
