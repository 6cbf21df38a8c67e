import TemplateAudit.Outcome
import TemplateAudit.Selection
import TemplateAudit.Settings

/-!
# TemplateAudit.Annotate

From a template to annotations: the lines are numbered, the rules run, silenced findings are
dropped, the most important of the others are chosen, and each becomes an annotation on its
first line.

Failures of rules and of loading a catalog become diagnostics. One thing is left that ends a
run: a finding that is attributed to something that cannot be an identifier.
-/

namespace TemplateAudit

open TemplateAudit.Data (Value)

/-- What a template comes as. -/
inductive Input
  | text (s : String)
  | octets (bs : List UInt8)

/-- The document that an input is. -/
def Input.document (token : Text) : Input → Document
  | .text s => .ofText s token
  | .octets bs => .ofOctets bs token

/-! ## Catalogs -/

/-- What comes out when a catalog is loaded. -/
inductive Loaded
  | catalog (c : Catalog)
  /-- Something that is no catalog. -/
  | value (v : Value)
  /-- Loading failed. -/
  | failed (failure : Failure)
  /-- Loading found that there is no catalog to be had. -/
  | refused (error : CatalogError)

/-- Where the catalog of a run comes from. -/
inductive CatalogSource
  | ready (c : Catalog)
  | loader (load : Unit → Loaded)

/-- The catalog that a source yields. -/
def CatalogSource.catalog : CatalogSource → Except CatalogError Catalog
  | .ready c => .ok c
  | .loader load =>
    match load () with
    | .catalog c => .ok c
    | .value v => .error (.notCatalog v.kind)
    | .failed failure => .error (.loader failure)
    | .refused error => .error error

/-! ## Annotations -/

variable {ℓ : Type}

/-- The severity of a finding: that of the rule that it is attributed to. -/
def Catalog.severityOf (c : Catalog) (f : FindingOn ℓ) : Severity :=
  match c.ruleFor? f.ruleId with
  | some rule => rule.importance
  | none => .info

/-- The annotation that a finding becomes. -/
def annotationOf (c : Catalog) (rank : Severity → Nat) (f : FindingOn ℓ) : Annotation ℓ Value :=
  let rule := c.ruleFor? f.ruleId
  let severity := c.severityOf f
  { line := f.first
    ruleId := f.ruleId
    title := (rule.bind Rule.title).getD f.ruleId
    severity
    importance := rank severity
    message := f.message
    recommendation := (rule.bind Rule.recommendation).getD (.ofString "") }

/-! ## Runs -/

/-- A finding that is attributed to something that cannot be an identifier. -/
structure Misattributed where
  finding : Finding

/-- What a run comes to, and what is told about it. -/
structure Annotated where
  outcome : Outcome LineRef Value
  log : List Log.Record

/-- A run without a catalog. -/
def Annotated.ofCatalogError (e : CatalogError) : Annotated :=
  { outcome :=
      { annotations := []
        diagnostics := [{ kind := "catalog_error", message := e.message, ruleId := none }]
        totalFindings := 0 }
    log :=
      [{ level := .warning, origin := .pipeline,
         message := "Rule catalog unavailable: " ++ e.message }] }

/-- The findings of a run that are not silenced. -/
def openFindings (d : Document) (m : Match) : List Finding := unsuppressed d.suppressed m.findings

/-- The outcome of a run of the rules. -/
def outcomeOf (c : Catalog) (s : Settings) (d : Document) (m : Match) : Outcome LineRef Value :=
  let findings := openFindings d m
  let chosen := select s.maxAnnotations (fun f => s.rank (c.severityOf f)) findings
  { annotations := chosen.map (annotationOf c s.rank)
    diagnostics := m.diagnostics
    totalFindings := findings.length }

/-- Annotates a document with the rules of a catalog. The first reading of the clock sets the
deadline, if there is one; the others are made by the run. -/
def annotateWith (c : Catalog) (s : Settings) (input : Input) (clock : Clock) :
    Except Misattributed Annotated :=
  let d := input.document s.token
  let deadline := s.timeout.map fun timeout => (clock 0).after timeout
  let m := c.run d deadline clock 1
  match unkeyed? (openFindings d m) with
  | some finding => .error { finding }
  | none =>
    let outcome := outcomeOf c s d m
    let told : Log.Record :=
      { level := .info, origin := .pipeline,
        message := s!"Emitting {outcome.annotations.length} of {outcome.totalFindings} " ++
          s!"finding(s) across {c.size} rule(s)" }
    .ok { outcome, log := d.log s.token ++ m.log ++ [told] }

/-- Annotates a document with the rules of a catalog that may have to be loaded, those that are
switched off left out. -/
def annotate (source : CatalogSource) (s : Settings) (input : Input) (clock : Clock) :
    Except Misattributed Annotated :=
  match source.catalog with
  | .error e => .ok (.ofCatalogError e)
  | .ok c => annotateWith (c.dropping s.disabled) s input clock

end TemplateAudit
