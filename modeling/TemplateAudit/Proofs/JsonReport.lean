import TemplateAudit.Proofs.Json
import TemplateAudit.Proofs.Text
import TemplateAudit.Report.Json

/-!
# TemplateAudit.Proofs.JsonReport

The report for programs can be read back.

`Report.Json.contents?` takes a JSON document apart by the names of its members, with no regard to
how it was written, and gives what a report says: its path, its annotations and diagnostics, how
many findings there were, and the verdict. The main statement, `Report.Json.parse?_render`, is that
reading the text of a report gives a document whose contents are those of the outcome. So two
reports with one text are about one path and one outcome.

Texts of annotations have to be whole (`Text.IsWhole`), as all texts of characters are.
-/

namespace TemplateAudit

/-! ### Parts of a document -/

namespace Json

/-- The text that a document is. -/
def text? : Json → Option Text
  | .text t => some t
  | _ => none

/-- The integer that a document is. -/
def int? : Json → Option Int
  | .int n => some n
  | _ => none

/-- The truth value that a document is. -/
def bool? : Json → Option Bool
  | .bool b => some b
  | _ => none

/-- The items of the list that a document is. -/
def items? : Json → Option (List Json)
  | .list items => some items
  | _ => none

theorem get?_ofMembers (members : List (String × Json)) (name : String) :
    (ofMembers members).get? name = (members.reverse.find? (·.1 == name)).map Prod.snd := by
  have hnames : ((fun m : Text × Json => m.1 == Text.ofString name) ∘
      fun m : String × Json => (Text.ofString m.1, m.2)) = fun m => m.1 == name := by
    funext m
    by_cases heq : m.1 = name
    · simp [heq]
    · simp [heq, Text.ofString_injective.ne heq]
  rw [ofMembers, get?, ← List.map_reverse, List.find?_map, hnames, Option.map_map]
  rfl

theorem plain_ofString (s : String) : Plain (ofString s) := .text (isWhole_ofString s)

theorem plain_ofMembers {members : List (String × Json)} (h : ∀ m ∈ members, Plain m.2) :
    Plain (ofMembers members) := by
  refine .object ?_ ?_
  · intro m hm
    obtain ⟨source, -, rfl⟩ := List.mem_map.mp hm
    exact isWhole_ofString source.1
  · intro m hm
    obtain ⟨source, hsource, rfl⟩ := List.mem_map.mp hm
    exact h source hsource

end Json

theorem Severity.ofName?_name (severity : Severity) : ofName? severity.name = some severity := by
  cases severity <;> decide

/-- The texts of all annotations are whole. -/
def Outcome.IsWhole {ℓ : Type} (o : Outcome ℓ Text) : Prop :=
  ∀ a ∈ o.annotations,
    a.ruleId.IsWhole ∧ a.title.IsWhole ∧ a.message.IsWhole ∧ a.recommendation.IsWhole

namespace Report.Json

open TemplateAudit (Json)

/-! ### Reading -/

/-- What a report says. -/
structure Contents where
  path : String
  summary : Summary
  annotations : List <| Annotation LineRef Text
  diagnostics : List Diagnostic
  totalFindings : Int
  passed : Bool

/-- A member that is a text. -/
def textAt? (j : Json) (name : String) : Option Text := (j.get? name).bind Json.text?

/-- A member that is a text of characters. -/
def stringAt? (j : Json) (name : String) : Option String := (textAt? j name).bind Text.string?

/-- A member that is an integer. -/
def intAt? (j : Json) (name : String) : Option Int := (j.get? name).bind Json.int?

/-- A member that is a count. -/
def countAt? (j : Json) (name : String) : Option Nat := (intAt? j name).bind Int.toNat?

/-- A member that is a list of things, each read by `read`. -/
def listAt? {α : Type} (read : Json → Option α) (j : Json) (name : String) : Option (List α) := do
  let items ← (j.get? name).bind Json.items?
  items.mapM read

/-- A line number. -/
def line? : Json → Option LineRef
  | .int n => some (.number n)
  | .bool b => some (.flag b)
  | _ => none

/-- An annotation; its severity goes by its name. -/
def annotation? (j : Json) : Option <| Annotation LineRef Text := do
  let line ← (j.get? "line").bind line?
  let ruleId ← textAt? j "rule_id"
  let title ← textAt? j "title"
  let severity ← (stringAt? j "severity").bind Severity.ofName?
  let importance ← intAt? j "importance"
  let message ← textAt? j "message"
  let recommendation ← textAt? j "recommendation"
  return { line, ruleId, title, severity, importance, message, recommendation }

/-- The id of a rule, which can be absent. -/
def optionalId? : Json → Option (Option String)
  | .null => some none
  | .text t => t.string?.map some
  | _ => none

/-- A diagnostic. -/
def diagnostic? (j : Json) : Option Diagnostic := do
  let kind ← stringAt? j "kind"
  let message ← stringAt? j "message"
  let ruleId ← (j.get? "rule_id").bind optionalId?
  return { kind, message, ruleId }

/-- Numbers of annotations by severity. -/
def summary? (j : Json) : Option Summary := do
  let critical ← countAt? j "critical"
  let high ← countAt? j "high"
  let medium ← countAt? j "medium"
  let low ← countAt? j "low"
  let info ← countAt? j "info"
  return { critical, high, medium, low, info }

/-- What a document says as a report. -/
def contents? (j : Json) : Option Contents := do
  let path ← stringAt? j "path"
  let summary ← (j.get? "summary").bind summary?
  let annotations ← listAt? annotation? j "annotations"
  let diagnostics ← listAt? diagnostic? j "diagnostics"
  let totalFindings ← intAt? j "total_findings"
  let passed ← (j.get? "passed").bind Json.bool?
  return { path, summary, annotations, diagnostics, totalFindings, passed }

/-- What the report on an outcome is to say. -/
def contentsOf (path : String) (o : Outcome LineRef Text) : Contents where
  path := path
  summary := o.summary
  annotations := o.annotations
  diagnostics := o.diagnostics
  totalFindings := o.totalFindings
  passed := o.passed

/-! ### What is read from a report -/

theorem annotation?_annotationObject (a : Annotation LineRef Text) :
    annotation? (annotationObject a) = some a := by
  have hline : line? (lineNumber a.line) = some a.line := by cases a.line <;> rfl
  simp [annotation?, annotationObject, textAt?, stringAt?, intAt?, Json.get?_ofMembers, Json.text?,
    Json.int?, Json.ofString, Text.string?_ofString, Severity.ofName?_name, hline]

theorem diagnostic?_diagnosticObject (d : Diagnostic) :
    diagnostic? (diagnosticObject d) = some d := by
  obtain ⟨kind, message, ruleId⟩ := d
  cases ruleId <;>
    simp [diagnostic?, diagnosticObject, textAt?, stringAt?, Json.get?_ofMembers, Json.text?,
      Json.ofString, Text.string?_ofString, optionalId?]

theorem summary?_summaryObject (s : Summary) : summary? (summaryObject s) = some s := by
  simp [summary?, summaryObject, countAt?, intAt?, Json.get?_ofMembers, Json.int?, Int.toNat?]

theorem contents?_outcomeObject (path : String) (o : Outcome LineRef Text) :
    contents? (outcomeObject path o) = some (contentsOf path o) := by
  have hannotations : (o.annotations.map annotationObject).mapM annotation? =
      some (o.annotations.map id) := mapM_map_eq_some fun a _ => annotation?_annotationObject a
  have hdiagnostics : (o.diagnostics.map diagnosticObject).mapM diagnostic? =
      some (o.diagnostics.map id) := mapM_map_eq_some fun d _ => diagnostic?_diagnosticObject d
  rw [List.map_id] at hannotations hdiagnostics
  simp [contents?, outcomeObject, contentsOf, textAt?, stringAt?, intAt?, listAt?,
    Json.get?_ofMembers, Json.text?, Json.int?, Json.bool?, Json.items?, Json.ofString,
    Text.string?_ofString, summary?_summaryObject, hannotations, hdiagnostics]

/-! ### What is written -/

theorem plain_annotationObject {a : Annotation LineRef Text}
    (h : a.ruleId.IsWhole ∧ a.title.IsWhole ∧ a.message.IsWhole ∧ a.recommendation.IsWhole) :
    (annotationObject a).Plain := by
  obtain ⟨hruleId, htitle, hmessage, hrecommendation⟩ := h
  have hline : (lineNumber a.line).Plain := by
    cases a.line with
    | number n => exact .int n
    | flag b => exact .bool b
  refine Json.plain_ofMembers ?_
  simp only [List.forall_mem_cons, List.not_mem_nil, false_imp_iff, implies_true, and_true]
  exact ⟨hline, .text hruleId, .text htitle, Json.plain_ofString _, .int _, .text hmessage,
    .text hrecommendation⟩

theorem plain_diagnosticObject (d : Diagnostic) : (diagnosticObject d).Plain := by
  obtain ⟨kind, message, ruleId⟩ := d
  refine Json.plain_ofMembers ?_
  simp only [List.forall_mem_cons, List.not_mem_nil, false_imp_iff, implies_true, and_true]
  refine ⟨Json.plain_ofString _, Json.plain_ofString _, ?_⟩
  cases ruleId with
  | none => exact .null
  | some id => exact Json.plain_ofString id

theorem plain_summaryObject (s : Summary) : (summaryObject s).Plain := by
  refine Json.plain_ofMembers ?_
  simp only [List.forall_mem_cons, List.not_mem_nil, false_imp_iff, implies_true, and_true]
  exact ⟨.int _, .int _, .int _, .int _, .int _⟩

theorem plain_outcomeObject {o : Outcome LineRef Text} (h : o.IsWhole) (path : String) :
    (outcomeObject path o).Plain := by
  have hannotations : ∀ j ∈ o.annotations.map annotationObject, j.Plain := by
    intro j hj
    obtain ⟨a, ha, rfl⟩ := List.mem_map.mp hj
    exact plain_annotationObject (h a ha)
  have hdiagnostics : ∀ j ∈ o.diagnostics.map diagnosticObject, j.Plain := by
    intro j hj
    obtain ⟨d, -, rfl⟩ := List.mem_map.mp hj
    exact plain_diagnosticObject d
  refine Json.plain_ofMembers ?_
  simp only [List.forall_mem_cons, List.not_mem_nil, false_imp_iff, implies_true, and_true]
  exact ⟨Json.plain_ofString _, plain_summaryObject _, .list hannotations, .list hdiagnostics,
    .int _, .bool _⟩

theorem parse?_eq_outcomeObject {o : Outcome LineRef Text} (h : o.IsWhole) (path : String) :
    Json.parse? (render path o) = some (outcomeObject path o) :=
  (plain_outcomeObject h path).parse?_indented

theorem eq_of_contentsOf_eq {path path' : String} {o o' : Outcome LineRef Text}
    (h : contentsOf path o = contentsOf path' o') : path = path' ∧ o = o' := by
  obtain ⟨annotations, diagnostics, totalFindings⟩ := o
  obtain ⟨annotations', diagnostics', totalFindings'⟩ := o'
  simp only [contentsOf, Contents.mk.injEq] at h
  obtain ⟨hpath, -, hannotations, hdiagnostics, htotal, -⟩ := h
  exact ⟨hpath, by rw [hannotations, hdiagnostics, htotal]⟩

/-- The report on an outcome is a JSON document that says what the outcome holds: the path, the
annotations, the diagnostics, the number of findings, the numbers by severity, and the verdict. It
is written in ASCII, and no other path or outcome has the same report. -/
theorem parse?_render (path : String) (o : Outcome LineRef Text) (h : o.IsWhole) :
    (∃ j, Json.parse? (render path o) = some j ∧ contents? j = some (contentsOf path o)) ∧
      Json.IsAscii (render path o).toList ∧
      ∀ (path' : String) (o' : Outcome LineRef Text), o'.IsWhole →
        render path' o' = render path o → path' = path ∧ o' = o := by
  refine ⟨⟨_, parse?_eq_outcomeObject h path, contents?_outcomeObject path o⟩, ?_, ?_⟩
  · rw [render, Json.indented, String.toList_ofList]
    exact (plain_outcomeObject h path).isAscii 0
  · intro path' o' h' heq
    -- both documents are what the one text is read as
    have hobject : outcomeObject path' o' = outcomeObject path o := by
      have hread := parse?_eq_outcomeObject h' path'
      rw [heq, parse?_eq_outcomeObject h path] at hread
      exact (Option.some.inj hread).symm
    have hcontents := contents?_outcomeObject path' o'
    rw [hobject, contents?_outcomeObject path o] at hcontents
    obtain ⟨hpath, ho⟩ := eq_of_contentsOf_eq (Option.some.inj hcontents)
    exact ⟨hpath.symm, ho.symm⟩

/-- An outcome that needs every kind of escape: quotes, backslashes, controls, characters outside
ASCII and beyond the first plane, and a half that stands alone. -/
def unusual : Outcome LineRef Text where
  annotations := [
    { line := .number (-7), ruleId := "\"quoted\"", title := "a\\b\n\t\r"
      severity := .critical, importance := 0, message := "\x00\x08\x0c\x1b\x7f"
      recommendation := "é\u2028😀" },
    { line := .flag true, ruleId := [], title := [.char 'x', .surrogate 0x3D, .char 'y']
      severity := .info, importance := -12345678901234567890, message := "\x7b[]\x7d,:"
      recommendation := [.surrogate 0x600, .surrogate 0x200] }]
  diagnostics := [
    { kind := "rule_error", message := "\\u0041", ruleId := some "r" },
    { kind := "deadline", message := "", ruleId := none }]
  totalFindings := -1

theorem isWhole_unusual : unusual.IsWhole := by
  intro a ha
  simp only [unusual, List.mem_cons, List.not_mem_nil, or_false] at ha
  rcases ha with rfl | rfl
  · exact ⟨Json.isWhole_ofString _, Json.isWhole_ofString _, Json.isWhole_ofString _,
      Json.isWhole_ofString _⟩
  · exact ⟨.nil, .cons_cons (by decide) (.cons_cons (by decide) (.singleton _)),
      Json.isWhole_ofString _, .cons_cons (by decide) (.singleton _)⟩

theorem parse?_render_unusual :
    unusual.IsWhole ∧
      (∃ j, Json.parse? (render "t/ü \"1\".yaml" unusual) = some j ∧
        contents? j = some (contentsOf "t/ü \"1\".yaml" unusual)) ∧
      Json.IsAscii (render "t/ü \"1\".yaml" unusual).toList ∧
      ∀ (path' : String) (o' : Outcome LineRef Text), o'.IsWhole →
        render path' o' = render "t/ü \"1\".yaml" unusual →
          path' = "t/ü \"1\".yaml" ∧ o' = unusual :=
  ⟨isWhole_unusual, parse?_render _ _ isWhole_unusual⟩

-- The two halves of a pair are written like the character, so that texts have to be whole.
example :
    Json.textChars [.surrogate 0x3D, .surrogate 0x600] = Json.textChars (Text.ofString "😀") := by
  decide

end Report.Json

end TemplateAudit
