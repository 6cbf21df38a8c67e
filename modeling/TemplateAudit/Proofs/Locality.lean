import Mathlib.Data.List.Flatten
import TemplateAudit.Proofs.Structural

/-!
# TemplateAudit.Proofs.Locality

What a rule says of a resource depends on that resource **alone** (`structural_findings_local`).

A `Walk` is how a rule goes through a template: once through the settings that all functions share,
then from one entry of `Resources` to the next. It carries the proof that the rule says just that,
in that order, and `walks` has one for each of the six rules that look at templates. Two things may
not depend on the entry at hand, and the types keep them apart: the shared settings, and whether
these hold a timeout.

As long as no node contains itself, everything that is said is found (`Template.findings_eq_ok`), so
findings are a concatenation over the entries. Whoever adds entries, leaves some out or puts them in
another order changes nothing about what is found in the others.
-/

namespace TemplateAudit

open TemplateAudit.Rules
open TemplateAudit.Yaml

namespace Template

/-! ### Entries -/

/-- Whether an entry has a name: its key is a scalar. -/
def isNamed (e : Node × Node) : Bool := e.1.text?.isSome

/-- The entries with names of a mapping that may be missing. -/
def namedEntries (node : Option Node) : List (Node × Node) :=
  (node.elim [] Node.entries).filter isNamed

/-- The resource that an entry describes. -/
def resource? (e : Node × Node) : Option Resource := (Node.field? e).map .ofField

theorem resource?_eq_none {e : Node × Node} (h : isNamed e = false) : resource? e = none := by
  obtain ⟨key, value⟩ := e
  cases key with
  | scalar => cases h
  | sequence | mapping | enclosing => rfl

theorem resources_eq (root : Node) :
    resources root = (namedEntries (root.get? "Resources")).filterMap resource? := by
  have hentries : ∀ es : List (Node × Node),
      (es.filterMap Node.field?).map Resource.ofField =
        (es.filter isNamed).filterMap resource? := by
    intro es
    rw [List.map_filterMap, List.filterMap_filter]
    refine List.filterMap_congr fun e _ => ?_
    cases hnamed : isNamed e with
    | true => rfl
    | false => exact resource?_eq_none hnamed
  cases hsection : root.get? "Resources" with
  | none => simp [resources, fieldsOf, namedEntries, hsection]
  | some node =>
      simp only [resources, fieldsOf, namedEntries, hsection, Option.elim_some, Node.fields]
      exact hentries node.entries

/-! ### Walks -/

/-- How a rule goes through a template. -/
structure Walk where
  rule : Rule
  mentions : Node → List Mention
  /-- What is said of the settings that functions share. -/
  globalMentions : Option Node → List Mention
  /-- What is said of a resource, given whether functions share a timeout. -/
  resourceMentions : Bool → Resource → List Mention
  evaluate_eq : rule.evaluate = fun d => .ofSearch (search rule.id mentions d)
  looksDown : LooksDown mentions
  mentions_eq : ∀ root, mentions root =
    globalMentions (root.get? "Globals") ++
      (resources root).flatMap (resourceMentions (FunctionTimeout.isShared root))

namespace Walk

/-- The walk of a rule that looks at nothing but resources. -/
def ofResources (rule : Rule) (each : Resource → List Mention)
    (evaluate_eq : rule.evaluate =
      fun d => .ofSearch (search rule.id (fun root => (resources root).flatMap each) d))
    (looksDown : LooksDown fun root => (resources root).flatMap each) : Walk :=
  { rule, mentions := _, globalMentions := fun _ => [], resourceMentions := fun _ => each,
    evaluate_eq, looksDown, mentions_eq := fun _ => rfl }

variable (w : Walk)

/-- The findings in the settings that functions share. -/
def ofGlobals (globals : Option Node) : List Finding :=
  (w.globalMentions globals).filterMap (Mention.finding? w.rule.id)

/-- The findings in an entry of the resources. -/
def ofEntry (shared : Bool) (e : Node × Node) : List Finding :=
  ((resource? e).elim [] (w.resourceMentions shared)).filterMap (Mention.finding? w.rule.id)

/-- The findings in a template, part by part. -/
def findings (root : Node) : List Finding :=
  w.ofGlobals (root.get? "Globals") ++
    (namedEntries (root.get? "Resources")).flatMap (w.ofEntry (FunctionTimeout.isShared root))

theorem filterMap_mentions (root : Node) :
    (w.mentions root).filterMap (Mention.finding? w.rule.id) = w.findings root := by
  have hentries : ∀ shared,
      (resources root).flatMap (w.resourceMentions shared) =
        (namedEntries (root.get? "Resources")).flatMap fun e =>
          (resource? e).elim [] (w.resourceMentions shared) := by
    intro shared
    rw [resources_eq, List.filterMap_eq_flatMap_toList, List.flatMap_assoc]
    refine List.flatMap_congr fun e _ => ?_
    cases resource? e <;> simp
  rw [w.mentions_eq, hentries, List.filterMap_append, List.filterMap_flatMap]
  rfl

/-- In a tree in which no node contains itself, the rule finds what the walk finds. -/
theorem findings_mentions {root : Node} (hclosed : root.IsClosed) (h : root.IsAcyclic) :
    Template.findings w.rule.id (w.mentions root) = .ok (w.findings root) := by
  have hfinite : ∀ m ∈ w.mentions root, m.node.isFinite = true := fun m hm =>
    Node.isFinite_of_reaches (hclosed.isFinite_iff_isAcyclic.mpr h) (w.looksDown root m hm)
  rw [findings_eq_ok w.rule.id hfinite, w.filterMap_mentions]

theorem produced_evaluate {d : Document} {root : Node} (hroot : d.template = .ok (some root))
    (h : root.IsAcyclic) : (w.rule.evaluate d).produced = .ok (w.findings root) := by
  have hsearch : search w.rule.id w.mentions d = .ok (w.findings root) := by
    rw [search, hroot]
    exact w.findings_mentions (Document.isClosed_of_template hroot) h
  rw [w.evaluate_eq]
  simp only [hsearch, Evaluation.produced_ofSearch_ok]

section

variable {root root' : Node} (hglobals : root'.get? "Globals" = root.get? "Globals")

include hglobals

theorem isShared_congr : FunctionTimeout.isShared root' = FunctionTimeout.isShared root := by
  simp only [FunctionTimeout.isShared, Node.path?, hglobals]

theorem findings_perm
    (h : (namedEntries (root'.get? "Resources")).Perm (namedEntries (root.get? "Resources"))) :
    (w.findings root').Perm (w.findings root) := by
  rw [findings, findings, isShared_congr hglobals, hglobals]
  exact (h.flatMap_right _).append_left _

theorem findings_sublist
    (h : (namedEntries (root'.get? "Resources")).Sublist (namedEntries (root.get? "Resources"))) :
    (w.findings root').Sublist (w.findings root) := by
  rw [findings, findings, isShared_congr hglobals, hglobals]
  exact (h.flatMap _).append_left _

end

end Walk

/-! ### The walks of the rules -/

/-- The walks of the rules that look at templates, in the order of the catalog. -/
def walks : List Walk :=
  [.ofResources PolicyStatement.actionRule _ rfl PolicyStatement.looksDown_actionMentions,
    { rule := EnvironmentSecret.rule
      mentions := EnvironmentSecret.mentions
      globalMentions := fun globals => EnvironmentSecret.secrets "Globals" <|
        globals.bind (·.path? ["Function", "Environment", "Variables"])
      resourceMentions := fun _ => EnvironmentSecret.ofResource
      evaluate_eq := rfl
      looksDown := EnvironmentSecret.looksDown_mentions
      mentions_eq := fun _ => rfl },
    .ofResources PolicyStatement.resourceRule _ rfl PolicyStatement.looksDown_resourceMentions,
    .ofResources Network.openRangeRule _ rfl Network.looksDown_openEntries,
    { rule := Network.missingGroupRule
      mentions := Network.groupMentions
      globalMentions := fun globals => Network.missingGroups "Globals" <|
        globals.bind (·.path? ["Function"])
      resourceMentions := fun _ => Network.groupsOfResource
      evaluate_eq := rfl
      looksDown := Network.looksDown_groupMentions
      mentions_eq := fun _ => rfl },
    { rule := FunctionTimeout.rule
      mentions := FunctionTimeout.mentions
      globalMentions := fun _ => []
      resourceMentions := FunctionTimeout.ofResource
      evaluate_eq := rfl
      looksDown := FunctionTimeout.looksDown_mentions
      mentions_eq := fun _ => rfl }]

theorem rules_walks : walks.map Walk.rule = structuralRules := rfl

/-- Only two rules say something of what functions share. -/
theorem ofGlobals_of_mem_walks {w : Walk} (hw : w ∈ walks)
    (h : w.rule.id ∉ [EnvironmentSecret.id, Network.missingGroupId]) (globals : Option Node) :
    w.ofGlobals globals = [] := by
  simp only [walks, List.mem_cons, List.not_mem_nil, or_false] at hw
  rcases hw with rfl | rfl | rfl | rfl | rfl | rfl
  · rfl
  · exact absurd List.mem_cons_self h
  · rfl
  · rfl
  · exact absurd (List.mem_cons_of_mem _ List.mem_cons_self) h
  · rfl

/-- Only one rule cares whether a timeout is shared. -/
theorem ofEntry_of_mem_walks {w : Walk} (hw : w ∈ walks)
    (h : w.rule.id ≠ FunctionTimeout.id) (shared shared' : Bool) :
    w.ofEntry shared = w.ofEntry shared' := by
  simp only [walks, List.mem_cons, List.not_mem_nil, or_false] at hw
  rcases hw with rfl | rfl | rfl | rfl | rfl | rfl
  case inr.inr.inr.inr.inr => exact absurd rfl h
  all_goals rfl

end Template

open TemplateAudit.Template

/-- Rules that look at templates are local. For each of them there is a part that depends on the
shared settings only, empty but for two of the rules, and a part that depends on the key and the
value of an entry only, and for one rule on whether a timeout is shared. In every tree in which no
node contains itself, and so in every document that is such a template, the rule finds the first
part and then the second for each entry with a name of the first `Resources`, in order. So if two
templates share their settings, entries in another order have the same findings in another order,
and leaving entries out, or adding some, leaves the findings in the others as they are. -/
theorem structural_findings_local {r : Rule} (hr : r ∈ structuralRules) :
    ∃ w ∈ walks, w.rule = r ∧
      (r.id ∉ [EnvironmentSecret.id, Network.missingGroupId] →
        ∀ globals, w.ofGlobals globals = []) ∧
      (r.id ≠ FunctionTimeout.id → ∀ shared shared', w.ofEntry shared = w.ofEntry shared') ∧
      let entries (root : Node) : List (Node × Node) := namedEntries (root.get? "Resources")
      let found (root : Node) : List Finding :=
        w.ofGlobals (root.get? "Globals") ++
          (entries root).flatMap (w.ofEntry (FunctionTimeout.isShared root))
      (∀ root : Node, root.IsClosed → root.IsAcyclic →
        Template.findings r.id (w.mentions root) = .ok (found root)) ∧
      (∀ (d : Document) (root : Node), d.template = .ok (some root) → root.IsAcyclic →
        (r.evaluate d).produced = .ok (found root)) ∧
      ∀ root root' : Node, root'.get? "Globals" = root.get? "Globals" →
        ((entries root').Perm (entries root) → (found root').Perm (found root)) ∧
        ((entries root').Sublist (entries root) → (found root').Sublist (found root)) := by
  rw [← rules_walks] at hr
  obtain ⟨w, hw, rfl⟩ := List.mem_map.mp hr
  refine ⟨w, hw, rfl, ofGlobals_of_mem_walks hw, ofEntry_of_mem_walks hw, ?_⟩
  intro entries found
  refine ⟨fun root hclosed h => w.findings_mentions hclosed h,
    fun d root hroot h => w.produced_evaluate hroot h, ?_⟩
  intro root root' hglobals
  exact ⟨w.findings_perm hglobals, w.findings_sublist hglobals⟩

/-- One function under three keys, the second of which is no name. -/
def functions : Document :=
  .ofText "Resources:
  a: &f \x7bType: AWS::Lambda::Function\x7d
  [x]: *f
  b: *f" defaultToken

theorem structural_findings_local_functions :
    FunctionTimeout.rule ∈ structuralRules ∧
      ∃ root, functions.template = .ok (some root) ∧ root.IsAcyclic ∧
        ∃ fs, (FunctionTimeout.rule.evaluate functions).produced = .ok fs ∧
          fs.map (·.first.toInt) = [2, 4] := by
  have hr : FunctionTimeout.rule ∈ structuralRules := by simp [structuralRules]
  have hfinite : functions.template.toOption.join.any Node.isFinite = true := by decide +kernel
  have hlines : (FunctionTimeout.rule.evaluate functions).produced.toOption.map
      (·.map (·.first.toInt)) = some [2, 4] := by decide +kernel
  obtain ⟨w, -, -, -, -, -, hdocument, -⟩ := structural_findings_local hr
  cases htemplate : functions.template with
  | error fault => rw [htemplate] at hfinite; cases hfinite
  | ok root? =>
      rw [htemplate] at hfinite
      cases root? with
      | none => cases hfinite
      | some root =>
          have hacyclic := Node.isAcyclic_of_isFinite hfinite
          have hfound := hdocument functions root htemplate hacyclic
          rw [hfound] at hlines
          exact ⟨hr, root, rfl, hacyclic, _, hfound, Option.some.inj hlines⟩

end TemplateAudit
