import TemplateAudit.Proofs.AccessKey
import TemplateAudit.Proofs.Compose
import TemplateAudit.Proofs.Extent

/-!
# TemplateAudit.Proofs.Structural

The built-in rules fail together or not at all (`builtin_run_contained`).

All rules but the one about access keys look at the template that a document is. Each of them is a
search for mentions of nodes, and a search can go wrong in two ways only: there is no template, or a
node that is mentioned has no last line. So if there is no template all of them fail, with the same
words, before they find anything.

If there is one, rules look things up in it, step by step, and whatever comes up is met on a walk
down from the root (`Rule.IsStructural`). So nothing that is mentioned contains itself unless
some node of the template does.
-/

namespace TemplateAudit

open TemplateAudit.Yaml
open TemplateAudit.Template (Mention Resource resources)

namespace Yaml.Node

/-! ### Looking things up -/

variable {n m : Node} {name : String}

theorem holds_of_mem_entries {entry : Node × Node} (h : entry ∈ n.entries) : n.Holds entry.2 :=
  List.mem_append_right _ (mem_flatMap_pair.mpr ⟨entry, h, .inr rfl⟩)

theorem holds_of_mem_fields {f : Field} (h : f ∈ n.fields) : n.Holds f.value := by
  obtain ⟨entry, hentry, hfield⟩ := List.mem_filterMap.mp h
  rw [field?] at hfield
  split at hfield
  case h_1 =>
      cases hfield
      exact holds_of_mem_entries hentry
  case h_2 => cases hfield

theorem reaches_of_get? (h : n.get? name = some m) : n.Reaches m := by
  obtain ⟨f, hf, rfl⟩ := Option.map_eq_some_iff.mp h
  exact .single (holds_of_mem_fields (List.mem_of_find?_eq_some hf))

theorem reaches_of_path? {names : List String} (h : n.path? names = some m) : n.Reaches m := by
  induction names generalizing n with
  | nil => cases h; exact .refl
  | cons name names ih =>
      obtain ⟨value, hvalue, hrest⟩ := Option.bind_eq_some_iff.mp h
      exact (reaches_of_get? hvalue).trans (ih hrest)

theorem reaches_of_mem_parts (h : m ∈ n.parts) : n.Reaches m := by
  cases n with
  | sequence => exact .single (List.mem_append_left _ h)
  | scalar | mapping | enclosing =>
      rw [List.mem_singleton.mp h]
      exact .refl

end Yaml.Node

theorem mem_partsOf {node : Option Node} {m : Node} (h : m ∈ partsOf node) :
    ∃ n, node = some n ∧ n.Reaches m := by
  cases node with
  | none => cases h
  | some n => exact ⟨n, rfl, Node.reaches_of_mem_parts h⟩

theorem mem_fieldsOf {node : Option Node} {f : Field} (h : f ∈ fieldsOf node) :
    ∃ n, node = some n ∧ n.Reaches f.value := by
  cases node with
  | none => cases h
  | some n => exact ⟨n, rfl, .single (Node.holds_of_mem_fields h)⟩

theorem Template.reaches_body {root : Node} {r : Resource} (h : r ∈ resources root) :
    root.Reaches r.body := by
  obtain ⟨f, hf, rfl⟩ := List.mem_map.mp h
  obtain ⟨section', hsection, hvalue⟩ := mem_fieldsOf hf
  exact (Node.reaches_of_get? hsection).trans hvalue

theorem Template.Resource.reaches_property {r : Resource} {name : String} {n : Node}
    (h : r.properties?.bind (·.get? name) = some n) : r.body.Reaches n := by
  obtain ⟨properties, hproperties, hget⟩ := Option.bind_eq_some_iff.mp h
  exact (Node.reaches_of_get? hproperties).trans (Node.reaches_of_get? hget)

/-! ### Searches -/

namespace Template

/-- What is said of finite nodes is found, in the order in which it is said. -/
theorem findings_eq_ok {mentions : List Mention} (ruleId : String)
    (h : ∀ m ∈ mentions, m.node.isFinite = true) :
    findings ruleId mentions = .ok (mentions.filterMap (Mention.finding? ruleId)) := by
  have hsome : mentions.mapM (Mention.finding? ruleId) =
      some (mentions.filterMap (Mention.finding? ruleId)) := by
    induction mentions with
    | nil => rfl
    | cons m mentions ih =>
        obtain ⟨hm, hmentions⟩ := List.forall_mem_cons.mp h
        obtain ⟨last, hlast, -⟩ := Node.exists_lastLine hm
        have hfinding : ∃ f, m.finding? ruleId = some f := by
          rw [Mention.finding?, Node.spanFrom?, hlast]
          exact ⟨_, rfl⟩
        obtain ⟨f, hf⟩ := hfinding
        rw [List.mapM_cons, ih hmentions, List.filterMap_cons, hf]
        rfl
  rw [findings, hsome]

/-- All that is said of a template is said of nodes met on a walk down from its root. -/
def LooksDown (mentions : Node → List Mention) : Prop :=
  ∀ root, ∀ m ∈ mentions root, root.Reaches m.node

theorem LooksDown.resources {ofResource : Node → Resource → List Mention}
    (h : ∀ root r, ∀ m ∈ ofResource root r, r.body.Reaches m.node) :
    LooksDown fun root => (resources root).flatMap (ofResource root) := by
  intro root m hm
  obtain ⟨r, hr, hm⟩ := List.mem_flatMap.mp hm
  exact (reaches_body hr).trans (h root r m hm)

theorem LooksDown.append {mentions more : Node → List Mention} (h : LooksDown mentions)
    (hmore : LooksDown more) : LooksDown fun root => mentions root ++ more root := by
  intro root m hm
  rcases List.mem_append.mp hm with hm | hm
  · exact h root m hm
  · exact hmore root m hm

end Template

/-! ### The rules -/

namespace Rules.PolicyStatement

open TemplateAudit.Template (LooksDown)

theorem reaches_of_mem_statementsOf {policy : Option Node} {statement : Node}
    (h : statement ∈ statementsOf policy) : ∃ n, policy = some n ∧ n.Reaches statement := by
  obtain ⟨list, hlist, hparts⟩ := mem_partsOf (List.mem_filter.mp h).1
  obtain ⟨n, hn, hget⟩ := Option.bind_eq_some_iff.mp hlist
  exact ⟨n, hn, (Node.reaches_of_get? hget).trans hparts⟩

theorem reaches_of_mem_ofResource {r : Resource} {statement : Node}
    (h : statement ∈ ofResource r) : r.body.Reaches statement := by
  rw [ofResource] at h
  split at h
  · -- the policies of a function are documents
    obtain ⟨policy, hpolicy, hstatement⟩ := List.mem_flatMap.mp h
    obtain ⟨list, hlist, hparts⟩ := mem_partsOf hpolicy
    obtain ⟨_, ⟨⟩, hreaches⟩ := reaches_of_mem_statementsOf hstatement
    exact ((Resource.reaches_property hlist).trans hparts).trans hreaches
  · split at h
    · -- those of a role hold one
      obtain ⟨policy, hpolicy, hstatement⟩ := List.mem_flatMap.mp h
      obtain ⟨list, hlist, hparts⟩ := mem_partsOf hpolicy
      obtain ⟨document, hdocument, hreaches⟩ := reaches_of_mem_statementsOf hstatement
      exact (((Resource.reaches_property hlist).trans hparts).trans
        (Node.reaches_of_get? hdocument)).trans hreaches
    · split at h
      · obtain ⟨document, hdocument, hreaches⟩ := reaches_of_mem_statementsOf h
        exact (Resource.reaches_property hdocument).trans hreaches
      · cases h

/-- Both rules speak of statements. -/
theorem looksDown_statements {mention? : Text → Node → Option Mention}
    (h : ∀ owner statement m, mention? owner statement = some m → m.node = statement) :
    LooksDown fun root =>
      (resources root).flatMap fun r => (ofResource r).filterMap (mention? r.name) := by
  refine .resources fun _ r m hm => ?_
  obtain ⟨statement, hstatement, hmention⟩ := List.mem_filterMap.mp hm
  rw [h _ _ _ hmention]
  exact reaches_of_mem_ofResource hstatement

theorem looksDown_actionMentions :
    LooksDown fun root => (resources root).flatMap actionMentions := by
  refine looksDown_statements fun owner statement m h => ?_
  rw [wildcardAction?] at h
  split at h
  · cases h; rfl
  · cases h

theorem looksDown_resourceMentions :
    LooksDown fun root => (resources root).flatMap resourceMentions := by
  refine looksDown_statements fun owner statement m h => ?_
  rw [wildcardResource?] at h
  split at h
  · cases h; rfl
  · cases h

end Rules.PolicyStatement

namespace Rules.EnvironmentSecret

open TemplateAudit.Template (LooksDown)

theorem reaches_of_mem_secrets {owner : Text} {environment : Option Node} {m : Mention}
    (h : m ∈ secrets owner environment) : ∃ n, environment = some n ∧ n.Reaches m.node := by
  obtain ⟨f, hf, hsecret⟩ := List.mem_filterMap.mp h
  obtain ⟨text, _, hsecret⟩ := Option.bind_eq_some_iff.mp hsecret
  obtain ⟨kind, _, ⟨⟩⟩ := Option.bind_eq_some_iff.mp hsecret
  exact mem_fieldsOf hf

theorem looksDown_mentions : LooksDown mentions := by
  refine .append ?_ (.resources fun _ r m hm => ?_)
  · intro root m hm
    obtain ⟨n, hn, hreaches⟩ := reaches_of_mem_secrets hm
    exact (Node.reaches_of_path? hn).trans hreaches
  · rw [ofResource] at hm
    split at hm
    · obtain ⟨n, hn, hreaches⟩ := reaches_of_mem_secrets hm
      exact (Node.reaches_of_path? hn).trans hreaches
    · cases hm

end Rules.EnvironmentSecret

namespace Rules.Network

open TemplateAudit.Template (LooksDown)

theorem node_openMention? {owner : Text} {direction : String} {entry : Node} {m : Mention}
    (h : openMention? owner direction entry = some m) : m.node = entry := by
  rw [openMention?] at h
  split at h
  · obtain ⟨range, _, ⟨⟩⟩ := Option.bind_eq_some_iff.mp h
    rfl
  · cases h

/-- What is said of a resource is said of one of its entries. -/
theorem exists_openMention? {r : Resource} {m : Mention} (h : m ∈ openEntries r) :
    ∃ direction ∈ ["egress", "ingress"], ∃ entry, openMention? r.name direction entry = some m := by
  rw [openEntries] at h
  split at h
  · obtain ⟨⟨field, direction⟩, hfield, hm⟩ := List.mem_flatMap.mp h
    obtain ⟨entry, -, hmention⟩ := List.mem_filterMap.mp hm
    exact ⟨direction, List.mem_map_of_mem (f := Prod.snd) hfield, entry, hmention⟩
  · split at h
    case h_1 direction hlookup =>
        obtain ⟨entry, -, hmention⟩ := Option.bind_eq_some_iff.mp (Option.mem_toList.mp h)
        obtain ⟨_, _, htypes, -⟩ := List.lookup_eq_some_iff.mp hlookup
        have htype : (r.type, direction) ∈ entryTypes :=
          htypes ▸ List.mem_append_right _ List.mem_cons_self
        exact ⟨direction, List.mem_map_of_mem (f := Prod.snd) htype, entry, hmention⟩
    case h_2 => cases h

theorem looksDown_openEntries : LooksDown fun root => (resources root).flatMap openEntries := by
  refine .resources fun _ r m hm => ?_
  rw [openEntries] at hm
  split at hm
  · obtain ⟨⟨field, direction⟩, _, hm⟩ := List.mem_flatMap.mp hm
    obtain ⟨entry, hentry, hmention⟩ := List.mem_filterMap.mp hm
    obtain ⟨list, hlist, hparts⟩ := mem_partsOf hentry
    rw [node_openMention? hmention]
    exact (Resource.reaches_property hlist).trans hparts
  · split at hm
    · -- an entry by itself
      obtain ⟨properties, hproperties, hmention⟩ :=
        Option.bind_eq_some_iff.mp (Option.mem_toList.mp hm)
      rw [node_openMention? hmention]
      exact Node.reaches_of_get? hproperties
    · cases hm

theorem reaches_of_mem_missingGroups {owner : Text} {container : Option Node} {m : Mention}
    (h : m ∈ missingGroups owner container) : ∃ n, container = some n ∧ n.Reaches m.node := by
  obtain ⟨f, hf, hmention⟩ := List.mem_filterMap.mp h
  rw [missingGroups?] at hmention
  split at hmention
  · cases hmention
    exact mem_fieldsOf hf
  · cases hmention

theorem looksDown_groupMentions : LooksDown groupMentions := by
  refine .append ?_ (.resources fun _ r m hm => ?_)
  · intro root m hm
    obtain ⟨n, hn, hreaches⟩ := reaches_of_mem_missingGroups hm
    exact (Node.reaches_of_path? hn).trans hreaches
  · rw [groupsOfResource] at hm
    split at hm
    · obtain ⟨n, hn, hreaches⟩ := reaches_of_mem_missingGroups hm
      exact (Node.reaches_of_get? hn).trans hreaches
    · cases hm

end Rules.Network

theorem Rules.FunctionTimeout.looksDown_mentions : Template.LooksDown mentions := by
  refine .resources fun root r m hm => ?_
  rw [ofResource] at hm
  split at hm
  · rw [List.mem_singleton.mp hm]
    exact .refl
  · cases hm

/-! ### Steps of the rules -/

/-- A rule is a search through the template that a document is. -/
def Rule.IsStructural (r : Rule) : Prop :=
  ∃ mentions, Template.LooksDown mentions ∧
    r.evaluate = fun d => .ofSearch (Template.search r.id mentions d)

/-- The built-in rules that are searches through the template, in the order of the catalog. -/
def structuralRules : List Rule :=
  [Rules.PolicyStatement.actionRule, Rules.EnvironmentSecret.rule,
    Rules.PolicyStatement.resourceRule, Rules.Network.openRangeRule,
    Rules.Network.missingGroupRule, Rules.FunctionTimeout.rule]

theorem rules_builtin : Catalog.builtin.rules = Rules.AccessKey.rule :: structuralRules := rfl

theorem isStructural_of_mem {r : Rule} (h : r ∈ structuralRules) : r.IsStructural := by
  simp only [structuralRules, List.mem_cons, List.not_mem_nil, or_false] at h
  rcases h with rfl | rfl | rfl | rfl | rfl | rfl
  · exact ⟨_, Rules.PolicyStatement.looksDown_actionMentions, rfl⟩
  · exact ⟨_, Rules.EnvironmentSecret.looksDown_mentions, rfl⟩
  · exact ⟨_, Rules.PolicyStatement.looksDown_resourceMentions, rfl⟩
  · exact ⟨_, Rules.Network.looksDown_openEntries, rfl⟩
  · exact ⟨_, Rules.Network.looksDown_groupMentions, rfl⟩
  · exact ⟨_, Rules.FunctionTimeout.looksDown_mentions, rfl⟩

namespace Rule.IsStructural

variable {r : Rule} {d : Document}

/-- Without a template the rule fails. -/
theorem step_of_fault (h : r.IsStructural) {fault : Document.TemplateFault}
    (hfault : d.template = .error fault) :
    r.step d = .failed r.id (fault.failure d.text).message := by
  obtain ⟨mentions, _, heval⟩ := h
  rw [Rule.step, heval]
  simp only [Template.search, hfault, Evaluation.produced_ofSearch_error]

/-- On an empty document, or on a finite template, it does not. -/
theorem exists_step (h : r.IsStructural) {root? : Option Node} (hroot : d.template = .ok root?)
    (hfinite : ∀ root ∈ root?, root.isFinite = true) : ∃ fs, r.step d = .produced r.id fs := by
  obtain ⟨mentions, hdown, heval⟩ := h
  have hsearch : ∃ fs, Template.search r.id mentions d = .ok fs := by
    rw [Template.search, hroot]
    cases root? with
    | none => exact ⟨[], rfl⟩
    | some root =>
        exact ⟨_, Template.findings_eq_ok r.id fun m hm =>
          Node.isFinite_of_reaches (hfinite root rfl) (hdown root m hm)⟩
  obtain ⟨fs, hfs⟩ := hsearch
  refine ⟨fs, ?_⟩
  rw [Rule.step, heval]
  simp only [hfs, Evaluation.produced_ofSearch_ok]

end Rule.IsStructural

theorem Document.isClosed_of_template {d : Document} {root : Node}
    (h : d.template = .ok (some root)) : root.IsClosed := by
  rw [template, composeTemplate] at h
  split at h
  case h_1 | h_2 => cases h
  case h_3 composed hcompose =>
      split at h
      · cases h
        exact compose_isClosed hcompose
      · cases h

/-! ### Runs of the built-in rules -/

/-- What goes wrong in a run goes wrong in a search through the template. -/
theorem diagnostics_builtin (input : Input) (token : Text) (clock : Clock) (reading : Nat) :
    let d := input.document token
    (Catalog.builtin.run d none clock reading).diagnostics =
      structuralRules.flatMap fun r => (r.step d).diagnostics d.lineCount := by
  intro d
  have hkeys : (Rules.AccessKey.rule.step d).diagnostics d.lineCount = [] := by
    rw [Input.lineCount_document]
    exact Rules.AccessKey.diagnostics_step input token
  rw [Catalog.run_diagnostics, Catalog.started_none, cutoff_none, if_neg (Nat.lt_irrefl _),
    List.append_nil, rules_builtin, List.flatMap_cons, hkeys, List.nil_append]

/-- The built-in rules over any document, without a deadline. If the document is no template, what
is found is what the rule about access keys finds, and the six other rules are on record in their
order, all with the same failure. If it is empty, or a template in which no node contains itself, no
rule fails. -/
theorem builtin_run_contained (input : Input) (token : Text) (clock : Clock) (reading : Nat) :
    let d := input.document token
    let m := Catalog.builtin.run d none clock reading
    (∀ fault, d.template = .error fault →
      m.findings = (runRules [Rules.AccessKey.rule] d none clock reading).findings ∧
      m.diagnostics =
        structuralRules.map fun r => .ruleError r.id (fault.failure d.text).message) ∧
    (d.template = .ok none ∨ (∃ root, d.template = .ok (some root) ∧ root.IsAcyclic) →
      ∀ x ∈ m.diagnostics, x.kind ≠ "rule_error") := by
  intro d m
  constructor
  · intro fault hfault
    have hsteps : ∀ r ∈ structuralRules,
        r.step d = .failed r.id (fault.failure d.text).message :=
      fun r hr => (isStructural_of_mem hr).step_of_fault hfault
    constructor
    · have hnone : structuralRules.flatMap (fun r => (r.step d).findings d.lineCount) = [] := by
        refine List.flatMap_eq_nil_iff.mpr fun r hr => ?_
        rw [hsteps r hr]
        rfl
      rw [Catalog.run_findings, Catalog.started_none, rules_builtin, List.flatMap_cons, hnone,
        List.append_nil, findings_runRules_singleton]
    · rw [diagnostics_builtin, List.map_eq_flatMap]
      refine List.flatMap_congr fun r hr => ?_
      rw [hsteps r hr]
      rfl
  · intro htemplate x hx
    obtain ⟨root?, hroot, hfinite⟩ : ∃ root?, d.template = .ok root? ∧
        ∀ root ∈ root?, root.isFinite = true := by
      rcases htemplate with hnone | ⟨root, hroot, hacyclic⟩
      · exact ⟨none, hnone, fun root h => nomatch h⟩
      · refine ⟨some root, hroot, ?_⟩
        rintro _ ⟨⟩
        exact (Document.isClosed_of_template hroot).isFinite_iff_isAcyclic.mpr hacyclic
    rw [diagnostics_builtin] at hx
    obtain ⟨r, hr, hx⟩ := List.mem_flatMap.mp hx
    obtain ⟨fs, hstep⟩ := (isStructural_of_mem hr).exists_step hroot hfinite
    rw [hstep] at hx
    obtain ⟨f, _, rfl⟩ := List.mem_map.mp hx
    exact show "invalid_range" ≠ "rule_error" by decide

/-- A list without an end, and a template with one node in two places. -/
theorem builtin_run_contained_shared :
    (∃ message, (Catalog.builtin.run ((Input.text "[").document defaultToken) none
        (fun _ => .whole 0) 0).diagnostics = structuralRules.map (.ruleError ·.id message)) ∧
      ∀ x ∈ (Catalog.builtin.run ((Input.text "a: &x [1]\nb: *x").document defaultToken) none
        (fun _ => .whole 0) 0).diagnostics, x.kind ≠ "rule_error" := by
  constructor
  · have hfails : ((Input.text "[").document defaultToken).template.isOk = false := by
      decide +kernel
    cases htemplate : ((Input.text "[").document defaultToken).template with
    | error fault => exact ⟨_, ((builtin_run_contained _ _ _ _).1 fault htemplate).2⟩
    | ok root? => rw [htemplate] at hfails; cases hfails
  · have hfinite : ((Input.text "a: &x [1]\nb: *x").document defaultToken).template.toOption.join.any
        Node.isFinite = true := by decide +kernel
    refine (builtin_run_contained _ _ _ _).2 (.inr ?_)
    cases htemplate : ((Input.text "a: &x [1]\nb: *x").document defaultToken).template with
    | error fault => rw [htemplate] at hfinite; cases hfinite
    | ok root? =>
      rw [htemplate] at hfinite
      cases root? with
      | none => cases hfinite
      | some root => exact ⟨root, rfl, Node.isAcyclic_of_isFinite hfinite⟩

end TemplateAudit
