import TemplateAudit.Proofs.Locality

/-!
# TemplateAudit.Proofs.Placement

Whatever the built-in rules find can be **placed** in the document (`builtin_findings_placed`).

A finding starts with the anchor of a mention and ends with the node, but never before it starts. So
the anchor alone decides whether a finding is in range (`inRange_of_finding?`). Where the node lies
moves no more than the end: before the anchor if an alias stands for it, behind the last line if
nothing is written in its place. All rules that look at templates take a mapping or a key for the
anchor (`anchored_of_mem_walks`), so it is enough that these start on lines of the document.
-/

namespace TemplateAudit

open TemplateAudit.Number (Quantity)
open TemplateAudit.Rules
open TemplateAudit.Template
open TemplateAudit.Yaml

variable {d : Document}

/-! ### Mappings and keys -/

namespace Yaml.Node

/-- The mappings of a tree and the scalars that are keys in it. -/
inductive MappingOrKey (root : Node) : Node → Prop
  | mapping {n : Node} (hn : root.Reaches n) (hmapping : n.isMapping = true) : MappingOrKey root n
  | key {n : Node} {e : Node × Node} (hn : root.Reaches n) (he : e ∈ n.entries)
      (hkey : e.1.text?.isSome = true) : MappingOrKey root e.1

/-- All mappings and keys of a tree start on the first so many lines. -/
def StartsWithin (lines : Nat) (root : Node) : Prop :=
  ∀ n, root.MappingOrKey n → n.start.line < lines

variable {root n m : Node}

theorem MappingOrKey.of_reaches (h : n.MappingOrKey m) (hn : root.Reaches n) :
    root.MappingOrKey m := by
  cases h with
  | mapping hm hmapping => exact .mapping (hn.trans hm) hmapping
  | key hm he hkey => exact .key (hn.trans hm) he hkey

theorem mappingOrKey_of_mem_fields {f : Field} (h : f ∈ n.fields) : n.MappingOrKey f.key := by
  obtain ⟨⟨key, value⟩, he, hfield⟩ := List.mem_filterMap.mp h
  cases key with
  | scalar =>
      cases hfield
      exact .key .refl he rfl
  | sequence | mapping | enclosing => cases hfield

/-! A tree without an end has no list of its nodes, but all that is met in a finite one is written
there, so that its mappings and keys can be gone through. -/

mutual

/-- The nodes that are written in a tree, itself first. -/
def nodes : Node → List Node
  | .scalar tag value start stop => [.scalar tag value start stop]
  | .sequence own tag items start stop => .sequence own tag items start stop :: nodesOfItems items
  | .mapping own tag entries start stop =>
    .mapping own tag entries start stop :: nodesOfEntries entries
  | .enclosing anchor => [.enclosing anchor]

/-- `nodes` for a list of nodes. -/
def nodesOfItems : List Node → List Node
  | [] => []
  | item :: items => nodes item ++ nodesOfItems items

/-- `nodes` for a list of keys and values. -/
def nodesOfEntries : List (Node × Node) → List Node
  | [] => []
  | (key, value) :: entries => nodes key ++ (nodes value ++ nodesOfEntries entries)

end

theorem nodes_eq (n : Node) : n.nodes = n :: n.written.flatMap nodes := by
  have hitems : ∀ items, nodesOfItems items = items.flatMap nodes := by
    intro items
    induction items with
    | nil => rfl
    | cons item items ih => rw [nodesOfItems, List.flatMap_cons, ih]
  have hentries : ∀ entries, nodesOfEntries entries =
      (entries.flatMap fun e => [e.1, e.2]).flatMap nodes := by
    intro entries
    induction entries with
    | nil => rfl
    | cons entry entries ih =>
        rw [nodesOfEntries, List.flatMap_cons, List.flatMap_append, ← ih]
        simp
  cases n with
  | scalar | enclosing => rfl
  | sequence own tag items => rw [nodes, hitems, written]
  | mapping own tag entries => rw [nodes, hentries, written]

theorem mem_nodes_of_reaches (hfinite : n.isFinite = true) (h : n.Reaches m) : m ∈ n.nodes := by
  induction h using Relation.ReflTransGen.head_induction_on with
  | refl =>
      rw [nodes_eq]
      exact List.mem_cons_self
  | @head n k hstep _ ih =>
      have hn : n.isReference = false := by
        cases n with
        | enclosing => cases hfinite
        | scalar | sequence | mapping => rfl
      have hk : k ∈ n.written := by
        rw [← children_of_isFinite hn hfinite]
        exact hstep
      rw [nodes_eq]
      exact List.mem_cons_of_mem n
        (List.mem_flatMap.mpr ⟨k, hk, ih ((isFinite_iff hn).mp hfinite k hk)⟩)

theorem startsWithin_of_nodes {lines : Nat} (hfinite : root.isFinite = true)
    (h : ∀ n ∈ root.nodes, (n.isMapping = true → n.start.line < lines) ∧
      ∀ e ∈ n.entries, e.1.text?.isSome = true → e.1.start.line < lines) :
    root.StartsWithin lines := by
  intro n hn
  cases hn with
  | mapping hn hmapping => exact (h n (mem_nodes_of_reaches hfinite hn)).1 hmapping
  | key hn he hkey => exact (h _ (mem_nodes_of_reaches hfinite hn)).2 _ he hkey

end Yaml.Node

theorem mappingOrKey_of_mem_fieldsOf {node : Option Node} {f : Field} (h : f ∈ fieldsOf node) :
    ∃ n, node = some n ∧ n.MappingOrKey f.key := by
  cases node with
  | none => cases h
  | some n => exact ⟨n, rfl, Node.mappingOrKey_of_mem_fields h⟩

/-! ### Where the rules start -/

/-- All that is said of a template starts at a mapping or a key. -/
def Template.Anchored (mentions : Node → List Mention) : Prop :=
  ∀ root, ∀ m ∈ mentions root, root.MappingOrKey m.anchor

/-- It does if it is said of mappings as a whole. -/
theorem Template.LooksDown.anchored {mentions : Node → List Mention} (h : LooksDown mentions)
    (hmapping : ∀ root, ∀ m ∈ mentions root, m.anchor = m.node ∧ m.node.isMapping = true) :
    Anchored mentions := by
  intro root m hm
  obtain ⟨hanchor, hnode⟩ := hmapping root m hm
  rw [hanchor]
  exact .mapping (h root m hm) hnode

/-- So it does if it is said of fields, of those that all functions share and of those that a
function has somewhere in its description. -/
theorem Template.Anchored.ofFields {mention? : Text → Field → Option Mention}
    {shared : List String} {own : Resource → Option Node}
    (h : ∀ owner f m, mention? owner f = some m → m.anchor = f.key)
    (hown : ∀ r n, own r = some n → r.body.Reaches n) :
    Anchored fun root => (fieldsOf (root.path? shared)).filterMap (mention? "Globals") ++
      (resources root).flatMap fun r =>
        if r.isFunction then (fieldsOf (own r)).filterMap (mention? r.name) else [] := by
  have hkey : ∀ {owner : Text} {node : Option Node} {m : Mention},
      m ∈ (fieldsOf node).filterMap (mention? owner) → ∃ n, node = some n ∧
        n.MappingOrKey m.anchor := by
    intro owner node m hm
    obtain ⟨f, hf, hmention⟩ := List.mem_filterMap.mp hm
    rw [h owner f m hmention]
    exact mappingOrKey_of_mem_fieldsOf hf
  intro root m hm
  rcases List.mem_append.mp hm with hm | hm
  · obtain ⟨n, hn, hkey⟩ := hkey hm
    exact hkey.of_reaches (Node.reaches_of_path? hn)
  · obtain ⟨r, hr, hm⟩ := List.mem_flatMap.mp hm
    split at hm
    · obtain ⟨n, hn, hkey⟩ := hkey hm
      exact hkey.of_reaches ((reaches_body hr).trans (hown r n hn))
    · cases hm

namespace Rules.PolicyStatement

theorem isMapping_of_mem_ofResource {r : Resource} {statement : Node}
    (h : statement ∈ ofResource r) : statement.isMapping = true := by
  have hstatement : ∀ {policy : Option Node}, statement ∈ statementsOf policy →
      statement.isMapping = true := fun h => (List.mem_filter.mp h).2
  rw [ofResource] at h
  split at h
  · obtain ⟨policy, -, h⟩ := List.mem_flatMap.mp h
    exact hstatement h
  · split at h
    · obtain ⟨policy, -, h⟩ := List.mem_flatMap.mp h
      exact hstatement h
    · split at h
      · exact hstatement h
      · cases h

theorem isMapping_of_mention {mention? : Text → Node → Option Mention} {r : Resource} {m : Mention}
    (h : ∀ owner statement m, mention? owner statement = some m →
      m.anchor = statement ∧ m.node = statement)
    (hm : m ∈ (ofResource r).filterMap (mention? r.name)) :
    m.anchor = m.node ∧ m.node.isMapping = true := by
  obtain ⟨statement, hstatement, hmention⟩ := List.mem_filterMap.mp hm
  obtain ⟨hanchor, hnode⟩ := h _ _ _ hmention
  rw [hanchor, hnode]
  exact ⟨rfl, isMapping_of_mem_ofResource hstatement⟩

theorem anchored_actionMentions :
    Anchored fun root => (resources root).flatMap actionMentions := by
  refine looksDown_actionMentions.anchored fun root m hm => ?_
  obtain ⟨r, -, hm⟩ := List.mem_flatMap.mp hm
  refine isMapping_of_mention (fun owner statement m h => ?_) hm
  rw [wildcardAction?] at h
  split at h
  · cases h; exact ⟨rfl, rfl⟩
  · cases h

theorem anchored_resourceMentions :
    Anchored fun root => (resources root).flatMap resourceMentions := by
  refine looksDown_resourceMentions.anchored fun root m hm => ?_
  obtain ⟨r, -, hm⟩ := List.mem_flatMap.mp hm
  refine isMapping_of_mention (fun owner statement m h => ?_) hm
  rw [wildcardResource?] at h
  split at h
  · cases h; exact ⟨rfl, rfl⟩
  · cases h

end Rules.PolicyStatement

theorem Rules.EnvironmentSecret.anchored_mentions : Anchored mentions := by
  refine .ofFields (fun owner f m h => ?_) fun r n hn => Node.reaches_of_path? hn
  obtain ⟨text, -, h⟩ := Option.bind_eq_some_iff.mp h
  obtain ⟨kind, -, ⟨⟩⟩ := Option.bind_eq_some_iff.mp h
  rfl

namespace Rules.Network

theorem anchored_openEntries : Anchored fun root => (resources root).flatMap openEntries := by
  refine looksDown_openEntries.anchored fun root m hm => ?_
  obtain ⟨r, -, hm⟩ := List.mem_flatMap.mp hm
  obtain ⟨direction, -, entry, hmention⟩ := exists_openMention? hm
  rw [openMention?] at hmention
  split at hmention
  case isTrue hmapping =>
      obtain ⟨range, -, ⟨⟩⟩ := Option.bind_eq_some_iff.mp hmention
      exact ⟨rfl, hmapping⟩
  case isFalse => cases hmention

theorem anchored_groupMentions : Anchored groupMentions := by
  refine .ofFields (fun owner f m h => ?_) fun r n hn => Node.reaches_of_get? hn
  rw [missingGroups?] at h
  split at h
  · cases h; rfl
  · cases h

end Rules.Network

/-- The key of a resource lies around its description. -/
theorem Rules.FunctionTimeout.anchored_mentions : Anchored mentions := by
  intro root m hm
  obtain ⟨r, hr, hm⟩ := List.mem_flatMap.mp hm
  rw [ofResource] at hm
  split at hm
  · rw [List.mem_singleton.mp hm]
    obtain ⟨f, hf, rfl⟩ := List.mem_map.mp hr
    obtain ⟨n, hn, hkey⟩ := mappingOrKey_of_mem_fieldsOf hf
    exact hkey.of_reaches (Node.reaches_of_get? hn)
  · cases hm

theorem anchored_of_mem_walks {w : Walk} (h : w ∈ walks) : Anchored w.mentions := by
  simp only [walks, List.mem_cons, List.not_mem_nil, or_false] at h
  rcases h with rfl | rfl | rfl | rfl | rfl | rfl
  · exact PolicyStatement.anchored_actionMentions
  · exact EnvironmentSecret.anchored_mentions
  · exact PolicyStatement.anchored_resourceMentions
  · exact Network.anchored_openEntries
  · exact Network.anchored_groupMentions
  · exact FunctionTimeout.anchored_mentions

/-! ### Findings in range -/

/-- A finding is in range if its anchor starts on a line of the document. -/
theorem Template.Mention.inRange_of_finding? {m : Mention} {ruleId : String} {f : Finding}
    {lines : Nat} (h : m.finding? ruleId = some f) (hstart : m.anchor.start.line < lines) :
    f.ruleId = .ofString ruleId ∧ f.InRange lines := by
  obtain ⟨span, hspan, rfl⟩ := Option.map_eq_some_iff.mp h
  obtain ⟨last, -, ⟨⟩⟩ := Option.bind_eq_some_iff.mp hspan
  refine ⟨rfl, ?_⟩
  simp only [FindingOn.InRange, Finding.ofLines, LineRef.toInt]
  omega

/-- What a rule produces goes by its name and is in range. -/
def Rule.Places (d : Document) (r : Rule) : Prop :=
  ∀ f ∈ r.output d, f.ruleId = .ofString r.id ∧ f.InRange d.lineCount

namespace Rule.Places

variable {r : Rule}

theorem findings_step (h : r.Places d) :
    (r.step d).findings d.lineCount = (r.output d).map (FindingOn.cut d.lineCount) := by
  rw [Rule.findings_step, ← List.filterMap_eq_map]
  refine List.filterMap_congr fun f hf => ?_
  rw [FindingOn.within?_eq, if_pos (h f hf).2]
  rfl

theorem kind_of_mem_diagnostics (h : r.Places d) {x : Diagnostic}
    (hx : x ∈ (r.step d).diagnostics d.lineCount) : x.kind ≠ "invalid_range" := by
  unfold Rule.step at hx
  unfold Places Rule.output at h
  cases hproduced : (r.evaluate d).produced with
  | error message =>
      rw [hproduced] at hx
      rw [List.mem_singleton.mp hx]
      exact show "rule_error" ≠ "invalid_range" by decide
  | ok fs =>
      rw [hproduced] at hx h
      rw [Step.diagnostics_produced] at hx
      obtain ⟨f, hf, -⟩ := List.mem_map.mp hx
      obtain ⟨hmem, hout⟩ := List.mem_filter.mp hf
      simp [(h f hmem).2] at hout

end Rule.Places

theorem Rule.produced_eq_output {r : Rule} {fs : List Finding}
    (h : (r.evaluate d).produced = .ok fs) : (r.evaluate d).produced = .ok (r.output d) := by
  rw [Rule.output, h]
  rfl

namespace Template.Walk

variable {w : Walk}

theorem output_of_fault {fault : Document.TemplateFault} (h : d.template = .error fault) :
    w.rule.output d = [] := by
  rw [Rule.output, w.evaluate_eq]
  simp only [search, h, Evaluation.produced_ofSearch_error]
  rfl

theorem produced_of_empty (h : d.template = .ok none) : (w.rule.evaluate d).produced = .ok [] := by
  rw [w.evaluate_eq]
  simp only [search, h, Evaluation.produced_ofSearch_ok]

/-- The rules that look at templates place what they find in them. -/
theorem places (hw : w ∈ walks)
    (h : ∀ root, d.template = .ok (some root) → root.IsAcyclic ∧ root.StartsWithin d.lineCount) :
    w.rule.Places d := by
  intro f hf
  cases htemplate : d.template with
  | error fault =>
      rw [output_of_fault htemplate] at hf
      cases hf
  | ok root? =>
      cases root? with
      | none =>
          rw [Rule.output, produced_of_empty htemplate] at hf
          cases hf
      | some root =>
          obtain ⟨hacyclic, hstarts⟩ := h root htemplate
          rw [Rule.output, w.produced_evaluate htemplate hacyclic, ← w.filterMap_mentions] at hf
          obtain ⟨m, hm, hfinding⟩ := List.mem_filterMap.mp hf
          exact m.inRange_of_finding? hfinding (hstarts _ (anchored_of_mem_walks hw root m hm))

end Template.Walk

/-- The rule about access keys places what it finds in any document. -/
theorem Rules.AccessKey.places (input : Input) (token : Text) :
    rule.Places (input.document token) := by
  intro f hf
  rw [Rule.output, produced_evaluate] at hf
  refine ⟨?_, ?_⟩
  · obtain ⟨l, -, hl⟩ := List.mem_flatMap.mp hf
    obtain ⟨key, -, rfl⟩ := List.mem_map.mp hl
    rfl
  · have hwithin := within?_of_mem_search hf
    rw [Input.lineCount_document]
    by_contra hout
    rw [FindingOn.within?_eq, if_neg hout] at hwithin
    cases hwithin

theorem eq_or_walk_of_mem_builtin {r : Rule} (h : r ∈ Catalog.builtin.rules) :
    r = AccessKey.rule ∨ ∃ w ∈ walks, w.rule = r := by
  rw [rules_builtin, ← rules_walks] at h
  rcases List.mem_cons.mp h with h | h
  · exact .inl h
  · exact .inr (List.mem_map.mp h)

/-- The built-in rules over any document. If it is a template, assume that no node of it contains
itself, and that all its mappings and all scalars that are keys start on lines of the document. Then

* every rule produces its findings, unless the document is no template;
* every finding goes by the name of its rule, starts on a line of the document and does not end
  before it starts;
* no run, with a deadline or without, tells of a finding that is not in the document;
* a run has all the findings that its rules produce, and nothing about them changes but that the end
  is on the last line at the latest. -/
theorem builtin_findings_placed (input : Input) (token : Text) (deadline : Option Quantity)
    (clock : Clock) (reading : Nat)
    (h : ∀ root, (input.document token).template = .ok (some root) →
      root.IsAcyclic ∧ root.StartsWithin (input.document token).lineCount) :
    let d := input.document token
    let n := d.lineCount
    let m := Catalog.builtin.run d deadline clock reading
    (∀ root?, d.template = .ok root? → ∀ r ∈ Catalog.builtin.rules,
      (r.evaluate d).produced = .ok (r.output d)) ∧
    (∀ r ∈ Catalog.builtin.rules, ∀ f ∈ r.output d, f.ruleId = .ofString r.id ∧
      1 ≤ f.first.toInt ∧ f.first.toInt ≤ n ∧ f.first.toInt ≤ f.last.toInt) ∧
    (∀ x ∈ m.diagnostics, x.kind ≠ "invalid_range") ∧
    List.Forall₂ (FindingOn.CutTo n)
      ((Catalog.builtin.started deadline clock reading).flatMap (Rule.output d)) m.findings := by
  intro d n m
  have hplaces : ∀ r ∈ Catalog.builtin.rules, r.Places d := by
    intro r hr
    rcases eq_or_walk_of_mem_builtin hr with rfl | ⟨w, hw, rfl⟩
    · exact AccessKey.places input token
    · exact Walk.places hw h
  have hstarted : ∀ r ∈ Catalog.builtin.started deadline clock reading, r.Places d :=
    fun r hr => hplaces r (List.mem_of_mem_take hr)
  refine ⟨fun root? hroot r hr => ?_, hplaces, fun x hx => ?_, ?_⟩
  · rcases eq_or_walk_of_mem_builtin hr with rfl | ⟨w, hw, rfl⟩
    · exact Rule.produced_eq_output (AccessKey.produced_evaluate d)
    · cases root? with
      | none => exact Rule.produced_eq_output (Walk.produced_of_empty hroot)
      | some root => exact Rule.produced_eq_output (w.produced_evaluate hroot (h root hroot).1)
  · rw [Catalog.run_diagnostics] at hx
    rcases List.mem_append.mp hx with hx | hx
    · obtain ⟨r, hr, hx⟩ := List.mem_flatMap.mp hx
      exact (hstarted r hr).kind_of_mem_diagnostics hx
    · split at hx
      · rw [List.mem_singleton.mp hx]
        exact show "deadline" ≠ "invalid_range" by decide
      · cases hx
  · have hfindings : m.findings = ((Catalog.builtin.started deadline clock reading).flatMap
        (Rule.output d)).map (FindingOn.cut n) := by
      rw [Catalog.run_findings, List.map_flatMap]
      exact List.flatMap_congr fun r hr => (hstarted r hr).findings_step
    rw [hfindings, List.forall₂_map_right_iff]
    exact List.forall₂_same.mpr fun f _ => FindingOn.cutTo_cut n f

/-- A function with two network configurations. One is written before the function, and an alias
stands for it. The other one is left out, and its place is after the last line. -/
def overhanging : Document :=
  (Input.text "c: &c []
Resources:
 f:
  Type: AWS::Lambda::Function
  Properties:
   VpcConfig: *c
   ? VpcConfig
").document defaultToken

theorem builtin_findings_placed_overhanging :
    let m := Catalog.builtin.run overhanging none (fun _ => .whole 0) 0
    (∃ root, overhanging.template = .ok (some root) ∧ root.IsAcyclic ∧
      root.StartsWithin overhanging.lineCount) ∧
    overhanging.lineCount = 7 ∧
    (Network.missingGroupRule.output overhanging).map (fun f => (f.first.toInt, f.last.toInt)) =
      [(6, 6), (7, 8)] ∧
    (∀ x ∈ m.diagnostics, x.kind ≠ "invalid_range") ∧
    List.Forall₂ (FindingOn.CutTo 7)
      (Catalog.builtin.rules.flatMap (Rule.output overhanging)) m.findings := by
  intro m
  obtain ⟨hlines, hcheck, hfound⟩ : overhanging.lineCount = 7 ∧
      overhanging.template.toOption.join.any (fun root => root.isFinite && decide (∀ n ∈ root.nodes,
        (n.isMapping = true → n.start.line < 7) ∧
          ∀ e ∈ n.entries, e.1.text?.isSome = true → e.1.start.line < 7)) = true ∧
      (Network.missingGroupRule.output overhanging).map
        (fun f => (f.first.toInt, f.last.toInt)) = [(6, 6), (7, 8)] := by
    decide +kernel
  have htemplate : ∃ root, overhanging.template = .ok (some root) ∧ root.IsAcyclic ∧
      root.StartsWithin overhanging.lineCount := by
    cases hroot : overhanging.template with
    | error fault => rw [hroot] at hcheck; cases hcheck
    | ok root? =>
        rw [hroot] at hcheck
        cases root? with
        | none => cases hcheck
        | some root =>
            obtain ⟨hfinite, hstarts⟩ := (Bool.and_eq_true _ _).mp hcheck
            refine ⟨root, rfl, Node.isAcyclic_of_isFinite hfinite, ?_⟩
            rw [hlines]
            exact Node.startsWithin_of_nodes hfinite (of_decide_eq_true hstarts)
  obtain ⟨root, hroot, hplaced⟩ := htemplate
  have hroots : ∀ root', overhanging.template = .ok (some root') →
      root'.IsAcyclic ∧ root'.StartsWithin overhanging.lineCount := by
    intro root' hroot'
    rw [hroot] at hroot'
    cases hroot'
    exact hplaced
  obtain ⟨-, -, hkinds, hcut⟩ :=
    builtin_findings_placed _ defaultToken none (fun _ => .whole 0) 0 hroots
  rw [Catalog.started_none] at hcut
  exact ⟨⟨root, hroot, hplaced⟩, hlines, hfound, hkinds, hlines ▸ hcut⟩

end TemplateAudit
