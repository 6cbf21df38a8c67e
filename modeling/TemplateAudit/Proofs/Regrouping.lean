import TemplateAudit.Proofs.Locality
import TemplateAudit.Proofs.Related

/-!
# TemplateAudit.Proofs.Regrouping

The rules about policy statements do not care whether one thing is written **by itself or in a
list**, nor what a role's trust policy says (`policies_read_alike`).

`Regrouped` relates a tree to those in which any values of the fields for lists are written as lists
of one, at any depth. Such a list stands where its only item stood, and its own marks are never
looked at, so the last line of every tree around it stays (`Regrouped.lastLine?_eq`). Looking up
such a field gives the same parts on both sides (`Alike.partsOf`), and looking up any other field
gives regrouped trees again (`Alike.get?`). So statements are found in the same places, and what is
asked of a statement has the same answers.

A trust policy lies off the paths on which statements are looked for. Whatever becomes of it, the
very same statements are found (`ofResource_eq_of_sameButTrust`).
-/

namespace TemplateAudit

open TemplateAudit.Template
open TemplateAudit.Yaml

namespace Yaml.Node

variable {n n' m : Node} {name : String}

/-! ### Lists of one -/

/-- The fields that hold one thing or a list of things. -/
def listFields : List Text := ["Policies", "Statement", "Action", "Resource"]

/-- Whether a node is a sequence. -/
def isSequence : Node → Bool
  | .sequence .. => true
  | _ => false

/-- Entries with the same key. The values are related, or the key names a field for lists, the first
value is no list, and the second one is a list that holds a related value and nothing else. -/
inductive Relisted (R : Node → Node → Prop) : Node × Node → Node × Node → Prop
  | kept {key v v' : Node} (h : R v v') : Relisted R (key, v) (key, v')
  | single {key v v' : Node} {own : Option String} {tag : String} {start stop : Mark}
      (hfield : ∃ name ∈ key.text?, name ∈ listFields) (hv : v.isSequence = false) (h : R v v') :
      Relisted R (key, v) (key, .sequence own tag [v'] start stop)

/-- A tree in which some values of fields for lists, none of them lists, have become lists of one.
All else is the same. -/
inductive Regrouped : Node → Node → Prop
  | same (n : Node) : Regrouped n n
  | sequence {own : Option String} {tag : String} {items items' : List Node} {start stop : Mark}
      (h : List.Forall₂ Regrouped items items') :
      Regrouped (.sequence own tag items start stop) (.sequence own tag items' start stop)
  | mapping {own : Option String} {tag : String} {entries entries' : List (Node × Node)}
      {start stop : Mark} (h : List.Forall₂ (Relisted Regrouped) entries entries') :
      Regrouped (.mapping own tag entries start stop) (.mapping own tag entries' start stop)

/-- Induction over regrouped trees. -/
@[elab_as_elim]
theorem Regrouped.induction {P : Node → Node → Prop} (same : ∀ n, P n n)
    (sequence : ∀ own tag items items' start stop, List.Forall₂ P items items' →
      P (.sequence own tag items start stop) (.sequence own tag items' start stop))
    (mapping : ∀ own tag entries entries' start stop, List.Forall₂ (Relisted P) entries entries' →
      P (.mapping own tag entries start stop) (.mapping own tag entries' start stop))
    (h : Regrouped n n') : P n n' := by
  induction n using Node.induction generalizing n' with
  | reference anchor =>
      cases h
      exact same _
  | inside n hn ih =>
      cases h with
      | same => exact same n
      | sequence hitems =>
          refine sequence _ _ _ _ _ _ ?_
          exact ((List.forall₂_and_left _ _).mpr ⟨ih, hitems⟩).imp fun _ _ h => h.1 h.2
      | mapping hentries =>
          refine mapping _ _ _ _ _ _ ?_
          refine ((List.forall₂_and_left _ _).mpr
            ⟨forall_mem_flatMap_pair.mp ih, hentries⟩).imp ?_
          rintro _ _ ⟨⟨-, hvalue⟩, hentry⟩
          cases hentry with
          | kept h => exact .kept (hvalue h)
          | single hfield hv h => exact .single hfield hv (hvalue h)

/-! ### What regrouping keeps -/

theorem Regrouped.start_eq (h : Regrouped n n') : n'.start = n.start := by cases h <;> rfl

theorem Regrouped.text?_eq (h : Regrouped n n') : n'.text? = n.text? := by cases h <;> rfl

theorem Regrouped.isMapping_eq (h : Regrouped n n') : n'.isMapping = n.isMapping := by
  cases h <;> rfl

theorem lastLineOfItems?_congr {items items' : List Node}
    (h : List.Forall₂ (fun m m' => m'.lastLine? = m.lastLine?) items items') :
    lastLineOfItems? items' = lastLineOfItems? items := by
  induction h with
  | nil => rfl
  | cons hitem _ ih => rw [lastLineOfItems?, lastLineOfItems?, hitem, ih]

theorem lastLineOfEntries?_congr {entries entries' : List (Node × Node)}
    (h : List.Forall₂ (fun e e' => e'.1 = e.1 ∧ e'.2.lastLine? = e.2.lastLine?) entries entries') :
    lastLineOfEntries? entries' = lastLineOfEntries? entries := by
  induction h with
  | nil => rfl
  | cons hentry _ ih => rw [lastLineOfEntries?, lastLineOfEntries?, hentry.1, hentry.2, ih]

/-- A list of one ends where its item ends. -/
theorem lastLine?_single (own : Option String) (tag : String) (n : Node) (start stop : Mark) :
    (Node.sequence own tag [n] start stop).lastLine? = n.lastLine? := by
  rw [lastLine?, lastLineOfItems?, lastLineOfItems?]
  cases n.lastLine? <;> simp

/-- Regrouped trees end on the same line. -/
theorem Regrouped.lastLine?_eq (h : Regrouped n n') : n'.lastLine? = n.lastLine? := by
  refine Regrouped.induction (fun _ => rfl) ?_ ?_ h
  · intro own tag items items' start stop hitems
    cases hitems with
    | nil => rfl
    | cons hitem hitems => exact lastLineOfItems?_congr (.cons hitem hitems)
  · intro own tag entries entries' start stop hentries
    have hlines : List.Forall₂ (fun e e' => e'.1 = e.1 ∧ e'.2.lastLine? = e.2.lastLine?)
        entries entries' := by
      refine hentries.imp fun e e' hentry => ?_
      cases hentry with
      | kept h => exact ⟨rfl, h⟩
      | single _ _ h => exact ⟨rfl, (lastLine?_single ..).trans h⟩
    cases hlines with
    | nil => rfl
    | cons hfirst hrest => exact lastLineOfEntries?_congr (.cons hfirst hrest)

/-- Regrouping a finite tree gives a finite one. -/
theorem Regrouped.isFinite_eq (h : Regrouped n n') : n'.isFinite = n.isFinite := by
  refine Regrouped.induction (fun _ => rfl) ?_ ?_ h
  · intro own tag items items' start stop hitems
    rw [isFinite, isFinite]
    induction hitems with
    | nil => rfl
    | cons hitem _ ih => rw [allFinite, allFinite, hitem, ih]
  · intro own tag entries entries' start stop hentries
    rw [isFinite, isFinite]
    induction hentries with
    | nil => rfl
    | cons hentry _ ih =>
        cases hentry with
        | kept h => rw [entriesFinite, entriesFinite, ih, h]
        | single _ _ h =>
            rw [entriesFinite, entriesFinite, ih, isFinite, allFinite, allFinite, Bool.and_true, h]

/-! ### Looking things up -/

/-- A finite mapping holds what is written in it. -/
theorem entries_of_isFinite {own : Option String} {tag : String} {entries : List (Node × Node)}
    {start stop : Mark} (h : (Node.mapping own tag entries start stop).isFinite = true) :
    (Node.mapping own tag entries start stop).entries = entries := by
  cases own with
  | none => rfl
  | some anchor =>
      have hfinite := entriesFinite_iff.mp h
      rw [Node.entries, closeEntries_eq_map]
      refine (List.map_congr_left fun e he => ?_).trans (List.map_id entries)
      rw [close_of_not_refers (not_refers_of_isFinite (hfinite e he).1),
        close_of_not_refers (not_refers_of_isFinite (hfinite e he).2)]
      rfl

/-- So does a finite sequence. -/
theorem items_of_isFinite {own : Option String} {tag : String} {items : List Node}
    {start stop : Mark} (h : (Node.sequence own tag items start stop).isFinite = true) :
    (Node.sequence own tag items start stop).items = items := by
  cases own with
  | none => rfl
  | some anchor =>
      have hfinite := allFinite_iff.mp h
      rw [Node.items, closeItems_eq_map]
      exact (List.map_congr_left fun m hm =>
        close_of_not_refers (not_refers_of_isFinite (hfinite m hm))).trans (List.map_id items)

/-- A finite tree and a regrouped one. -/
structure Alike (n n' : Node) : Prop where
  finite : n.isFinite = true
  regrouped : Regrouped n n'

theorem Alike.finite' (h : Alike n n') : n'.isFinite = true := by
  rw [h.regrouped.isFinite_eq, h.finite]

/-- The values of a field with a name in regrouped trees. -/
inductive Listed (name : Text) : Node → Node → Prop
  | kept {v v' : Node} (h : Alike v v') : Listed name v v'
  | single {v v' : Node} {own : Option String} {tag : String} {start stop : Mark}
      (hname : name ∈ listFields) (hv : v.isSequence = false) (h : Alike v v') :
      Listed name v (.sequence own tag [v'] start stop)

theorem Alike.below (h : Alike n n') : Below Listed n n' := by
  have hfinite := h.finite
  have hfinite' := h.finite'
  obtain ⟨-, hregrouped⟩ := h
  cases hregrouped with
  | same =>
      refine List.forall₂_same.mpr fun e he => ⟨rfl, fun _ _ => .kept ⟨?_, .same e.2⟩⟩
      exact isFinite_of_reaches hfinite (.single (holds_of_mem_entries he))
  | sequence => exact .nil
  | mapping hentries =>
      rw [Below, entries_of_isFinite hfinite, entries_of_isFinite hfinite']
      refine ((List.forall₂_and_left _ _).mpr ⟨entriesFinite_iff.mp hfinite, hentries⟩).imp ?_
      rintro e e' ⟨⟨-, hvalue⟩, hentry⟩
      cases hentry with
      | kept h => exact ⟨rfl, fun _ _ => .kept ⟨hvalue, h⟩⟩
      | single hfield hv h =>
          obtain ⟨name, hname, hmem⟩ := hfield
          refine ⟨rfl, fun name' hname' => ?_⟩
          obtain rfl := Option.some_inj.mp (hname.symm.trans hname')
          exact .single hmem hv ⟨hvalue, h⟩

/-- What a field that is not for lists holds is alike. -/
theorem Alike.get? (h : Alike n n') (hname : (name : Text) ∉ listFields) :
    Option.Rel Alike (n.get? name) (n'.get? name) := by
  have hrel := h.below.get? name
  generalize n.get? name = value, n'.get? name = value' at hrel ⊢
  cases hrel with
  | none => exact .none
  | some hvalue =>
      cases hvalue with
      | kept halike => exact .some halike
      | single hmem => exact absurd hmem hname

theorem parts_of_not_isSequence (h : n.isSequence = false) : n.parts = [n] := by
  cases n with
  | sequence => cases h
  | scalar | mapping | enclosing => rfl

theorem Alike.parts (h : Alike n n') : List.Forall₂ Alike n.parts n'.parts := by
  have hfinite := h.finite
  have hfinite' := h.finite'
  obtain ⟨-, hregrouped⟩ := h
  cases hregrouped with
  | same =>
      exact List.forall₂_same.mpr fun m hm =>
        ⟨isFinite_of_reaches hfinite (reaches_of_mem_parts hm), .same m⟩
  | sequence hitems =>
      rw [Node.parts, Node.parts, items_of_isFinite hfinite, items_of_isFinite hfinite']
      exact ((List.forall₂_and_left _ _).mpr ⟨allFinite_iff.mp hfinite, hitems⟩).imp
        fun m m' hm => ⟨hm.1, hm.2⟩
  | mapping hentries => exact .cons ⟨hfinite, .mapping hentries⟩ .nil

theorem Listed.parts {name : Text} (h : Listed name n n') :
    List.Forall₂ Alike n.parts n'.parts := by
  cases h with
  | kept halike => exact halike.parts
  | @single v' own tag start stop _ hn halike =>
      have hfinite : (Node.sequence own tag [v'] start stop).isFinite = true :=
        allFinite_iff.mpr fun m hm => List.mem_singleton.mp hm ▸ halike.finite'
      rw [parts_of_not_isSequence hn, Node.parts, items_of_isFinite hfinite]
      exact .cons halike .nil

/-- What a field holds has parts that are alike, whether it holds a list or not. -/
theorem Alike.partsOf (h : Alike n n') (name : String) :
    List.Forall₂ Alike (partsOf (n.get? name)) (partsOf (n'.get? name)) := by
  have hrel := h.below.get? name
  generalize n.get? name = value, n'.get? name = value' at hrel ⊢
  cases hrel with
  | none => exact .nil
  | some hvalue => exact hvalue.parts

/-- So the texts that a field holds are the same. -/
theorem Alike.textsOf_eq (h : Alike n n') (name : String) :
    textsOf (n'.get? name) = textsOf (n.get? name) := by
  have htexts : ∀ value : Option Node,
      textsOf value = (Yaml.partsOf value).flatMap fun m => m.text?.toList := by
    intro value
    cases value with
    | none => rfl
    | some n => exact List.filterMap_eq_flatMap_toList ..
  rw [htexts, htexts]
  exact flatMap_eq_of_forall₂ (h.partsOf name) fun m m' hm => by rw [hm.regrouped.text?_eq]

end Yaml.Node

/-- Mentions that any rule finds on the same lines, with the same message. -/
def Template.Mention.Same (m m' : Mention) : Prop :=
  ∀ ruleId, m'.finding? ruleId = m.finding? ruleId

theorem Template.findings_congr {mentions mentions' : List Mention} (ruleId : String)
    (h : List.Forall₂ Mention.Same mentions mentions') :
    findings ruleId mentions' = findings ruleId mentions := by
  have hfound : mentions'.mapM (Mention.finding? ruleId) =
      mentions.mapM (Mention.finding? ruleId) := by
    induction h with
    | nil => rfl
    | cons hm _ ih => rw [List.mapM_cons, List.mapM_cons, hm, ih]
  rw [findings, findings, hfound]

/-! ### Statements -/

namespace Rules.PolicyStatement

open TemplateAudit.Yaml.Node (Alike)

variable {s s' : Node} {r r' : Resource}

theorem isAllow_eq (h : Alike s s') : isAllow s' = isAllow s := by
  have heffect : Option.Rel Alike (s.get? "Effect") (s'.get? "Effect") := h.get? (by decide)
  rw [isAllow, isAllow]
  generalize s.get? "Effect" = effect, s'.get? "Effect" = effect' at heffect ⊢
  cases heffect with
  | none => rfl
  | some h => simp only [h.regrouped.text?_eq]

theorem actions_eq (h : Alike s s') : actions s' = actions s := h.textsOf_eq "Action"

/-- What is said of a statement as a whole starts and ends on the same lines. -/
theorem same_of_alike (h : Alike s s') (message : Text) :
    Mention.Same ⟨s, s, message⟩ ⟨s', s', message⟩ := by
  intro ruleId
  simp only [Mention.finding?, Node.spanFrom?, h.regrouped.start_eq, h.regrouped.lastLine?_eq]

theorem rel_wildcardAction? (owner : Text) (h : Alike s s') :
    Option.Rel Mention.Same (wildcardAction? owner s) (wildcardAction? owner s') := by
  rw [wildcardAction?, wildcardAction?, wildcardActions, wildcardActions, actions_eq h,
    isAllow_eq h]
  split
  · exact .some (same_of_alike h _)
  · exact .none

theorem rel_wildcardResource? (owner : Text) (h : Alike s s') :
    Option.Rel Mention.Same (wildcardResource? owner s) (wildcardResource? owner s') := by
  rw [wildcardResource?, wildcardResource?, h.textsOf_eq "Resource", actions_eq h, isAllow_eq h]
  split
  · exact .some (same_of_alike h _)
  · exact .none

theorem forall₂_statementsOf {policy policy' : Option Node} (h : Option.Rel Alike policy policy') :
    List.Forall₂ Alike (statementsOf policy) (statementsOf policy') := by
  cases h with
  | none => exact .nil
  | some h =>
      refine List.rel_filter (fun m m' hm => ?_) (h.partsOf "Statement")
      simp only [hm.regrouped.isMapping_eq]

/-- The statements in regrouped properties are alike, whatever the type of the resource. -/
theorem forall₂_ofResource (htype : r'.type = r.type)
    (hproperties : Option.Rel Alike r.properties? r'.properties?) :
    List.Forall₂ Alike (ofResource r) (ofResource r') := by
  rw [ofResource, ofResource, htype]
  generalize r.properties? = p, r'.properties? = p' at hproperties ⊢
  cases hproperties with
  | none => simp [partsOf, statementsOf]
  | some h =>
      simp only [Option.bind_some]
      split
      · exact List.rel_flatMap (h.partsOf "Policies") fun _ _ hpolicy =>
          forall₂_statementsOf (.some hpolicy)
      · split
        · exact List.rel_flatMap (h.partsOf "Policies") fun _ _ hpolicy =>
            forall₂_statementsOf (hpolicy.get? (by decide))
        · split
          · exact forall₂_statementsOf (h.get? (by decide))
          · exact .nil

/-! ### Trust policies -/

/-- The field for a trust policy. -/
def trustField : Text := "AssumeRolePolicyDocument"

/-- Whether a key is that of a trust policy. -/
def isTrustKey (key : Node) : Bool := key.text? == some trustField

/-- Nodes with the same entries in the same order but for trust policies, of which nothing is
asked. -/
def SameButTrust (p p' : Node) : Prop :=
  p'.entries.filter (fun e => !isTrustKey e.1) = p.entries.filter (fun e => !isTrustKey e.1)

/-- Any other field is looked up among the entries that are no trust policies. -/
theorem get?_eq_find? (p : Node) {name : String} (hname : (name : Text) ≠ trustField) :
    p.get? name =
      (((p.entries.filter fun e => !isTrustKey e.1).find? fun e =>
        (Node.field? e).any (Field.name · == (name : Text))).bind Node.field?).map Field.value := by
  rw [Node.get?, Node.fieldNamed?, Node.fields, List.find?_filterMap, List.find?_filter]
  congr 3
  funext e
  obtain ⟨key, value⟩ := e
  cases key with
  | scalar tag text =>
      by_cases htext : text = name
      · simp [isTrustKey, Node.text?, Node.field?, htext, hname]
      · simp [Node.field?, htext]
  | sequence | mapping | enclosing => simp [Node.field?]

theorem SameButTrust.get?_eq {p p' : Node} (h : SameButTrust p p') (name : String)
    (hname : (name : Text) ≠ trustField) : p'.get? name = p.get? name := by
  rw [get?_eq_find? p' hname, get?_eq_find? p hname, h]

/-- Statements are looked for under other fields. -/
theorem ofResource_eq_of_sameButTrust (htype : r'.type = r.type)
    (hproperties : Option.Rel SameButTrust r.properties? r'.properties?) :
    ofResource r' = ofResource r := by
  rw [ofResource, ofResource, htype]
  generalize r.properties? = p, r'.properties? = p' at hproperties ⊢
  cases hproperties with
  | none => rfl
  | some h =>
      simp only [Option.bind_some, h.get?_eq "Policies" (by decide),
        h.get?_eq "PolicyDocument" (by decide)]

/-! ### Templates -/

/-- Descriptions of resources of the same type, whose properties are in a relation. -/
structure IsRestyledResource (Q : Node → Node → Prop) (n n' : Node) : Prop where
  type : Node.Along (fun v v' => v'.text? = v.text?) ["Type"] n n'
  properties : Node.Along Q ["Properties"] n n'

/-- Templates with the same resources in the same order but for their properties, which are in a
relation. -/
def IsRestyling (Q : Node → Node → Prop) : Node → Node → Prop :=
  Node.Along (Node.Below fun _ => IsRestyledResource Q) ["Resources"]

/-- Resources of one name with statements that are alike. -/
structure StatementsAlike (r r' : Resource) : Prop where
  name : r'.name = r.name
  statements : List.Forall₂ Alike (ofResource r) (ofResource r')

section

variable {Q : Node → Node → Prop} {root root' : Node}

theorem IsRestyling.forall₂_resources (h : IsRestyling Q root root') :
    List.Forall₂ (fun r r' => r'.name = r.name ∧ r'.type = r.type ∧
      Option.Rel Q r.properties? r'.properties?) (resources root) (resources root') := by
  refine List.rel_map (fun f f' hf => ?_) (forall₂_fieldsOf (Node.Along.get? h))
  exact ⟨hf.name, Resource.type_eq_of_along hf.value.type, hf.value.properties.get?⟩

/-- In both kinds of rewritten templates there are statements alike in the same places. -/
theorem IsRestyling.statementsAlike (hroot : root.isFinite = true)
    (h : IsRestyling Node.Regrouped root root' ∨ IsRestyling SameButTrust root root') :
    List.Forall₂ StatementsAlike (resources root) (resources root') := by
  have hfinite : ∀ r ∈ resources root, r.body.isFinite = true := fun r hr =>
    Node.isFinite_of_reaches hroot (reaches_body hr)
  rcases h with h | h
  · refine ((List.forall₂_and_left _ _).mpr ⟨hfinite, h.forall₂_resources⟩).imp ?_
    rintro r r' ⟨hbody, hname, htype, hproperties⟩
    refine ⟨hname, forall₂_ofResource htype ?_⟩
    have hp : ∀ p, r.properties? = some p → p.isFinite = true := fun p hp =>
      Node.isFinite_of_reaches hbody (Node.reaches_of_get? hp)
    generalize r.properties? = p, r'.properties? = p' at hproperties hp ⊢
    cases hproperties with
    | none => exact .none
    | some hregrouped => exact .some ⟨hp _ rfl, hregrouped⟩
  · refine ((List.forall₂_and_left _ _).mpr ⟨hfinite, h.forall₂_resources⟩).imp ?_
    rintro r r' ⟨hbody, hname, htype, hproperties⟩
    refine ⟨hname, ?_⟩
    rw [ofResource_eq_of_sameButTrust htype hproperties]
    exact List.forall₂_same.mpr fun s hs =>
      ⟨Node.isFinite_of_reaches hbody (reaches_of_mem_ofResource hs), .same s⟩

/-- A rule that says the same of statements that are alike says the same of such templates. -/
theorem forall₂_mentions {mention? : Text → Node → Option Mention}
    (hmention : ∀ owner s s', Alike s s' →
      Option.Rel Mention.Same (mention? owner s) (mention? owner s'))
    (h : List.Forall₂ StatementsAlike (resources root) (resources root')) :
    List.Forall₂ Mention.Same
      ((resources root).flatMap fun r => (ofResource r).filterMap (mention? r.name))
      ((resources root').flatMap fun r => (ofResource r).filterMap (mention? r.name)) := by
  refine List.rel_flatMap h fun r r' hr => ?_
  rw [hr.name]
  exact List.rel_filterMap (hmention r.name) hr.statements

end

end Rules.PolicyStatement

open TemplateAudit.Rules
open TemplateAudit.Rules.PolicyStatement

/-- The rules about policy statements find the same, on the same lines and with the same messages,
in any two templates that differ in one of these ways, if no node of the first contains itself:

* any values of `Policies`, `Statement`, `Action` and `Resource` that are no lists are written as
  lists of one, in the properties of any resources;
* the trust policies in the properties of any resources are others, or none.

So it is in documents that are such templates. -/
theorem policies_read_alike {r : Rule} (hr : r ∈ [actionRule, resourceRule]) {root root' : Node}
    (hclosed : root.IsClosed) (hacyclic : root.IsAcyclic)
    (h : IsRestyling Node.Regrouped root root' ∨ IsRestyling SameButTrust root root') :
    ∃ w ∈ walks, w.rule = r ∧ ∃ fs, Template.findings r.id (w.mentions root) = .ok fs ∧
      Template.findings r.id (w.mentions root') = .ok fs ∧
      ∀ d d' : Document, d.template = .ok (some root) → d'.template = .ok (some root') →
        r.evaluate d = .ofSearch (.ok fs) ∧ r.evaluate d' = .ofSearch (.ok fs) := by
  have hstatements :=
    IsRestyling.statementsAlike (hclosed.isFinite_iff_isAcyclic.mpr hacyclic) h
  have hwalk : ∃ w ∈ walks, w.rule = r ∧
      List.Forall₂ Mention.Same (w.mentions root) (w.mentions root') := by
    simp only [List.mem_cons, List.not_mem_nil, or_false] at hr
    rcases hr with rfl | rfl
    · exact ⟨walks[0], by simp [walks], rfl,
        forall₂_mentions (fun owner _ _ => rel_wildcardAction? owner) hstatements⟩
    · exact ⟨walks[2], by simp [walks], rfl,
        forall₂_mentions (fun owner _ _ => rel_wildcardResource? owner) hstatements⟩
  obtain ⟨w, hw, rfl, hmentions⟩ := hwalk
  have hfound := w.findings_mentions hclosed hacyclic
  have hfound' := (findings_congr w.rule.id hmentions).trans hfound
  refine ⟨w, hw, rfl, _, hfound, hfound', fun d d' hd hd' => ?_⟩
  rw [w.evaluate_eq]
  simp only [Template.search, hd, hd', hfound, hfound', and_self]

/-- A mapping that starts on a line. -/
def entriesOn (line : Nat) (entries : List (Node × Node)) : Node :=
  .mapping none "tag:yaml.org,2002:map" entries ⟨0, line, 0⟩ ⟨0, line, 1⟩

/-- A list of one. -/
def listOfOne (n : Node) : Node :=
  .sequence none "tag:yaml.org,2002:seq" [n] n.start n.start

/-- The properties of a role with one policy that allows all. Its fields for lists hold what `list`
makes of one thing. -/
def permissive (list : Node → Node) (trust : List (Node × Node)) : Node :=
  entriesOn 4 <| trust ++
    [(wordOn 5 "Policies", list <| entryOn 6 "PolicyDocument" <| entryOn 7 "Statement" <| list <|
      entriesOn 8 [(wordOn 8 "Action", list (wordOn 8 "*")),
        (wordOn 9 "Resource", list (wordOn 9 "*"))])]

/-- A trust policy that is a statement of the kind that the rules look for. -/
def trusting : List (Node × Node) :=
  [(wordOn 4 "AssumeRolePolicyDocument", entryOn 4 "Statement" (entryOn 4 "Action" (wordOn 4 "*")))]

/-- A template with one role. -/
def roleWith (properties : Node) : Node :=
  entryOn 0 "Resources" <| entryOn 1 "role" <| entriesOn 2
    [(wordOn 2 "Type", wordOn 2 "AWS::IAM::Role"), (wordOn 3 "Properties", properties)]

theorem isRestyling_roleWith {Q : Node → Node → Prop} {properties properties' : Node}
    (h : Q properties properties') :
    IsRestyling Q (roleWith properties) (roleWith properties') := by
  refine along_entryOn (.cons ⟨rfl, fun _ _ => ⟨?_, ?_⟩⟩ .nil)
  · exact .cons ⟨rfl, fun _ _ _ => rfl⟩ (.cons ⟨rfl, off_path (by decide)⟩ .nil)
  · exact .cons ⟨rfl, off_path (by decide)⟩ (.cons ⟨rfl, fun _ _ _ => h⟩ .nil)

theorem regrouped_permissive (trust : List (Node × Node)) :
    Node.Regrouped (permissive id trust) (permissive listOfOne trust) := by
  refine .mapping (List.rel_append (List.forall₂_same.mpr fun e _ => .kept (.same e.2))
    (.cons (.single ⟨"Policies", rfl, by decide⟩ rfl ?_) .nil))
  refine .mapping (.cons (.kept (.mapping (.cons (.single ⟨"Statement", rfl, by decide⟩ rfl ?_)
    .nil))) .nil)
  exact .mapping (.cons (.single ⟨"Action", rfl, by decide⟩ rfl (.same _))
    (.cons (.single ⟨"Resource", rfl, by decide⟩ rfl (.same _)) .nil))

theorem policies_read_alike_role :
    let root := roleWith (permissive id trusting)
    ∀ root' ∈ [roleWith (permissive listOfOne trusting), roleWith (permissive id [])],
      ∀ r ∈ [actionRule, resourceRule], ∃ w ∈ walks, w.rule = r ∧
        ∃ fs, Template.findings r.id (w.mentions root) = .ok fs ∧
          Template.findings r.id (w.mentions root') = .ok fs ∧ fs.length = 1 := by
  intro root root' hroot' r hr
  have hfinite : root.isFinite = true := by decide +kernel
  have hrestyled : IsRestyling Node.Regrouped root root' ∨ IsRestyling SameButTrust root root' := by
    simp only [List.mem_cons, List.not_mem_nil, or_false] at hroot'
    rcases hroot' with rfl | rfl
    · exact .inl (isRestyling_roleWith (regrouped_permissive trusting))
    · exact .inr (isRestyling_roleWith rfl)
  have hcount : ∀ w ∈ walks, w.rule.id ∈ [actionId, resourceId] →
      (Template.findings w.rule.id (w.mentions root)).toOption.map List.length = some 1 := by
    decide +kernel
  obtain ⟨w, hw, rfl, fs, hfound, hfound', -⟩ := policies_read_alike hr
    (fun _ => Node.not_refers_of_isFinite hfinite) (Node.isAcyclic_of_isFinite hfinite) hrestyled
  have hlength := hcount w hw (List.mem_map_of_mem hr)
  rw [hfound] at hlength
  exact ⟨w, hw, rfl, fs, hfound, hfound', Option.some.inj hlength⟩

end TemplateAudit
