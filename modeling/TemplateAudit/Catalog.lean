import TemplateAudit.Rule
import TemplateAudit.Rules.AccessKey
import TemplateAudit.Rules.EnvironmentSecret
import TemplateAudit.Rules.FunctionTimeout
import TemplateAudit.Rules.Network
import TemplateAudit.Rules.PolicyStatement

/-!
# TemplateAudit.Catalog

Catalogs: rules in an order, each known by its identifier.

The order decides between findings of equal importance, so nothing ever changes it. A catalog is
made from candidates, which may lack an identifier; no two rules of a catalog share one. Beside
the rules a catalog keeps their places, by identifier, and all looking up goes through these. Both
grow together, rule by rule (`Catalog.add`), and the fields of `Catalog` say that they are in step.

Catalogs are asked about values. A value that cannot be a key is not looked up at all: to ask for
one is a `Catalog.Fault`.
-/

namespace TemplateAudit

open TemplateAudit.Data (Value)

/-- Something that is offered as a rule: what it has for an identifier, how it is shown, and the
rule that it is under an identifier. -/
structure Candidate where
  id : Option Value
  shown : String
  rule : String → Rule
  /-- The rule is known by the identifier that it is given. -/
  id_rule : ∀ id, (rule id).id = id := by intro _; rfl
  /-- A text that is offered as an identifier is one of characters. -/
  id_whole : ∀ t, id = some (.text t) → Text.ofString t.string = t

/-- The identifier of a candidate: a text that is not empty. -/
def Candidate.identifier? (c : Candidate) : Option { id : String // id ≠ "" } :=
  match c.id with
  | some (.text t) => if h : t.string ≠ "" then some ⟨t.string, h⟩ else none
  | _ => none

/-- Why there is no catalog, or no such rule in it. -/
inductive CatalogError
  | noIdentifier (shown : String)
  | duplicate (id : String)
  | unknown (id : Value)
  | unknownIds (ids : List Text)
  /-- What was loaded as a catalog is none. -/
  | notCatalog (kind : String)
  /-- Loading failed. -/
  | loader (failure : Failure)
  /-- Loading refused, in its own words. -/
  | refused (text : String)

/-- The wording of an error. -/
def CatalogError.message : CatalogError → String
  | .noIdentifier shown => "Rule " ++ shown ++ " has no identifier"
  | .duplicate id => "Duplicate rule identifier: " ++ id
  | .unknown id => "Unknown rule identifier: " ++ id.printed.string
  | .unknownIds ids => "Unknown rule identifier(s): " ++ (Text.join ", " ids).string
  | .notCatalog kind => "Catalog loader returned " ++ kind ++ ", expected RuleCatalog"
  | .loader failure => "Catalog loader failed: " ++ failure.message
  | .refused text => text

/-! ## Rules and their places -/

/-- The identifier of a rule as it is looked up. -/
def Rule.key (r : Rule) : Text := .ofString r.id

/-- The places of some rules by their identifiers, counted from a number on. -/
def placesFrom (n : Nat) : List Rule → List (Text × Nat)
  | [] => []
  | r :: rs => (r.key, n) :: placesFrom (n + 1) rs

theorem placesFrom_append (n : Nat) (rs rs' : List Rule) :
    placesFrom n (rs ++ rs') = placesFrom n rs ++ placesFrom (n + rs.length) rs' := by
  induction rs generalizing n with
  | nil => rfl
  | cons r rs ih =>
      rw [List.cons_append, placesFrom, ih, placesFrom, List.cons_append, List.length_cons,
        Nat.add_assoc, Nat.add_comm 1]

/-- An identifier that has no place is that of no rule. -/
theorem ne_key_of_lookup_placesFrom {n : Nat} {rs : List Rule} {id : Text}
    (h : (placesFrom n rs).lookup id = none) : ∀ r ∈ rs, r.key ≠ id := by
  induction rs generalizing n with
  | nil => simp
  | cons r rs ih =>
      rw [placesFrom, List.lookup_cons] at h
      split at h
      case h_1 => cases h
      case h_2 hne =>
          intro r' hr' hid
          rcases List.mem_cons.mp hr' with rfl | hr'
          · simp [hid] at hne
          · exact ih h r' hr' hid

/-- Rules in an order, and where each of them stands. -/
structure Catalog where
  rules : List Rule
  /-- The place of the rule with an identifier, counted from zero. -/
  places : List (Text × Nat)
  /-- Every rule stands in its place. -/
  places_eq : places = placesFrom 0 rules
  /-- No two rules share an identifier. -/
  nodup_ids : (rules.map Rule.id).Nodup
  /-- No identifier is empty. -/
  id_ne_empty : ∀ r ∈ rules, r.id ≠ ""

namespace Catalog

/-- The catalog of rules with different identifiers. -/
def ofRules (rules : List Rule) (nodup_ids : (rules.map Rule.id).Nodup := by decide)
    (id_ne_empty : ∀ r ∈ rules, r.id ≠ "" := by decide) : Catalog :=
  { rules, places := placesFrom 0 rules, places_eq := rfl, nodup_ids, id_ne_empty }

@[simp] theorem rules_ofRules {rules : List Rule} (nodup_ids : (rules.map Rule.id).Nodup)
    (id_ne_empty : ∀ r ∈ rules, r.id ≠ "") :
    (ofRules rules nodup_ids id_ne_empty).rules = rules := rfl

/-- The identifiers of the rules, in order. -/
def ids (c : Catalog) : List String := c.rules.map Rule.id

/-- The number of rules. -/
def size (c : Catalog) : Nat := c.rules.length

/-- How a catalog is shown. -/
def shown (c : Catalog) : String :=
  "RuleCatalog(" ++ Value.bracketed "[" "]" (c.ids.map Text.quoted) ++ ")"

/-- The place of the rule with an identifier. -/
def placeOf? (c : Catalog) (id : Text) : Option Nat := c.places.lookup id

/-- The place of the rule whose identifier a value is; no identifier is anything but a text. -/
def placeFor? (c : Catalog) : Value → Option Nat
  | .text id => c.placeOf? id
  | _ => none

/-- The rule whose identifier a value is. -/
def ruleFor? (c : Catalog) (id : Value) : Option Rule :=
  (c.placeFor? id).bind fun n => c.rules[n]?

/-! ## Making catalogs -/

/-- The catalog with one more rule, under an identifier that has no place yet. -/
def add (c : Catalog) (r : Rule) (hid : r.id ≠ "") (hnew : c.placeOf? r.key = none) : Catalog where
  rules := c.rules ++ [r]
  places := c.places ++ [(r.key, c.rules.length)]
  places_eq := by rw [placesFrom_append, c.places_eq, Nat.zero_add]; rfl
  nodup_ids := by
    have hne : ∀ r' ∈ c.rules, r'.key ≠ r.key := by
      rw [placeOf?, c.places_eq] at hnew
      exact ne_key_of_lookup_placesFrom hnew
    rw [List.map_append, List.nodup_append]
    refine ⟨c.nodup_ids, by simp, ?_⟩
    intro id hmem id' hmem' heq
    obtain ⟨r', hr', rfl⟩ := List.mem_map.mp hmem
    obtain rfl := List.mem_singleton.mp hmem'
    exact hne r' hr' (congrArg Text.ofString heq)
  id_ne_empty := by
    intro r' hr'
    rcases List.mem_append.mp hr' with hr' | hr'
    · exact c.id_ne_empty r' hr'
    · obtain rfl := List.mem_singleton.mp hr'
      exact hid

/-- The catalog with the rules of some candidates after those that it has. -/
def extend (c : Catalog) : List Candidate → Except CatalogError Catalog
  | [] => .ok c
  | candidate :: more =>
    match candidate.identifier? with
    | none => .error (.noIdentifier candidate.shown)
    | some id =>
      let r := candidate.rule id
      have hid : r.id = id := candidate.id_rule id
      if hnew : c.placeOf? r.key = none then (c.add r (hid ▸ id.property) hnew).extend more
      else .error (.duplicate id)

/-- The catalog of some candidates. -/
def ofCandidates (cs : List Candidate) : Except CatalogError Catalog := (ofRules []).extend cs

/-- The catalog with only some of the rules. Those that are left keep their order, and move up. -/
def filter (c : Catalog) (keep : Rule → Bool) : Catalog :=
  ofRules (c.rules.filter keep) (c.nodup_ids.sublist (List.filter_sublist.map Rule.id))
    fun r hr => c.id_ne_empty r (List.mem_filter.mp hr).1

/-- The catalog without the rules whose identifiers are among some texts. -/
def dropping (c : Catalog) (ids : List Text) : Catalog := c.filter fun r => !ids.contains r.key

/-! ## Asking catalogs -/

/-- Why a catalog does not answer. -/
inductive Fault
  | refused (error : CatalogError)
  /-- Something of this kind can be no identifier. -/
  | notKey (kind : String)
  /-- Identifiers are unknown and not all of them are texts. -/
  | notTexts

/-- Refuses values that cannot be keys. -/
def checkKey (v : Value) : Except Fault Unit :=
  if v.isKey then .ok () else .error (.notKey v.kind)

/-- The rule with an identifier, if there is one. -/
def get (c : Catalog) (id : Value) : Except Fault (Option Rule) := do
  checkKey id
  return c.ruleFor? id

/-- Whether there is a rule with an identifier. -/
def contains (c : Catalog) (id : Value) : Except Fault Bool := do
  checkKey id
  return (c.placeFor? id).isSome

/-- The place of the rule with an identifier. -/
def position (c : Catalog) (id : Value) : Except Fault Nat := do
  checkKey id
  match c.placeFor? id with
  | some n => return n
  | none => throw (.refused (.unknown id))

/-- The catalog without the rules whose identifiers are among some values. -/
def without (c : Catalog) (ids : List Value) : Except Fault Catalog := do
  ids.forM checkKey
  return c.dropping (ids.filterMap textOfValue?)

/-! ## The built-in catalog -/

/-- The rules of this program, in order. -/
def builtin : Catalog :=
  .ofRules [
    Rules.AccessKey.rule,
    Rules.PolicyStatement.actionRule,
    Rules.EnvironmentSecret.rule,
    Rules.PolicyStatement.resourceRule,
    Rules.Network.openRangeRule,
    Rules.Network.missingGroupRule,
    Rules.FunctionTimeout.rule]

/-- Texts in order, each once. -/
def sortedSet (ts : List Text) : List Text := ts.eraseDups.mergeSort Text.notAfter

/-- The texts that values are, if all of them are. -/
def allTexts? (vs : List Value) : Option (List Text) := vs.mapM textOfValue?

/-- The catalog with only the rules whose identifiers are among some texts. -/
def only (c : Catalog) (ids : List Text) : Catalog :=
  c.dropping ((c.rules.map Rule.key).filter fun id => !ids.contains id)

/-- The built-in rules that are enabled, if that is said, and not disabled. All identifiers must
be known. -/
def load (enabled : Option (List Value)) (disabled : List Value) : Except Fault Catalog := do
  let requested := enabled.getD [] ++ disabled
  requested.forM checkKey
  match allTexts? (requested.filter fun id => (builtin.placeFor? id).isNone) with
  | none => throw .notTexts
  | some (name :: names) => throw (.refused (.unknownIds (sortedSet (name :: names))))
  | some [] =>
    match enabled with
    | none => builtin.without disabled
    | some ids => (builtin.only (ids.filterMap textOfValue?)).without disabled

end Catalog

end TemplateAudit
