import Mathlib.Data.List.Forall2
import TemplateAudit.Template.Resource

/-!
# TemplateAudit.Proofs.Related

Nodes of two templates that are **related**.

What a rule says of two templates is compared by going down both of them at once. Nodes with the
same keys whose values are in a relation are `Below` it, and `Along` a path the relation is asked
for only where the path leads to. Looking something up in related nodes gives related nodes, or none
in both (`Below.get?`, `Along.path?`), so a proof about two templates follows the paths on which a
rule looks. Off these paths nothing is asked.
-/

namespace TemplateAudit

/-- Lists give the same, one item after the other, if items in the same place do. -/
theorem flatMap_eq_of_forall₂ {α β γ : Type} {R : α → β → Prop} {f : α → List γ} {g : β → List γ}
    {xs : List α} {ys : List β} (h : List.Forall₂ R xs ys) (hfg : ∀ x y, R x y → g y = f x) :
    ys.flatMap g = xs.flatMap f := by
  induction h with
  | nil => rfl
  | cons hxy _ ih => rw [List.flatMap_cons, List.flatMap_cons, hfg _ _ hxy, ih]

namespace Yaml

/-- Fields with the same key, whose values are in a relation that may depend on the name. -/
structure Field.Related (R : Text → Node → Node → Prop) (f f' : Field) : Prop where
  name : f'.name = f.name
  key : f'.key = f.key
  value : R f.name f.value f'.value

namespace Node

variable {R : Text → Node → Node → Prop} {Q : Node → Node → Prop} {n n' : Node}

/-! ### Related nodes -/

/-- Nodes with the same keys in the same order. The values of a key with a name are in a relation,
which may depend on that name. -/
def Below (R : Text → Node → Node → Prop) (n n' : Node) : Prop :=
  List.Forall₂ (fun e e' => e'.1 = e.1 ∧ ∀ name ∈ e.1.text?, R name e.2 e'.2) n.entries n'.entries

/-- Nodes that are in a relation wherever a path leads to. -/
def Along (Q : Node → Node → Prop) : List String → Node → Node → Prop
  | [] => Q
  | name :: names => Below fun key v v' => key = (name : Text) → Along Q names v v'

theorem Below.fields (h : Below R n n') :
    List.Forall₂ (Field.Related R) n.fields n'.fields := by
  refine List.rel_filterMap ?_ h
  rintro ⟨key, value⟩ ⟨key', value'⟩ ⟨rfl, hvalue⟩
  cases key' with
  | scalar tag name => exact .some ⟨rfl, rfl, hvalue name rfl⟩
  | sequence | mapping | enclosing => exact .none

/-- What a name stands for is related. -/
theorem Below.get? (h : Below R n n') (name : String) :
    Option.Rel (R name) (n.get? name) (n'.get? name) := by
  have hfields := h.fields
  rw [Node.get?, Node.get?, fieldNamed?, fieldNamed?]
  generalize n.fields = fs, n'.fields = fs' at hfields ⊢
  induction hfields with
  | nil => exact .none
  | @cons f f' _ _ hf _ ih =>
      by_cases hname : f.name = name
      · rw [List.find?_cons_of_pos (by simpa using hname),
          List.find?_cons_of_pos (by simpa [hf.name] using hname)]
        exact .some (hname ▸ hf.value)
      · rw [List.find?_cons_of_neg (by simpa using hname),
          List.find?_cons_of_neg (by simpa [hf.name] using hname)]
        exact ih

/-- So is what a path leads to. -/
theorem Along.path? {names : List String} (h : Along Q names n n') :
    Option.Rel Q (n.path? names) (n'.path? names) := by
  induction names generalizing n n' with
  | nil => exact .some h
  | cons name names ih =>
      have hget := Below.get? h name
      rw [Node.path?, Node.path?]
      generalize n.get? name = value, n'.get? name = value' at hget ⊢
      cases hget with
      | none => exact .none
      | some hvalue => exact ih (hvalue rfl)

theorem Along.get? {name : String} (h : Along Q [name] n n') :
    Option.Rel Q (n.get? name) (n'.get? name) := by
  have hsingle : ∀ m : Node, m.path? [name] = m.get? name := fun _ => Option.bind_fun_some _
  rw [← hsingle, ← hsingle]
  exact h.path?

end Node

/-- Nodes that may be missing have related fields. -/
theorem forall₂_fieldsOf {R : Text → Node → Node → Prop} {node node' : Option Node}
    (h : Option.Rel (Node.Below R) node node') :
    List.Forall₂ (Field.Related R) (fieldsOf node) (fieldsOf node') := by
  cases h with
  | none => exact .nil
  | some hbelow => exact hbelow.fields

end Yaml

open TemplateAudit.Yaml in
/-- Fields whose types have the same text describe resources of the same type. -/
theorem Template.Resource.type_eq_of_along {f f' : Field}
    (h : Node.Along (fun v v' => v'.text? = v.text?) ["Type"] f.value f'.value) :
    (Resource.ofField f').type = (Resource.ofField f).type := by
  have htype := h.get?
  rw [Resource.ofField, Resource.ofField]
  dsimp only
  generalize f.value.get? "Type" = v, f'.value.get? "Type" = v' at htype ⊢
  cases htype with
  | none => rfl
  | some htext => rw [Option.bind_some, Option.bind_some, htext]

/-! ### Templates by hand -/

open TemplateAudit.Yaml

/-- A word on a line. -/
def wordOn (line : Nat) (text : String) : Node :=
  .scalar "tag:yaml.org,2002:str" text ⟨0, line, 0⟩ ⟨0, line, 1⟩

/-- A mapping on a line, with one key. -/
def entryOn (line : Nat) (key : String) (value : Node) : Node :=
  .mapping none "tag:yaml.org,2002:map" [(wordOn line key, value)] ⟨0, line, 0⟩ ⟨0, line, 1⟩

/-- Of the value under another word than the next one of a path, nothing is asked. -/
theorem off_path {line : Nat} {key name : String} {P : Prop} (h : (key : Text) ≠ name) :
    ∀ text ∈ (wordOn line key).text?, text = (name : Text) → P := by
  rintro _ ⟨⟩ heq
  exact absurd heq h

theorem along_entryOn {Q : Node → Node → Prop} {line : Nat} {name : String} {names : List String}
    {v v' : Node} (h : Node.Along Q names v v') :
    Node.Along Q (name :: names) (entryOn line name v) (entryOn line name v') :=
  .cons ⟨rfl, fun _ _ _ => h⟩ .nil

end TemplateAudit
