import TemplateAudit.Yaml.Node

/-!
# TemplateAudit.Template.Lookup

Looking things up in the nodes of a template.

Only keys that are scalars have names, so only those fields are looked at. Of two fields with
one name the first counts. Where a list may stand, a single node counts as a list of one.
-/

namespace TemplateAudit.Yaml

/-- A field of a mapping: the text of its key, the key and the value. -/
structure Field where
  name : Text
  key : Node
  value : Node

namespace Node

/-- The field that a key and a value make, if the key is a scalar. -/
def field? (entry : Node × Node) : Option Field :=
  match entry.1 with
  | .scalar _ name _ _ => some { name, key := entry.1, value := entry.2 }
  | _ => none

/-- The fields of a mapping. -/
def fields (node : Node) : List Field := node.entries.filterMap field?

/-- The first field with a name. -/
def fieldNamed? (node : Node) (name : String) : Option Field :=
  node.fields.find? fun f => f.name == name

/-- The value of a field. -/
def get? (node : Node) (name : String) : Option Node :=
  (node.fieldNamed? name).map Field.value

/-- The value at the end of a path of fields. -/
def path? (node : Node) : List String → Option Node
  | [] => some node
  | name :: names => (node.get? name).bind fun value => value.path? names

/-- The items of a sequence; any other node is its own only item. -/
def parts (node : Node) : List Node :=
  match node with
  | .sequence .. => node.items
  | _ => [node]

/-- The texts among the parts of a node. -/
def texts (node : Node) : List Text := node.parts.filterMap text?

/-- Whether the value of a node is only known when the template is deployed: a tag of its own,
or a mapping with the one key that calls for such a value. -/
def isIntrinsic (node : Node) : Bool :=
  node.tag.startsWith "!" ||
    match node.entries with
    | [(key, _)] =>
      match key.text? with
      | some name => name == "Ref" || (Text.ofString "Fn::").isPrefixOf name
      | none => false
    | _ => false

end Node

/-- The fields of a mapping that may be missing. -/
def fieldsOf (node : Option Node) : List Field := node.elim [] Node.fields

/-- The parts of a node that may be missing. -/
def partsOf (node : Option Node) : List Node := node.elim [] Node.parts

/-- The texts of a node that may be missing. -/
def textsOf (node : Option Node) : List Text := node.elim [] Node.texts

end TemplateAudit.Yaml
