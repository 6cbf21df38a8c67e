import TemplateAudit.Template.Lookup

/-!
# TemplateAudit.Template.Resource

The resources that a template declares: the fields of its `Resources` section.
-/

namespace TemplateAudit.Template

open TemplateAudit.Yaml

/-- A resource: its name, the key that holds the name, its description and its type, which is
empty if none is given. -/
structure Resource where
  name : Text
  key : Node
  body : Node
  type : Text

/-- The resource that a field describes. -/
def Resource.ofField (f : Field) : Resource :=
  { name := f.name, key := f.key, body := f.value,
    type := ((f.value.get? "Type").bind Node.text?).getD "" }

/-- The properties of a resource. -/
def Resource.properties? (r : Resource) : Option Node := r.body.get? "Properties"

/-- The types of resources that are functions. -/
def functionTypes : List Text := ["AWS::Serverless::Function", "AWS::Lambda::Function"]

/-- Whether a resource is a function. -/
def Resource.isFunction (r : Resource) : Bool := functionTypes.contains r.type

/-- The resources of a template, in order. -/
def resources (root : Node) : List Resource :=
  (fieldsOf (root.get? "Resources")).map Resource.ofField

end TemplateAudit.Template
