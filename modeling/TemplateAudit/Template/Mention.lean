import TemplateAudit.Rule
import TemplateAudit.Template.Span

/-!
# TemplateAudit.Template.Mention

What rules say about the nodes of a template. A `Mention` names a node and the node where its
place in the template starts, mostly the key. `findings` turns mentions into findings, on the
lines that the nodes cover.
-/

namespace TemplateAudit.Template

open TemplateAudit.Yaml (Node)

/-- Something said about a node. -/
structure Mention where
  anchor : Node
  node : Node
  message : Text

/-- The finding that a mention is, unless its node has no end. -/
def Mention.finding? (ruleId : String) (m : Mention) : Option Finding :=
  (m.node.spanFrom? m.anchor).map fun span =>
    .ofLines ruleId span.first span.last m.message

/-- The findings that mentions are. -/
def findings (ruleId : String) (mentions : List Mention) : Except Failure (List Finding) :=
  match mentions.mapM (Mention.finding? ruleId) with
  | some fs => .ok fs
  | none => .error .endless

/-- The findings of a search through the template that a document is; an empty document has
none. -/
def search (ruleId : String) (mentions : Node → List Mention) (d : Document) :
    Except Failure (List Finding) :=
  match d.template with
  | .error fault => .error (fault.failure d.text)
  | .ok none => .ok []
  | .ok (some root) => findings ruleId (mentions root)

end TemplateAudit.Template
