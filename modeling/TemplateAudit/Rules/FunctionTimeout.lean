import TemplateAudit.Template.Mention
import TemplateAudit.Template.Resource

/-!
# TemplateAudit.Rules.FunctionTimeout

Functions without a timeout of their own. A timeout that all functions share counts for those
functions that take shared settings.
-/

namespace TemplateAudit.Rules.FunctionTimeout

open TemplateAudit.Template
open TemplateAudit.Yaml (Node)

/-- The timeout that a function has if none is set. -/
def defaultSeconds : Nat := 3

/-- Whether all functions share a timeout. -/
def isShared (root : Node) : Bool := (root.path? ["Globals", "Function", "Timeout"]).isSome

/-- Whether a resource is a function without a timeout. -/
def lacksTimeout (shared : Bool) (r : Resource) : Bool :=
  r.isFunction && !(r.type == "AWS::Serverless::Function" && shared) &&
    (r.properties?.bind (·.get? "Timeout")).isNone

/-- What is said of a resource. -/
def ofResource (shared : Bool) (r : Resource) : List Mention :=
  if lacksTimeout shared r then
    [{ anchor := r.key, node := r.body,
       message := r.name ++ s!": no Timeout set, defaults to {defaultSeconds} seconds" }]
  else []

/-- What is said of a template. -/
def mentions (root : Node) : List Mention :=
  (resources root).flatMap (ofResource (isShared root))

/-- The identifier of the rule. -/
def id : String := "function-missing-timeout"

/-- The rule. -/
def rule : Rule :=
  { id
    title := some <| .ofString "Function relies on the default timeout"
    importance := .low
    recommendation := some <| .ofString <|
      "Set Timeout explicitly on the function (or under Globals.Function for SAM) so slow " ++
      "dependencies fail fast and retries stay predictable."
    evaluate := fun d => .ofSearch (search id mentions d) }

end TemplateAudit.Rules.FunctionTimeout
