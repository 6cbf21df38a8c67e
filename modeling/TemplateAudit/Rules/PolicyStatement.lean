import TemplateAudit.Template.Mention
import TemplateAudit.Template.Resource

/-!
# TemplateAudit.Rules.PolicyStatement

Policy statements that allow too much: one rule for actions, one for resources.

The statements that are looked at are those in the policies of functions and roles, and in
policies that are resources of their own. Trust policies are left out: they say who may take a
role, not what the role may do.
-/

namespace TemplateAudit.Rules.PolicyStatement

open TemplateAudit.Template
open TemplateAudit.Yaml (Node partsOf textsOf)

/-! ## Statements -/

/-- The statements of a policy. -/
def statementsOf (policy : Option Node) : List Node :=
  (partsOf (policy.bind (·.get? "Statement"))).filter Node.isMapping

/-- The types of resources that are policies. -/
def policyTypes : List Text := ["AWS::IAM::Policy", "AWS::IAM::ManagedPolicy"]

/-- The statements of a resource. -/
def ofResource (r : Resource) : List Node :=
  let property (name : String) : Option Node := r.properties?.bind (·.get? name)
  if r.type == "AWS::Serverless::Function" then
    (partsOf (property "Policies")).flatMap fun policy => statementsOf (some policy)
  else if r.type == "AWS::IAM::Role" then
    (partsOf (property "Policies")).flatMap fun policy =>
      statementsOf (policy.get? "PolicyDocument")
  else if policyTypes.contains r.type then statementsOf (property "PolicyDocument")
  else []

/-- The statements of a template, each with the name of its resource. -/
def statements (root : Node) : List (Text × Node) :=
  (resources root).flatMap fun r => (ofResource r).map fun statement => (r.name, statement)

/-- Whether a statement allows something; without an effect it does. -/
def isAllow (statement : Node) : Bool :=
  match statement.get? "Effect" with
  | none => true
  | some effect =>
    match effect.text? with
    | some text => Text.upper text.string == "ALLOW"
    | none => false

/-- The actions of a statement. -/
def actions (statement : Node) : List Text := textsOf (statement.get? "Action")

/-! ## Wildcard actions -/

/-- How the actions of services start that guard other services. -/
def guardedServices : List String := ["iam:", "kms:", "sts:", "organizations:"]

/-- Whether an action stands for all actions, or for several of a service that guards others. -/
def isWildcardAction (action : Text) : Bool :=
  let cs := Text.lowerChars action.chars
  cs == ['*'] ||
    (cs.contains '*' && guardedServices.any fun service => service.toList.isPrefixOf cs)

/-- The wildcard actions of a statement. -/
def wildcardActions (statement : Node) : List Text :=
  (actions statement).filter isWildcardAction

/-- What is said of a statement with wildcard actions. -/
def wildcardAction? (owner : Text) (statement : Node) : Option Mention :=
  let flagged := wildcardActions statement
  if isAllow statement && !flagged.isEmpty then
    some {
      anchor := statement, node := statement,
      message := owner ++ ": Action allows wildcard or security-critical service scope (" ++
        Text.join ", " flagged ++ ")" }
  else none

/-- What is said of the statements of a resource. -/
def actionMentions (r : Resource) : List Mention :=
  (ofResource r).filterMap (wildcardAction? r.name)

/-- The identifier of the rule about actions. -/
def actionId : String := "iam-wildcard-action"

/-- What both rules recommend. -/
def leastPrivilege : String :=
  "Adopt least privilege by scoping actions/resources and applying conditions. " ++
  "Reference NIST SP 800-53 AC-6, ISO/IEC 27001 A.9, and AWS Well-Architected " ++
  "(Security Pillar - IAM)."

/-- The rule about actions. -/
def actionRule : Rule :=
  { id := actionId
    title := some <| .ofString "IAM statement allows wildcard actions"
    importance := .critical
    recommendation := some <| .ofString leastPrivilege
    evaluate := fun d =>
      .ofSearch (search actionId (fun root => (resources root).flatMap actionMentions) d) }

/-! ## Wildcard resources -/

/-- What is said of a statement that applies to all resources. -/
def wildcardResource? (owner : Text) (statement : Node) : Option Mention :=
  if isAllow statement && (textsOf (statement.get? "Resource")).contains ("*" : Text) then
    let listed := actions statement
    let shown : List Text := if listed.isEmpty then ["*"] else listed
    some {
      anchor := statement, node := statement,
      message := owner ++ ": Resource is wildcarded for actions " ++
        Data.Value.bracketed "[" "]" (shown.map Text.quotedText) }
  else none

/-- What is said of the statements of a resource. -/
def resourceMentions (r : Resource) : List Mention :=
  (ofResource r).filterMap (wildcardResource? r.name)

/-- The identifier of the rule about resources. -/
def resourceId : String := "iam-wildcard-resource"

/-- The rule about resources. -/
def resourceRule : Rule :=
  { id := resourceId
    title := some <| .ofString "IAM statement targets all resources"
    importance := .high
    recommendation := some <| .ofString <|
      leastPrivilege ++ " Replace Resource: '*' with the ARNs the function actually touches."
    evaluate := fun d =>
      .ofSearch (search resourceId (fun root => (resources root).flatMap resourceMentions) d) }

end TemplateAudit.Rules.PolicyStatement
