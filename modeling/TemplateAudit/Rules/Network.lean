import TemplateAudit.Template.Mention
import TemplateAudit.Template.Resource

/-!
# TemplateAudit.Rules.Network

How functions are exposed to the network: one rule for security groups that are open to any
address, one for functions in a private network without a security group.
-/

namespace TemplateAudit.Rules.Network

open TemplateAudit.Template
open TemplateAudit.Yaml (Node Field fieldsOf partsOf)

/-- What both rules recommend. -/
def guidance : String :=
  "Restrict Lambda egress paths. Use interface VPC endpoints for AWS APIs (Secrets Manager, " ++
  "SSM, STS), apply egress allow-lists in security groups or AWS Network Firewall, and favor " ++
  "proxy-controlled NAT flows. " ++
  "Aligned controls: NIST SP 800-53 SC-7, AWS Well-Architected Security - Network Controls."

/-! ## Open security groups -/

/-- The fields for ranges of addresses, with the range that holds them all. -/
def openRanges : List (String × String) := [("CidrIp", "0.0.0.0/0"), ("CidrIpv6", "::/0")]

/-- The range of all addresses that an entry of a security group names. -/
def openRange? (entry : Node) : Option String :=
  (openRanges.find? fun (field, range) =>
    (entry.get? field).bind Node.text? == some (Text.ofString range)).map Prod.snd

/-- What is said of an entry that is open to any address. -/
def openMention? (owner : Text) (direction : String) (entry : Node) : Option Mention :=
  if entry.isMapping then do
    let range ← openRange? entry
    let protocol := ((entry.get? "IpProtocol").bind Node.text?).getD "-1"
    return {
      anchor := entry, node := entry,
      message := owner ++ ": " ++ direction ++ " rule allows " ++ range ++ " (protocol " ++
        protocol ++ ")" }
  else none

/-- The fields of a security group that hold entries, with their direction. -/
def groupDirections : List (String × String) :=
  [("SecurityGroupEgress", "egress"), ("SecurityGroupIngress", "ingress")]

/-- The types of resources that are an entry by themselves, with their direction. -/
def entryTypes : List (Text × String) :=
  [("AWS::EC2::SecurityGroupEgress", "egress"), ("AWS::EC2::SecurityGroupIngress", "ingress")]

/-- What is said of the entries of a resource. -/
def openEntries (r : Resource) : List Mention :=
  if r.type == "AWS::EC2::SecurityGroup" then
    groupDirections.flatMap fun (field, direction) =>
      (partsOf (r.properties?.bind (·.get? field))).filterMap (openMention? r.name direction)
  else
    match entryTypes.lookup r.type with
    | some direction => (r.properties?.bind (openMention? r.name direction)).toList
    | none => []

/-- The identifier of the rule about open security groups. -/
def openRangeId : String := "open-egress-cidr"

/-- The rule about open security groups. -/
def openRangeRule : Rule :=
  { id := openRangeId
    title := some <| .ofString "Security group rule open to the internet"
    importance := .high
    recommendation := some <| .ofString guidance
    evaluate := fun d =>
      .ofSearch (search openRangeId (fun root => (resources root).flatMap openEntries) d) }

/-! ## Missing security groups -/

/-- Whether a configuration names a security group, or might once it is deployed. -/
def hasGroups (config : Node) : Bool :=
  match config.get? "SecurityGroupIds" with
  | some groups => groups.isIntrinsic || !groups.parts.isEmpty
  | none => false

/-- What is said of a field that is a network configuration without security groups. -/
def missingGroups? (owner : Text) (f : Field) : Option Mention :=
  if f.name == "VpcConfig" && !f.value.isIntrinsic && !hasGroups f.value then
    some {
      anchor := f.key, node := f.value, message := owner ++ ": VpcConfig has no SecurityGroupIds" }
  else none

/-- What is said of the fields of a function. -/
def missingGroups (owner : Text) (container : Option Node) : List Mention :=
  (fieldsOf container).filterMap (missingGroups? owner)

/-- What is said of a resource. -/
def groupsOfResource (r : Resource) : List Mention :=
  if r.isFunction then missingGroups r.name r.properties? else []

/-- What is said of the settings that all functions share. -/
def groupsOfGlobals (root : Node) : List Mention :=
  missingGroups "Globals" (root.path? ["Globals", "Function"])

/-- What is said of a template. -/
def groupMentions (root : Node) : List Mention :=
  groupsOfGlobals root ++ (resources root).flatMap groupsOfResource

/-- The identifier of the rule about missing security groups. -/
def missingGroupId : String := "vpc-missing-security-group"

/-- The rule about missing security groups. -/
def missingGroupRule : Rule :=
  { id := missingGroupId
    title := some <| .ofString "No security group attached to Lambda VPC config"
    importance := .medium
    recommendation := some <| .ofString <|
      "Attach a restrictive security group with explicit egress allow-list before deployment. " ++
      guidance
    evaluate := fun d => .ofSearch (search missingGroupId groupMentions d) }

end TemplateAudit.Rules.Network
