import TemplateAudit.Template.Mention
import TemplateAudit.Template.Resource
import TemplateAudit.Text.Digit
import TemplateAudit.Text.Search

/-!
# TemplateAudit.Rules.EnvironmentSecret

Secrets among the environment variables of functions.

`classify` tells what kind of secret a value looks like. A value that hints at being a
placeholder is none. Access keys and web tokens count by themselves, a long token only if the
name of the variable suggests a secret.
-/

namespace TemplateAudit.Rules.EnvironmentSecret

open TemplateAudit.Text
open TemplateAudit.Template
open TemplateAudit.Yaml (Node Field fieldsOf)

/-- What a value looks like. -/
inductive SecretKind
  | accessKey
  | webToken
  | longToken
  deriving DecidableEq, Repr

/-- The short name of a kind. -/
def SecretKind.name : SecretKind → String
  | .accessKey => "aws_access_key"
  | .webToken => "jwt"
  | .longToken => "long_token"

/-- The words for a kind. -/
def SecretKind.label : SecretKind → String
  | .accessKey => "an AWS access key"
  | .webToken => "a JSON Web Token"
  | .longToken => "a long secret-like token"

/-! ## Values -/

/-- What values contain that only stand in for a secret. -/
def placeholderHints : List String :=
  ["dummy", "example", "placeholder", "sample", "changeme", "resolve:"]

/-- Whether a value only stands in for a secret. -/
def isPlaceholder (value : List Char) : Bool :=
  placeholderHints.any fun hint => containsText hint.toList (lowerChars value)

/-- The characters of access keys. -/
def isKeyChar (c : Char) : Bool := isAsciiDigit c || isAsciiUpper c

/-- Whether a text starts with an access key: one of its openings, then sixteen characters. -/
def startsAccessKey (cs : List Char) : Bool :=
  ["A3T", "AKIA", "ASIA"].any fun opening =>
    let rest := (cs.drop opening.length).take 16
    opening.toList.isPrefixOf cs && rest.length == 16 && rest.all isKeyChar

/-- The characters of tokens. -/
def isWordChar (c : Char) : Bool := isAsciiAlnum c || c == '_' || c == '-'

/-- The text after a word and a dot. -/
def afterWordAndDot? (cs : List Char) : Option (List Char) :=
  match cs.takeWhile isWordChar, cs.dropWhile isWordChar with
  | _ :: _, '.' :: rest => some rest
  | _, _ => none

/-- Whether a text starts with a web token: three words divided by dots, the first of which
starts in a certain way. -/
def startsWebToken (cs : List Char) : Bool :=
  "eyJ".toList.isPrefixOf cs &&
    match (afterWordAndDot? (cs.drop 3)).bind afterWordAndDot? with
    | some (c :: _) => isWordChar c
    | _ => false

/-- Whether a text starts with twenty-four characters of tokens. -/
def startsLongToken (cs : List Char) : Bool :=
  let word := cs.take 24
  word.length == 24 && word.all isWordChar

/-! ## Names -/

/-- Whether a text starts with one word, perhaps a low line or a hyphen, and another word. -/
def startsPair (first second : String) (cs : List Char) : Bool :=
  first.toList.isPrefixOf cs &&
    let rest := cs.drop first.length
    second.toList.isPrefixOf rest ||
      match rest with
      | c :: more => (c == '_' || c == '-') && second.toList.isPrefixOf more
      | [] => false

/-- The words that suggest a secret. -/
def keywords : List String :=
  ["secret", "token", "password", "passwd", "private", "credential", "auth"]

/-- Whether a text starts with a word that suggests a secret. -/
def startsKeyword (cs : List Char) : Bool :=
  keywords.any (fun word => word.toList.isPrefixOf cs) || startsPair "api" "key" cs ||
    startsPair "access" "key" cs

/-- Whether a name suggests a secret, in any case. -/
def suggestsSecret (name : List Char) : Bool := anyTail startsKeyword (foldChars name)

/-- The kind of secret that a value looks like. -/
def classify (name value : List Char) : Option SecretKind :=
  if isPlaceholder value then none
  else if anyTail startsAccessKey value then some .accessKey
  else if anyTail startsWebToken value then some .webToken
  else if anyTail startsLongToken value && suggestsSecret name then some .longToken
  else none

/-! ## Templates -/

/-- The text of a variable that is written out. -/
def plainText? (node : Node) : Option Text :=
  if node.isIntrinsic then none else node.text?

/-- What is said of a variable. -/
def message (owner name : Text) (kind : SecretKind) : Text :=
  owner ++ ": environment variable " ++ name ++ " holds " ++ kind.label

/-- The secret that a variable is. -/
def secret? (owner : Text) (f : Field) : Option Mention := do
  let text ← plainText? f.value
  let kind ← classify f.name.chars text.chars
  return { anchor := f.key, node := f.value, message := message owner f.name kind }

/-- The secrets among some variables. -/
def secrets (owner : Text) (environment : Option Node) : List Mention :=
  (fieldsOf environment).filterMap (secret? owner)

/-- The secrets of a resource. -/
def ofResource (r : Resource) : List Mention :=
  if r.isFunction then
    secrets r.name (r.body.path? ["Properties", "Environment", "Variables"])
  else []

/-- The secrets that all functions share. -/
def ofGlobals (root : Node) : List Mention :=
  secrets "Globals" (root.path? ["Globals", "Function", "Environment", "Variables"])

/-- The secrets of a template. -/
def mentions (root : Node) : List Mention :=
  ofGlobals root ++ (resources root).flatMap ofResource

/-- The identifier of the rule. -/
def id : String := "env-hardcoded-secret"

/-- The rule. -/
def rule : Rule :=
  { id
    title := some <| .ofString "Hardcoded secret value in Lambda environment"
    importance := .high
    recommendation := some <| .ofString <|
      "Move sensitive values to AWS Secrets Manager or SSM Parameter Store with KMS " ++
      "encryption. Reference them via Ref/ImportValue or " ++
      "\x7b\x7bresolve:secretsmanager:...\x7d\x7d in templates, " ++
      "and load them at runtime instead of hardcoding."
    evaluate := fun d => .ofSearch (search id mentions d) }

end TemplateAudit.Rules.EnvironmentSecret
