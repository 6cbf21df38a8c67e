import TemplateAudit.Rule
import TemplateAudit.Text.Digit
import TemplateAudit.Text.Search

/-!
# TemplateAudit.Rules.AccessKey

Access keys that are written anywhere in the text.

A key is twenty capitals and digits that start in one of three ways and are not part of a longer
run of such characters. The rule reads line by line, so it also works on a text that is no
template. Keys from documentation say so and are left alone. A key is never told whole:
`mask` leaves four characters at either end.
-/

namespace TemplateAudit.Rules.AccessKey

open TemplateAudit.Text

/-- The characters of keys. -/
def isKeyChar (c : Char) : Bool := isAsciiUpper c || isAsciiDigit c

/-- How keys start. -/
def openings : List (List Char) := ["A3T".toList, "AKIA".toList, "ASIA".toList]

/-- How long a key is. -/
def keyLength : Nat := 20

/-- Whether a key stands at the start of a text, and ends there. -/
def startsKey (cs : List Char) : Bool :=
  let key := cs.take keyLength
  key.length == keyLength && key.all isKeyChar && openings.any (·.isPrefixOf key) &&
    !(cs.drop keyLength).head?.any isKeyChar

/-- The keys in a text, in order; `inRun` tells whether a character of a key comes before
it. -/
def keysFrom (inRun : Bool) : List Char → List (List Char)
  | [] => []
  | c :: cs =>
    let later := keysFrom (isKeyChar c) cs
    if !inRun && startsKey (c :: cs) then (c :: cs).take keyLength :: later else later

/-- The keys in a text, in order. -/
def keys (cs : List Char) : List (List Char) := keysFrom false cs

/-- What the keys in documentation contain. -/
def documentationMark : List Char := "EXAMPLE".toList

/-- A text with only four characters at either end. -/
def maskChars (cs : List Char) : List Char :=
  cs.take 4 ++ "...".toList ++ cs.drop (cs.length - 4)

/-- A text with only four characters at either end. -/
def mask (s : String) : String := String.ofList (maskChars s.toList)

/-- The identifier of the rule. -/
def id : String := "plaintext-access-key"

/-- What is said of a key. -/
def message (key : List Char) : String :=
  "Access key id " ++ String.ofList (maskChars key) ++ " is committed in plain text"

/-- The keys of a line that are told about. -/
def reported (l : Line) : List (List Char) :=
  (keys l.text.toList).filter fun key => !containsText documentationMark key

/-- The findings in a document. -/
def search (d : Document) : List Finding :=
  d.lines.flatMap fun l => (reported l).map fun key => .ofLines id l.number l.number (message key)

/-- The rule. -/
def rule : Rule :=
  { id
    title := some <| .ofString "AWS access key in plain text"
    importance := .critical
    recommendation := some <| .ofString <|
      "Rotate the key immediately, remove it from the template and history, and grant access " ++
      "through the function execution role or a Secrets Manager reference instead."
    evaluate := fun d => .ofSearch (.ok (search d)) }

end TemplateAudit.Rules.AccessKey
