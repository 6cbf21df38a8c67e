import TemplateAudit.Data.Value

/-!
# TemplateAudit.Json.Basic

JSON documents. A number is whole when it is written without a point and without an
exponent, and a double otherwise. The members of an object keep the order in which they are
written.
-/

namespace TemplateAudit

open TemplateAudit.Number (Binary64)
open TemplateAudit.Data (Value)

/-- A JSON document. -/
inductive Json
  | null
  | bool (b : Bool)
  | int (n : Int)
  | float (d : Binary64)
  | text (t : Text)
  | list (items : List Json)
  | object (members : List (Text × Json))
  deriving Inhabited

namespace Json

/-- A string as JSON. -/
def ofString (s : String) : Json := .text (Text.ofString s)

/-- An object whose members have strings for names. -/
def ofMembers (members : List (String × Json)) : Json :=
  .object (members.map fun m => (Text.ofString m.1, m.2))

/-- The member of an object with a name; a later one of the same name counts. -/
def get? : Json → String → Option Json
  | .object members, name => (members.reverse.find? fun m => m.1 == Text.ofString name).map Prod.snd
  | _, _ => none

mutual

/-- A JSON document as a value without a fixed type. -/
def toValue : Json → Value
  | .null => .null
  | .bool b => .bool b
  | .int n => .int n
  | .float d => .float d
  | .text t => .text t
  | .list items => .list (toValues items)
  | .object members => .mapping (toEntries members [])

/-- The items of a list as values. -/
def toValues : List Json → List Value
  | [] => []
  | j :: js => toValue j :: toValues js

/-- The members of an object as entries, after those that come before them. -/
def toEntries : List (Text × Json) → List (Value × Value) → List (Value × Value)
  | [], before => before
  | (name, j) :: ms, before => toEntries ms (Value.put before (.text name) (toValue j))

end

mutual

/-- A value as JSON, if JSON has a notation for it. -/
def ofValue? : Value → Option Json
  | .null => some .null
  | .bool b => some (.bool b)
  | .int n => some (.int n)
  | .float d => some (.float d)
  | .text t => some (.text t)
  | .list items => (ofValues? items).map .list
  | .tuple items => (ofValues? items).map .list
  | .mapping entries => (ofEntries? entries).map .object
  | _ => none

/-- The values of a list as JSON. -/
def ofValues? : List Value → Option (List Json)
  | [] => some []
  | v :: vs => do
    let j ← ofValue? v
    let js ← ofValues? vs
    return j :: js

/-- The entries of a mapping as members; their keys must be texts. -/
def ofEntries? : List (Value × Value) → Option (List (Text × Json))
  | [] => some []
  | (.text name, v) :: es => do
    let j ← ofValue? v
    let ms ← ofEntries? es
    return (name, j) :: ms
  | _ => none

end

end Json

end TemplateAudit
