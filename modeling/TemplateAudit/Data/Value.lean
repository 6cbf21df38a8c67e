import TemplateAudit.Data.Calendar
import TemplateAudit.Number.Literal
import TemplateAudit.Number.Quantity
import TemplateAudit.Text.Quoted

/-!
# TemplateAudit.Data.Value

Values without a fixed type: what a settings file holds, and what a rule may put into a
finding or hand back instead of findings.

A collection of a settings file can be reached on several ways, and it can contain itself. Such
a collection is kept once, in a `Store`, and `Value.shared n` stands for the one with the
number `n`. A value without `shared` is a tree and needs no store.

* `Value.same` is equality as a key: a truth value equals 0 or 1, and a double the whole
  number that it is.
* `Value.isKey` says which values can be keys; lists, mappings and sets cannot.
* `Value.shownIn` writes a value as it appears inside messages and `Value.printedIn` as it is
  printed alone: only texts and calendar values differ. A collection inside itself is shown as
  three dots.
* `Value.isUnwritable` says which values have no text: those that hold an integer with too many
  digits.
-/

namespace TemplateAudit.Data

open TemplateAudit.Number (Binary64 Quantity)
open TemplateAudit.Text (quotedOctets quotedText)

/-- A value of any kind. -/
inductive Value
  | null
  | bool (b : Bool)
  | int (n : Int)
  | float (d : Binary64)
  | text (t : Text)
  | octets (bs : List UInt8)
  | date (d : Date)
  | moment (m : Moment)
  | list (items : List Value)
  | tuple (items : List Value)
  | mapping (entries : List (Value × Value))
  | set (members : List Value)
  | shared (number : Nat)
  deriving Inhabited

/-- The collections that are kept once, by number. -/
abbrev Store := Array Value

namespace Value

/-- A string as a value. -/
def ofString (s : String) : Value := .text (Text.ofString s)

/-- Whether a value is null. -/
def isNull : Value → Bool
  | .null => true
  | _ => false

/-- A value, or another one in the place of null. -/
def orElse (v other : Value) : Value := if v.isNull then other else v

/-- What a value is, a shared collection looked up. -/
def opened (store : Store) : Value → Value
  | .shared n => store.getD n .null
  | v => v

/-- The name of the kind of a value. -/
def kind : Value → String
  | .null => "NoneType"
  | .bool _ => "bool"
  | .int _ => "int"
  | .float _ => "float"
  | .text _ => "str"
  | .octets _ => "bytes"
  | .date _ => "date"
  | .moment _ => "datetime"
  | .list _ => "list"
  | .tuple _ => "tuple"
  | .mapping _ => "dict"
  | .set _ => "set"
  | .shared _ => "object"

/-! ## Equality as a key -/

/-- The number that a value is. -/
def quantity? : Value → Option Quantity
  | .bool b => some (.flag b)
  | .int n => some (.whole n)
  | .float d => some (.real d)
  | _ => none

/-- A number as a value. -/
def ofQuantity : Quantity → Value
  | .flag b => .bool b
  | .whole n => .int n
  | .real d => .float d

/-- A number as the key that it is: a whole number where it equals one. Not-a-number equals
nothing. -/
def numeral? : Value → Option Quantity
  | .bool b => some (.whole (if b then 1 else 0))
  | .int n => some (.whole n)
  | .float .nan => none
  | .float d =>
    match d.toInt? with
    | some n => some (.whole n)
    | none => some (.real d)
  | _ => none

mutual

/-- Equality as a key. -/
def same : Value → Value → Bool
  | .null, .null => true
  | .text a, .text b => a == b
  | .octets a, .octets b => a == b
  | .date a, .date b => a == b
  | .moment a, .moment b => a.same b
  | .tuple a, .tuple b => sameAll a b
  | a, b =>
    match a.numeral?, b.numeral? with
    | some x, some y => x == y
    | _, _ => false

/-- Equality as keys, one by one. -/
def sameAll : List Value → List Value → Bool
  | [], [] => true
  | a :: as, b :: bs => same a b && sameAll as bs
  | _, _ => false

end

mutual

/-- Whether a value can be a key. -/
def isKey : Value → Bool
  | .list _ => false
  | .mapping _ => false
  | .set _ => false
  | .shared _ => false
  | .tuple items => areKeys items
  | _ => true

/-- Whether all of the values can be keys. -/
def areKeys : List Value → Bool
  | [] => true
  | v :: vs => isKey v && areKeys vs

end

/-- The entries with one more: a key that is there already keeps its place and its spelling
and gets the new value. -/
def put (entries : List (Value × Value)) (key value : Value) : List (Value × Value) :=
  if entries.any (fun e => e.1.same key) then
    entries.map fun e => if e.1.same key then (e.1, value) else e
  else entries ++ [(key, value)]

/-- The value of a key that is a text. -/
def get? (entries : List (Value × Value)) (key : String) : Option Value :=
  (entries.find? fun e => e.1.same (.ofString key)).map Prod.snd

/-- The set of some values. Numbers stand in ascending order, and all else as it comes. -/
def ofMembers (members : List Value) : Value :=
  match members.mapM numeral? with
  | some ns => .set (((members.zip ns).mergeSort fun a b => b.2.reached a.2).map Prod.fst)
  | none => .set members

/-! ## Parts -/

/-- What walking over a value yields, if it can be walked over. -/
def items? : Value → Option (List Value)
  | .text t => some (t.map fun p => .text [p])
  | .octets bs => some (bs.map fun b => .int b.toNat)
  | .list items => some items
  | .tuple items => some items
  | .mapping es => some (es.map Prod.fst)
  | .set members => some members
  | _ => none

/-- Whether a value counts as nothing: null, false, zero, or empty. -/
def isNothing : Value → Bool
  | .null => true
  | .bool b => !b
  | .int n => n == 0
  | .float (.finite _ m _) => m == 0
  | .text t => t.isEmpty
  | .octets bs => bs.isEmpty
  | .list items => items.isEmpty
  | .tuple items => items.isEmpty
  | .mapping es => es.isEmpty
  | .set members => members.isEmpty
  | _ => false

/-! ## Text -/

/-- Texts between brackets, divided by commas. -/
def bracketed (opening closing : String) (parts : List String) : String :=
  opening ++ ", ".intercalate parts ++ closing

mutual

/-- A value as it is shown inside messages, given what is shown for shared collections. -/
def shownWith (shared : Nat → String) : Value → String
  | .null => "None"
  | .bool true => "True"
  | .bool false => "False"
  | .int n => toString n
  | .float d => d.text
  | .text t => quotedText t
  | .octets bs => quotedOctets bs
  | .date d => d.shown
  | .moment m => m.shown
  | .list items => bracketed "[" "]" (shownAll shared items)
  | .tuple [v] => "(" ++ shownWith shared v ++ ",)"
  | .tuple items => bracketed "(" ")" (shownAll shared items)
  | .mapping es => bracketed "\x7b" "\x7d" (shownEntries shared es)
  | .set [] => "set()"
  | .set members => bracketed "\x7b" "\x7d" (shownAll shared members)
  | .shared n => shared n

/-- Values as they are shown, one by one. -/
def shownAll (shared : Nat → String) : List Value → List String
  | [] => []
  | v :: vs => shownWith shared v :: shownAll shared vs

/-- Entries as they are shown: key, colon, value. -/
def shownEntries (shared : Nat → String) : List (Value × Value) → List String
  | [] => []
  | (k, v) :: es => (shownWith shared k ++ ": " ++ shownWith shared v) :: shownEntries shared es

end

/-- What is shown for a collection inside itself. -/
def dots : Value → String
  | .list _ => "[...]"
  | .tuple _ => "(...)"
  | .set _ => "set(...)"
  | _ => "\x7b...\x7d"

/-- A shared collection as it is shown inside those with the numbers in `around`. Each level adds
one of them, so that fuel for the size of the store is enough. -/
def shownShared (store : Store) : (fuel : Nat) → (around : List Nat) → Nat → String
  | 0, _, n => dots (store.getD n .null)
  | fuel + 1, around, n =>
    let v := store.getD n .null
    if around.contains n then dots v else v.shownWith (shownShared store fuel (n :: around))

/-- A value as it is shown inside messages. -/
def shownIn (store : Store) (v : Value) : String :=
  v.shownWith (shownShared store (store.size + 1) [])

/-- A value as it is printed alone. -/
def printedIn (store : Store) : Value → Text
  | .text t => t
  | .date d => d.text
  | .moment m => m.text
  | v => v.shownIn store

/-- A value that is a tree as it is shown inside messages. -/
def shown (v : Value) : String := v.shownIn #[]

/-- A value that is a tree as it is printed alone. -/
def printed (v : Value) : Text := v.printedIn #[]

/-! ## Values without a text -/

mutual

/-- Whether a value holds an integer with too many digits, itself or in its own parts. -/
def holdsTooLong : Value → Bool
  | .int n => Number.isTooLong n
  | .list items => anyTooLong items
  | .tuple items => anyTooLong items
  | .set members => anyTooLong members
  | .mapping es => anyEntryTooLong es
  | _ => false

/-- The same for some of the values. -/
def anyTooLong : List Value → Bool
  | [] => false
  | v :: vs => holdsTooLong v || anyTooLong vs

/-- The same for some of the entries. -/
def anyEntryTooLong : List (Value × Value) → Bool
  | [] => false
  | (k, v) :: es => holdsTooLong k || holdsTooLong v || anyEntryTooLong es

end

mutual

/-- The shared collections that are parts of a value. -/
def links : Value → List Nat
  | .list items => allLinks items
  | .tuple items => allLinks items
  | .set members => allLinks members
  | .mapping es => entryLinks es
  | .shared n => [n]
  | _ => []

/-- The shared collections that are parts of the values. -/
def allLinks : List Value → List Nat
  | [] => []
  | v :: vs => links v ++ allLinks vs

/-- The shared collections that are parts of the entries. -/
def entryLinks : List (Value × Value) → List Nat
  | [] => []
  | (k, v) :: es => links k ++ links v ++ entryLinks es

end

/-- The collections that can be reached from some of them, those already `seen` left out. Each
step sees one more of them or drops one that is waiting. -/
def reachable (store : Store) : (fuel : Nat) → (seen waiting : List Nat) → List Nat
  | 0, seen, _ => seen
  | _, seen, [] => seen
  | fuel + 1, seen, n :: waiting =>
    if seen.contains n then reachable store fuel seen waiting
    else reachable store fuel (n :: seen) (links (store.getD n .null) ++ waiting)

/-- How many links the collections of a store have together. -/
def linkCount (store : Store) : Nat := store.foldl (fun n v => n + (links v).length) 0

/-- Whether a value has no text, since an integer in it has too many digits. -/
def isUnwritable (store : Store) (v : Value) : Bool :=
  let start := links v
  let reached := reachable store (linkCount store + start.length + 1) [] start
  v.holdsTooLong || reached.any fun n => (store.getD n .null).holdsTooLong

end Value

end TemplateAudit.Data
