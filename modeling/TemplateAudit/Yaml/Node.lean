import TemplateAudit.Text.Point
import TemplateAudit.Yaml.Mark

/-!
# TemplateAudit.Yaml.Node

The tree of nodes that a document is.

An alias stands for the node that carries its anchor, so it is replaced by that node. Where the
alias lies inside the very collection that it names there is nothing finite to put in its
place: the tree holds `enclosing` there, with the anchor. `Node.items` and `Node.entries` put
the collection back wherever it is met again, so that whoever walks down the tree sees
no end to it; `Node.isFinite` tells the trees for which there is one.

Anchors are unique within a document, so a node with the anchor `a` inside another tree is the
same node, and `enclosing a` below it refers to it.
-/

namespace TemplateAudit.Yaml

/-- A node: its tag, what it holds, and where it starts and stops. A collection that an alias
inside of it names also keeps its anchor. -/
inductive Node
  | scalar (tag : String) (value : Text) (start stop : Mark)
  | sequence (anchor : Option String) (tag : String) (items : List Node) (start stop : Mark)
  | mapping (anchor : Option String) (tag : String) (entries : List (Node × Node))
      (start stop : Mark)
  /-- The collection with this anchor, inside of which this place is. -/
  | enclosing (anchor : String)
  deriving Inhabited

namespace Node

/-- The tag of a node. -/
def tag : Node → String
  | .scalar tag .. => tag
  | .sequence _ tag .. => tag
  | .mapping _ tag .. => tag
  | .enclosing _ => ""

/-- Where a node starts. -/
def start : Node → Mark
  | .scalar _ _ start _ => start
  | .sequence _ _ _ start _ => start
  | .mapping _ _ _ start _ => start
  | .enclosing _ => default

/-- Where a node stops. -/
def stop : Node → Mark
  | .scalar _ _ _ stop => stop
  | .sequence _ _ _ _ stop => stop
  | .mapping _ _ _ _ stop => stop
  | .enclosing _ => default

/-- The anchor of a collection that an alias inside of it names. -/
def anchor? : Node → Option String
  | .sequence anchor .. => anchor
  | .mapping anchor .. => anchor
  | _ => none

/-- The text of a scalar. -/
def text? : Node → Option Text
  | .scalar _ value _ _ => some value
  | _ => none

/-- Whether a node is a mapping. -/
def isMapping : Node → Bool
  | .mapping .. => true
  | _ => false

/-- The word for the kind of a node. -/
def kind : Node → String
  | .scalar .. => "scalar"
  | .sequence .. => "sequence"
  | .mapping .. => "mapping"
  | .enclosing _ => "collection"

/-! ## Collections inside themselves -/

mutual

/-- The tree with a node in the places of the collection with its anchor. -/
def close (anchor : String) (node : Node) : Node → Node
  | .scalar tag value start stop => .scalar tag value start stop
  | .sequence own tag items start stop =>
    if own == some anchor then .sequence own tag items start stop
    else .sequence own tag (closeItems anchor node items) start stop
  | .mapping own tag entries start stop =>
    if own == some anchor then .mapping own tag entries start stop
    else .mapping own tag (closeEntries anchor node entries) start stop
  | .enclosing name => if name == anchor then node else .enclosing name

/-- `close` for each node of a list. -/
def closeItems (anchor : String) (node : Node) : List Node → List Node
  | [] => []
  | item :: items => close anchor node item :: closeItems anchor node items

/-- `close` for each key and value of a list. -/
def closeEntries (anchor : String) (node : Node) : List (Node × Node) → List (Node × Node)
  | [] => []
  | (key, value) :: entries =>
    (close anchor node key, close anchor node value) :: closeEntries anchor node entries

end

mutual

/-- Whether no collection lies inside itself. -/
def isFinite : Node → Bool
  | .scalar .. => true
  | .sequence _ _ items _ _ => allFinite items
  | .mapping _ _ entries _ _ => entriesFinite entries
  | .enclosing _ => false

/-- `isFinite` for a list of nodes. -/
def allFinite : List Node → Bool
  | [] => true
  | item :: items => isFinite item && allFinite items

/-- `isFinite` for a list of keys and values. -/
def entriesFinite : List (Node × Node) → Bool
  | [] => true
  | (key, value) :: entries => isFinite key && isFinite value && entriesFinite entries

end

/-- The items of a sequence. -/
def items (node : Node) : List Node :=
  match node with
  | .sequence (some anchor) _ items _ _ => closeItems anchor node items
  | .sequence none _ items _ _ => items
  | _ => []

/-- The keys and values of a mapping. -/
def entries (node : Node) : List (Node × Node) :=
  match node with
  | .mapping (some anchor) _ entries _ _ => closeEntries anchor node entries
  | .mapping none _ entries _ _ => entries
  | _ => []

end Node

end TemplateAudit.Yaml
