import Std.Data.HashMap
import TemplateAudit.Yaml.Node

/-!
# TemplateAudit.Yaml.Graph

The nodes of a document by number.

In the tree of a document a node that aliases name stands in several places. In a `Graph` each
node is one `Vertex`, and what is inside a collection is given by numbers, so that a change of a
vertex shows wherever the node stands, and a collection inside itself is nothing special.

A node is known by its kind and its place in the text: no two nodes of a kind have one place,
except scalars that are left out, which have no width and which no alias can name.
-/

namespace TemplateAudit.Yaml

/-- What a node holds, the nodes inside of it by their numbers. -/
inductive Content
  | scalar (text : Text)
  | sequence (items : List Nat)
  | mapping (entries : List (Nat × Nat))
  deriving Inhabited

/-- The word for the kind of a node. -/
def Content.kind : Content → String
  | .scalar _ => "scalar"
  | .sequence _ => "sequence"
  | .mapping _ => "mapping"

/-- A node: its tag, what it holds, and where it starts. -/
structure Vertex where
  tag : String
  content : Content
  start : Mark
  deriving Inhabited

/-- The nodes of a document, and where each of them stands. -/
structure Graph where
  vertices : Array Vertex
  /-- The numbers of nodes by kind, first and last position. -/
  places : Std.HashMap (String × Nat × Nat) Nat

namespace Graph

/-- The graph without a node. -/
def empty : Graph := { vertices := #[], places := {} }

/-- The number of a node that is there already. -/
def find? (g : Graph) (kind : String) (start stop : Mark) : Option Nat :=
  if start.index == stop.index then none else g.places[(kind, start.index, stop.index)]?

/-- The graph with one more node, and its number. -/
def add (g : Graph) (v : Vertex) (stop : Mark) : Nat × Graph :=
  let n := g.vertices.size
  (n, { vertices := g.vertices.push v
        places := g.places.insert (v.content.kind, v.start.index, stop.index) n })

/-- The graph with another content of a node. -/
def fill (g : Graph) (n : Nat) (content : Content) : Graph :=
  { g with vertices := g.vertices.modify n fun v => { v with content } }

mutual

/-- The graph with the nodes of a tree, and the number of its root. `around` gives the numbers of
the collections around the tree by their anchors. -/
def addTree (around : List (String × Nat)) (g : Graph) : Node → Nat × Graph
  | .scalar tag text start stop =>
    match g.find? "scalar" start stop with
    | some n => (n, g)
    | none => g.add { tag, content := .scalar text, start } stop
  | .sequence anchor tag items start stop =>
    match g.find? "sequence" start stop with
    | some n => (n, g)
    | none =>
      let (n, g) := g.add { tag, content := .sequence [], start } stop
      let (numbers, g) := addItems (anchor.toList.map (·, n) ++ around) g items
      (n, g.fill n (.sequence numbers))
  | .mapping anchor tag entries start stop =>
    match g.find? "mapping" start stop with
    | some n => (n, g)
    | none =>
      let (n, g) := g.add { tag, content := .mapping [], start } stop
      let (numbers, g) := addEntries (anchor.toList.map (·, n) ++ around) g entries
      (n, g.fill n (.mapping numbers))
  | .enclosing anchor => ((around.lookup anchor).getD 0, g)

/-- The graph with the nodes of some trees, and the numbers of their roots. -/
def addItems (around : List (String × Nat)) (g : Graph) : List Node → List Nat × Graph
  | [] => ([], g)
  | item :: items =>
    let (n, g) := addTree around g item
    let (ns, g) := addItems around g items
    (n :: ns, g)

/-- The graph with the nodes of some keys and values, and the numbers of their roots. -/
def addEntries (around : List (String × Nat)) (g : Graph) :
    List (Node × Node) → List (Nat × Nat) × Graph
  | [] => ([], g)
  | (key, value) :: entries =>
    let (k, g) := addTree around g key
    let (v, g) := addTree around g value
    let (ns, g) := addEntries around g entries
    ((k, v) :: ns, g)

end

/-- The nodes of a tree; its root has the number 0. -/
def ofTree (root : Node) : Array Vertex := (addTree [] empty root).2.vertices

end Graph

end TemplateAudit.Yaml
