import TemplateAudit.Yaml.Node

/-!
# TemplateAudit.Template.Span

The lines that a node covers.

A node reaches down to the last line of its last leaf, where a leaf is a node without children.
A leaf that stops at the very start of a line below its first one stops on the line before:
block scalars do so.
-/

namespace TemplateAudit.Yaml

/-- A range of lines, counted from one. -/
structure Span where
  first : Nat
  last : Nat
  deriving DecidableEq, Repr

namespace Node

/-- The last line of a node without children. -/
def ownLastLine (start stop : Mark) : Nat :=
  if stop.column == 0 && start.line < stop.line then stop.line else stop.line + 1

mutual

/-- The last line of a node, unless it has no end. -/
def lastLine? : Node → Option Nat
  | .scalar _ _ start stop => some (ownLastLine start stop)
  | .sequence _ _ [] start stop => some (ownLastLine start stop)
  | .sequence _ _ (item :: items) _ _ => lastLineOfItems? (item :: items)
  | .mapping _ _ [] start stop => some (ownLastLine start stop)
  | .mapping _ _ (entry :: entries) _ _ => lastLineOfEntries? (entry :: entries)
  | .enclosing _ => none

/-- The last line of some nodes. -/
def lastLineOfItems? : List Node → Option Nat
  | [] => some 0
  | item :: items => do
    let line ← lastLine? item
    let rest ← lastLineOfItems? items
    return max line rest

/-- The last line of some keys and values. -/
def lastLineOfEntries? : List (Node × Node) → Option Nat
  | [] => some 0
  | (key, value) :: entries => do
    let line ← lastLine? key
    let line' ← lastLine? value
    let rest ← lastLineOfEntries? entries
    return max (max line line') rest

end

/-- The lines of a node, from the line where another one starts. -/
def spanFrom? (node anchor : Node) : Option Span := do
  let first := anchor.start.line + 1
  let last ← node.lastLine?
  return { first, last := max first last }

/-- The lines of a node. -/
def span? (node : Node) : Option Span := node.spanFrom? node

end Node

end TemplateAudit.Yaml
