/-!
# TemplateAudit.Files.Path

Paths of files. Repeated and final slashes and single dots mean nothing, so they are dropped;
two dots stay, since what they mean depends on the files. At the start of a path exactly two
slashes are kept: a system may give them a meaning of their own, more than two it may not.
-/

namespace TemplateAudit.Files

/-- Where a path starts. -/
inductive Root
  /-- The working directory. -/
  | working
  /-- The top of the file system. -/
  | top
  /-- The top of the file system, written with two slashes. -/
  | doubleTop
  deriving DecidableEq, Repr

/-- The text of a start. -/
def Root.text : Root → String
  | .working => ""
  | .top => "/"
  | .doubleTop => "//"

/-- A path: where it starts, and the names between its slashes. -/
structure Path where
  root : Root
  parts : List String
  deriving DecidableEq, Repr

namespace Path

/-- The pieces of a text between slashes. -/
def pieces : List Char → List (List Char)
  | [] => [[]]
  | c :: cs =>
    if c == '/' then [] :: pieces cs
    else
      match pieces cs with
      | piece :: more => (c :: piece) :: more
      | [] => [[c]]

/-- Where the path starts that a text names. -/
def rootOf (cs : List Char) : Root :=
  match (cs.takeWhile (· == '/')).length with
  | 0 => .working
  | 2 => .doubleTop
  | _ => .top

/-- The path that a text names. -/
def ofText (s : String) : Path :=
  let parts := (pieces s.toList).map String.ofList
  { root := rootOf s.toList
    parts := parts.filter fun part => part != "" && part != "." }

/-- A path as text. -/
def text (p : Path) : String :=
  if p.root == .working && p.parts.isEmpty then "."
  else p.root.text ++ "/".intercalate p.parts

/-- The path of the directory that holds a file. -/
def parent (p : Path) : Path := { p with parts := p.parts.dropLast }

end Path

end TemplateAudit.Files
