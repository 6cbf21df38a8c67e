import TemplateAudit.Files.Path
import TemplateAudit.Text.Quoted

/-!
# TemplateAudit.Files.Tree

Files and directories, and what can be done with them.

A `Tree` lists what is known to be there, by its place. The directories on the way to a place are
there as well, and so are the working directory, the directories above it and the top of the
file system. A name may have 255 octets and a whole path 4095, and none of them may hold the
character with the code 0, which ends a path for the system.
-/

namespace TemplateAudit.Files

/-- What a name stands for. -/
inductive Entry
  | file (octets : List UInt8)
  | directory
  deriving DecidableEq, Repr

/-- Where names start: at the top, or so many directories above the working directory. -/
inductive Base
  | top
  | above (levels : Nat)
  deriving DecidableEq, Repr

/-- A place: where it starts, and the names that lead to it. -/
structure Place where
  base : Base
  names : List String
  deriving DecidableEq, Repr

/-- Files and directories. -/
structure Tree where
  entries : List (Place × Entry)

/-- Why something cannot be done with a file. -/
inductive FileFault
  | isDirectory (path : String)
  | exists (path : String)
  | notDirectory (path : String)
  | missing (path : String)
  | nameTooLong (path : String)
  /-- The path holds the character with the code 0. -/
  | embeddedNull
  | noTemplate (path : String)
  deriving DecidableEq, Repr

/-- The words for a fault, with its number if it has one, and the path. -/
def FileFault.message : FileFault → String
  | .isDirectory path => "[Errno 21] Is a directory: " ++ Text.quoted path
  | .exists path => "[Errno 17] File exists: " ++ Text.quoted path
  | .notDirectory path => "[Errno 20] Not a directory: " ++ Text.quoted path
  | .missing path => "[Errno 2] No such file or directory: " ++ Text.quoted path
  | .nameTooLong path => "[Errno 36] File name too long: " ++ Text.quoted path
  | .embeddedNull => "embedded null byte"
  | .noTemplate path => "Template not found: " ++ path

namespace Place

/-- The place of the working directory. -/
def working : Place := { base := .above 0, names := [] }

/-- Where a path starts. -/
def ofBase (p : Path) : Place :=
  if p.root == .working then working else { base := .top, names := [] }

/-- The place one name further. -/
def step (p : Place) (name : String) : Place :=
  if name == ".." then
    match p.names, p.base with
    | [], .above levels => { base := .above (levels + 1), names := [] }
    | [], .top => p
    | names, _ => { p with names := names.dropLast }
  else { p with names := p.names ++ [name] }

/-- The place that a path leads to if all names on it are there. -/
def ofPath (p : Path) : Place := p.parts.foldl step (ofBase p)

/-- The path that leads to a place. -/
def path (p : Place) : Path :=
  match p.base with
  | .top => { root := .top, parts := p.names }
  | .above levels => { root := .working, parts := List.replicate levels ".." ++ p.names }

end Place

namespace Tree

/-- What is at a place. -/
def at? (t : Tree) (p : Place) : Option Entry :=
  match t.entries.lookup p with
  | some e => some e
  | none =>
    let onTheWay := t.entries.any fun e => e.1.base == p.base && p.names.isPrefixOf e.1.names
    if p.names.isEmpty || onTheWay then some .directory else none

/-- The most octets of a name. -/
def maxName : Nat := 255

/-- The most octets of a path. -/
def maxPath : Nat := 4095

/-- The place that names lead to from another place, or what is wrong with them. All but the
last of them must be directories. -/
def walk (t : Tree) (p : Place) : List String → Except (String → FileFault) Place
  | [] => .ok p
  | name :: names =>
    match t.at? p with
    | none => .error .missing
    | some (.file _) => .error .notDirectory
    | some .directory =>
      if maxName < name.utf8ByteSize then .error .nameTooLong
      else t.walk (p.step name) names

/-- The place that a path leads to. -/
def place (t : Tree) (p : Path) : Except FileFault Place :=
  if p.text.toList.contains (Char.ofNat 0) then .error .embeddedNull
  else if maxPath < p.text.utf8ByteSize then .error (.nameTooLong p.text)
  else
    match t.walk (.ofBase p) p.parts with
    | .ok place => .ok place
    | .error fault => .error (fault p.text)

/-- What is at a path, none if there is nothing. Only a name that is too long is an error. -/
def look (t : Tree) (p : Path) : Except FileFault (Option Entry) :=
  match t.place p with
  | .ok place => .ok (t.at? place)
  | .error (.nameTooLong path) => .error (.nameTooLong path)
  | .error _ => .ok none

/-- Whether there is a file at a path. -/
def hasFile (t : Tree) (p : Path) : Except FileFault Bool := do
  match ← t.look p with
  | some (.file _) => return true
  | _ => return false

/-- The content of the file at a path, none if there is nothing. -/
def readIfThere (t : Tree) (p : Path) : Except FileFault (Option (List UInt8)) := do
  match ← t.look p with
  | some (.file octets) => return some octets
  | some .directory => throw (.isDirectory p.text)
  | none => return none

/-! ## Writing -/

/-- The tree with something at a place. -/
def put (t : Tree) (p : Place) (e : Entry) : Tree :=
  { entries := (t.entries.filter fun old => old.1 != p) ++ [(p, e)] }

/-- The tree with one more directory. -/
def makeDirectory (t : Tree) (p : Path) : Except FileFault Tree :=
  match t.place p with
  | .error fault => .error fault
  | .ok place =>
    match t.at? place with
    | some _ => .error (.exists p.text)
    | none => .ok (t.put place .directory)

/-- The tree with a directory at a path, made unless there is one already. -/
def ensureDirectory (t : Tree) (p : Path) : Except FileFault Tree :=
  match t.makeDirectory p with
  | .ok t => .ok t
  | .error .embeddedNull => .error .embeddedNull
  | .error fault => do
    match ← t.look p with
    | some .directory => .ok t
    | _ => .error fault

/-- The tree with a directory at a path and all directories on the way to it. -/
def ensureDirectories (t : Tree) (root : Root) (parts : List String) : (fuel : Nat) →
    Except FileFault Tree
  | 0 => .ok t
  | fuel + 1 =>
    let p : Path := { root, parts }
    match t.ensureDirectory p with
    | .error (.missing path) =>
      if parts.isEmpty then .error (.missing path)
      else do
        let t ← t.ensureDirectories root parts.dropLast fuel
        t.ensureDirectory p
    | result => result

/-- The tree with a file at a path, in a directory that is made if need be. -/
def write (t : Tree) (p : Path) (octets : List UInt8) : Except FileFault Tree := do
  let t ← t.ensureDirectories p.root p.parent.parts (p.parts.length + 1)
  match t.place p with
  | .error fault => .error fault
  | .ok place =>
    match t.at? place with
    | some .directory => .error (.isDirectory p.text)
    | _ => .ok (t.put place (.file octets))

/-- What is in a tree and was not so in another one. -/
def changesSince (t old : Tree) : List (Place × Entry) :=
  t.entries.filter fun e => old.entries.lookup e.1 != some e.2

end Tree

end TemplateAudit.Files
