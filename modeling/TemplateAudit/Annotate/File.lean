import TemplateAudit.Annotate
import TemplateAudit.Files.Tree

/-!
# TemplateAudit.Annotate.File

Templates from files. The text of a template is decoded before it is annotated, so a byte-order
mark is dropped once with the octets and once more with the text.
-/

namespace TemplateAudit

open TemplateAudit.Files (Path Tree FileFault)

/-- The text of a file, which is empty if there is none. -/
def fileText (files : Tree) (path : String) : Except FileFault String :=
  (files.readIfThere (Path.ofText path)).map fun octets => octets.elim "" Text.ofOctets

/-- The text of a template, which must be a file. -/
def templateText (files : Tree) (path : String) : Except FileFault String := do
  let p := Path.ofText path
  if ← files.hasFile p then fileText files path else throw (.noTemplate p.text)

/-- Why a template in a file is not annotated. -/
inductive AnnotateFault
  | file (fault : FileFault)
  | misattributed (fault : Misattributed)

/-- Annotates a template in a file. -/
def annotateFile (files : Tree) (path : String) (source : CatalogSource) (s : Settings)
    (clock : Clock) : Except AnnotateFault Annotated :=
  match templateText files path with
  | .error fault => .error (.file fault)
  | .ok text =>
    match annotate source s (.text text) clock with
    | .ok run => .ok run
    | .error fault => .error (.misattributed fault)

end TemplateAudit
