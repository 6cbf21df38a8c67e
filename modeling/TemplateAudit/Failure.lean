/-!
# TemplateAudit.Failure

What goes wrong while a rule looks at a document or a catalog is loaded. A failure is never
fatal: it is told as its kind and its text.
-/

namespace TemplateAudit

/-- Something that went wrong. It is taken to have a text: a failure that itself fails when it is
asked for its text could not be told and would end the run, and is left out of account. -/
structure Failure where
  kind : String
  text : String
  deriving DecidableEq, Repr

/-- A failure on one line: its kind, then its text. -/
def Failure.message (f : Failure) : String := f.kind ++ ": " ++ f.text

/-- The failure of a walk that would never end, because a node contains itself. Only such walks
fail: the depth of a tree that has an end is not limited. -/
def Failure.endless : Failure :=
  { kind := "RecursionError", text := "maximum recursion depth exceeded" }

end TemplateAudit
