import TemplateAudit.Document
import TemplateAudit.Finding
import TemplateAudit.Severity

/-!
# TemplateAudit.Rule

Rules, and what comes out when one is evaluated.

A rule may hand back its findings one by one and fail on the way, or hand back some value that
is no findings at all. `Evaluation.produced` tells what it produced as a whole: all of its
findings, or why there are none. What is said of an item shows its lines with all their digits:
the limit `Number.maxDigits` on integers as text is kept where settings are read and not here.
-/

namespace TemplateAudit

open TemplateAudit.Data (Value)

/-- Something that a rule yields. -/
inductive Item
  | finding (ruleId first last message : Value)
  | other (value : Value)

/-- What comes out of a rule. -/
inductive Evaluation
  /-- Items one by one, and perhaps a failure after them. -/
  | items (yielded : List Item) (failure : Option Failure)
  /-- A value in their place. -/
  | value (value : Value)

/-- A rule. Its title and its recommendation are not trusted to be texts, or to be there. -/
structure Rule where
  id : String
  title : Option Value
  importance : Severity
  recommendation : Option Value
  evaluate : Document → Evaluation

namespace Evaluation

/-- What comes out of a search that finds or fails. -/
def ofSearch : Except Failure (List Finding) → Evaluation
  | .ok findings =>
    .items (findings.map fun f => .finding f.ruleId f.first.toValue f.last.toValue f.message) none
  | .error failure => .items [] (some failure)

/-- The items, all of them. A value that counts as nothing has none, and a value that can be
walked over has what is in it. -/
def allItems : Evaluation → Except Failure (List Item)
  | .items yielded none => .ok yielded
  | .items _ (some failure) => .error failure
  | .value v =>
    if v.isNothing then .ok []
    else
      match v.items? with
      | some vs => .ok (vs.map .other)
      | none => .error { kind := "TypeError", text := "'" ++ v.kind ++ "' object is not iterable" }

end Evaluation

/-- The finding that an item is, or what is wrong with it. -/
def Item.check : Item → Except String Finding
  | .finding ruleId first last message =>
    match LineRef.ofValue? first, LineRef.ofValue? last with
    | some f, some l => .ok { ruleId, first := f, last := l, message }
    | _, _ => .error ("Non-integer line range " ++ first.shown ++ "-" ++ last.shown)
  | .other v => .error ("Expected RawFinding, got " ++ v.kind)

/-- The findings that a rule produced, or what is said of its failure: one bad item spoils
all. -/
def Evaluation.produced (e : Evaluation) : Except String (List Finding) :=
  match e.allItems with
  | .error failure => .error failure.message
  | .ok yielded => yielded.mapM Item.check

end TemplateAudit
