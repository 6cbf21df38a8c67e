import TemplateAudit.Finding

/-!
# TemplateAudit.Selection

Which findings are kept: those that are not silenced, each once, the most important ones
first, and no more than asked for.
-/

namespace TemplateAudit

variable {ℓ : Type} [LineValue ℓ]

/-- The findings whose first line is not silenced. -/
def unsuppressed (suppressed : List Int) (findings : List (FindingOn ℓ)) : List (FindingOn ℓ) :=
  findings.filter fun f => !f.startsOn suppressed

/-- The findings without those of the same rule on the same lines as an earlier one. -/
def collapse : List (FindingOn ℓ) → List (FindingOn ℓ)
  | [] => []
  | f :: fs => f :: (collapse fs).filter fun g => !f.sameKey g

/-- The most important findings, at most `limit` of them: repeats are left out, and of equal
rank the earlier one comes first. -/
def select (limit : Int) (rank : FindingOn ℓ → Int) (findings : List (FindingOn ℓ)) :
    List (FindingOn ℓ) :=
  ((collapse findings).mergeSort fun f g => rank f ≤ rank g).take limit.toNat

/-- The first finding that cannot be told apart from others by its rule and its lines. -/
def unkeyed? (findings : List (FindingOn ℓ)) : Option (FindingOn ℓ) :=
  findings.find? fun f => !f.hasKey

end TemplateAudit
