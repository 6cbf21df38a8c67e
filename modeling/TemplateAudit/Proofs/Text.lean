import Mathlib.Data.List.Basic
import TemplateAudit.Text.Point

/-!
# TemplateAudit.Proofs.Text

Strings as texts. Every string is a text, no two are the same one, and a text that is a string
gives it back.
-/

namespace TemplateAudit

/-- Pieces that are read one by one are read all together. -/
theorem mapM_map_eq_some {α β γ : Type} {write : α → β} {read? : β → Option γ} {meant : α → γ}
    {xs : List α} (h : ∀ x ∈ xs, read? (write x) = some (meant x)) :
    (xs.map write).mapM read? = some (xs.map meant) := by
  induction xs with
  | nil => rfl
  | cons x xs ih =>
      rw [List.forall_mem_cons] at h
      rw [List.map_cons, List.mapM_cons, h.1, ih h.2]
      rfl

namespace Text

theorem mem_ofString {s : String} {d : Char} : Point.char d ∈ ofString s ↔ d ∈ s.toList := by
  simp [ofString, ofChars]

theorem chars_ofString (s : String) : chars (ofString s) = s.toList := by
  simp [chars, ofString, ofChars, Function.comp_def, Point.toChar]

@[simp] theorem string_ofString (s : String) : (ofString s).string = s := by
  rw [string, chars_ofString, String.ofList_toList]

theorem ofString_injective : Function.Injective ofString :=
  Function.LeftInverse.injective string_ofString

theorem string?_ofString (s : String) : (ofString s).string? = some s := by
  have hchars : (s.toList.map Point.char).mapM Point.char? = some (s.toList.map id) :=
    mapM_map_eq_some fun _ _ => rfl
  rw [string?, ofString, ofChars, hchars, List.map_id, Option.map_some, String.ofList_toList]

end Text

end TemplateAudit
