import TemplateAudit.Rule

/-!
# TemplateAudit.Proofs.Evaluation

When the evaluation of a rule **fails**, said without the checks that find it out.

`Evaluation.produced` walks over whatever came out of a rule and checks it item by item. Here the
same is said of the evaluation as a whole: `Evaluation.Fails` lists the four ways in which there
are no findings to be had, and a failing evaluation has a message instead (`Fails.produced`). An
evaluation that does produce findings has yielded them one by one (`mapM_check_eq_ok_iff`), so a
finding that is produced is one that was yielded, unchanged.
-/

namespace TemplateAudit

open TemplateAudit.Data (Value)

/-! ### Line numbers as values -/

namespace LineRef

@[simp] theorem ofValue?_toValue (l : LineRef) : ofValue? l.toValue = some l := by
  cases l <;> rfl

/-- A value is a line number if it is the value of one. -/
theorem ofValue?_eq_some_iff {v : Value} {l : LineRef} :
    ofValue? v = some l ↔ v = l.toValue := by
  constructor
  · intro h
    cases v with
    | int n =>
        obtain rfl : LineRef.number n = l := Option.some.inj h
        rfl
    | bool b =>
        obtain rfl : LineRef.flag b = l := Option.some.inj h
        rfl
    | _ => cases h
  · rintro rfl
    exact ofValue?_toValue l

end LineRef

/-! ### Items that are findings -/

/-- A finding as the item that a rule yields for it. -/
def FindingOn.item (f : Finding) : Item :=
  .finding f.ruleId f.first.toValue f.last.toValue f.message

/-- A finding on numbered lines, and not some other value or a finding on something else. -/
def Item.IsFinding (i : Item) : Prop := ∃ f : Finding, i = f.item

/-- The check lets exactly the findings pass, and changes nothing about them. -/
theorem Item.check_eq_ok_iff {i : Item} {f : Finding} : i.check = .ok f ↔ i = f.item := by
  constructor
  · intro h
    cases i with
    | other v => simp [Item.check] at h
    | finding ruleId first last message =>
        simp only [Item.check] at h
        split at h
        case h_1 l m hl hm =>
            obtain rfl := Except.ok.inj h
            rw [LineRef.ofValue?_eq_some_iff] at hl hm
            rw [FindingOn.item, hl, hm]
        case h_2 => simp at h
  · rintro rfl
    simp [Item.check, FindingOn.item]

theorem Item.check_item (f : Finding) : f.item.check = .ok f := check_eq_ok_iff.mpr rfl

/-- Checking findings one by one gives them back. -/
theorem mapM_check_map_item (fs : List Finding) :
    (fs.map FindingOn.item).mapM Item.check = .ok fs := by
  induction fs with
  | nil => rfl
  | cons f fs ih =>
      rw [List.map_cons, List.mapM_cons, Item.check_item, ih]
      rfl

/-- What passes the check one by one is findings one by one. -/
theorem eq_map_item_of_mapM_check {yielded : List Item} {fs : List Finding}
    (h : yielded.mapM Item.check = .ok fs) : yielded = fs.map FindingOn.item := by
  induction yielded generalizing fs with
  | nil =>
      obtain rfl : [] = fs := Except.ok.inj h
      rfl
  | cons i yielded ih =>
      rw [List.mapM_cons] at h
      cases hi : i.check with
      | error message => rw [hi] at h; cases h
      | ok f =>
          cases hr : yielded.mapM Item.check with
          | error message => rw [hi, hr] at h; cases h
          | ok rest =>
              rw [hi, hr] at h
              obtain rfl : f :: rest = fs := Except.ok.inj h
              rw [List.map_cons, ← ih hr, ← Item.check_eq_ok_iff.mp hi]

/-- Checking all items yields findings exactly when the items are these findings. -/
theorem mapM_check_eq_ok_iff {yielded : List Item} {fs : List Finding} :
    yielded.mapM Item.check = .ok fs ↔ yielded = fs.map FindingOn.item :=
  ⟨eq_map_item_of_mapM_check, fun h => h ▸ mapM_check_map_item fs⟩

/-- One item that is no finding spoils all, wherever it stands. -/
theorem mapM_check_eq_error {yielded : List Item} {i : Item} (hmem : i ∈ yielded)
    (hi : ¬ i.IsFinding) : ∃ message, yielded.mapM Item.check = .error message := by
  cases h : yielded.mapM Item.check with
  | error message => exact ⟨message, rfl⟩
  | ok fs =>
      rw [mapM_check_eq_ok_iff] at h
      subst h
      obtain ⟨f, -, rfl⟩ := List.mem_map.mp hmem
      exact absurd ⟨f, rfl⟩ hi

/-! ### Failing evaluations -/

namespace Evaluation

/-- The ways in which an evaluation comes to no findings at all. -/
inductive Fails : Evaluation → Prop
  /-- It breaks off, after any number of items. -/
  | raised (yielded : List Item) (failure : Failure) : Fails (.items yielded (some failure))
  /-- One of its items is no finding on numbered lines. -/
  | unfit {yielded : List Item} {i : Item} (hmem : i ∈ yielded) (hi : ¬ i.IsFinding) :
      Fails (.items yielded none)
  /-- The value in place of items is not nothing, and cannot be walked over. -/
  | unwalkable {v : Value} (hv : v.isNothing = false) (hitems : v.items? = none) :
      Fails (.value v)
  /-- The value in place of items has parts, which are no findings. -/
  | walkable {v : Value} {vs : List Value} (hv : v.isNothing = false) (hitems : v.items? = some vs)
      (hvs : vs ≠ []) : Fails (.value v)

/-- The parts of a value are no findings. -/
theorem not_isFinding_other (v : Value) : ¬ (Item.other v).IsFinding := by
  rintro ⟨f, hf⟩
  cases hf

/-- A failing evaluation produces no findings, only a message. -/
theorem Fails.produced {e : Evaluation} (h : e.Fails) : ∃ message, e.produced = .error message := by
  cases h with
  | raised yielded failure => exact ⟨failure.message, rfl⟩
  | unfit hmem hi => exact mapM_check_eq_error hmem hi
  | unwalkable hv hitems => simp [Evaluation.produced, allItems, hv, hitems]
  | walkable hv hitems hvs =>
      obtain ⟨w, hw⟩ := List.exists_mem_of_ne_nil _ hvs
      simp only [Evaluation.produced, allItems, hv, hitems]
      exact mapM_check_eq_error (List.mem_map_of_mem hw) (not_isFinding_other w)

end Evaluation

end TemplateAudit
