import Mathlib.Data.List.Forall2
import TemplateAudit.Proofs.Matching

/-!
# TemplateAudit.Proofs.LineRange

Checking line ranges neither loses nor makes up a finding (`run_checks_ranges`).

A step splits what its rule produced by one condition, `FindingOn.InRange`: the findings in range
are kept in order and cut at the end of the document, and for each of the others there is a
diagnostic. So both lists of a run are read off the same one (`findings_produced`,
`diagnostics_produced`), and they add up to it.

What is kept `Fits`: it starts and ends on lines of the document, in this order. A check leaves such
a finding as it is (`within?_of_fits`), so a second check changes nothing.
-/

namespace TemplateAudit

variable {d : Document} {clock : Clock} {reading : Nat}

/-! ### One finding -/

namespace FindingOn

variable {n : Nat} {f : Finding}

theorem not_inRange_iff :
    ¬ f.InRange n ↔
      f.first.toInt < 1 ∨ n < f.first.toInt ∨ f.last.toInt < f.first.toInt := by
  unfold InRange
  omega

/-- A finding starts and ends on lines of a document, in this order. -/
def Fits (n : Nat) (f : Finding) : Prop :=
  1 ≤ f.first.toInt ∧ f.first.toInt ≤ f.last.toInt ∧ f.last.toInt ≤ n

theorem Fits.inRange (h : f.Fits n) : f.InRange n := by
  unfold Fits at h
  unfold InRange
  omega

theorem cut_last_of_le (h : f.last.toInt ≤ n) : (f.cut n).last = f.last := by
  rw [cut, if_neg (by omega)]

theorem toInt_cut_last (n : Nat) (f : Finding) : (f.cut n).last.toInt = min f.last.toInt n := by
  unfold cut
  split
  case isTrue h =>
      rw [Int.min_eq_right (by omega)]
      rfl
  case isFalse h => rw [Int.min_eq_left (by omega)]

theorem cut_of_fits (h : f.Fits n) : f.cut n = f := by
  unfold Fits at h
  rw [cut, if_neg (by omega)]

/-- A finding in range fits once it is cut. -/
theorem InRange.fits_cut (h : f.InRange n) : (f.cut n).Fits n := by
  unfold InRange at h
  rw [Fits, cut_first, toInt_cut_last]
  omega

/-- A finding that fits passes the check as it is. -/
theorem within?_of_fits (h : f.Fits n) : f.within? n = some f := by
  rw [within?_eq, if_pos h.inRange, cut_of_fits h]

end FindingOn

/-! ### One step -/

namespace Step

/-- The findings of a step are those in range, in order and cut. -/
theorem findings_produced (n : Nat) (id : String) (fs : List Finding) :
    (Step.produced id fs).findings n =
      (fs.filter fun f => f.InRange n).map (FindingOn.cut n) := by
  rw [findings]
  induction fs with
  | nil => rfl
  | cons f fs ih =>
      by_cases h : f.InRange n
      · rw [List.filterMap_cons_some (by rw [FindingOn.within?_eq, if_pos h]), ih,
          List.filter_cons_of_pos (by simpa using h), List.map_cons]
      · rw [List.filterMap_cons_none (by rw [FindingOn.within?_eq, if_neg h]), ih,
          List.filter_cons_of_neg (by simpa using h)]

/-- The diagnostics of a step are about the others, in order. -/
theorem diagnostics_produced (n : Nat) (id : String) (fs : List Finding) :
    (Step.produced id fs).diagnostics n =
      (fs.filter fun f => !decide (f.InRange n)).map (.outOfRange id n) := by
  rw [diagnostics]
  refine congrArg (List.map _) (List.filter_congr fun f _ => ?_)
  rw [FindingOn.within?_eq]
  split <;> simp_all

end Step

theorem Rule.step_of_produced {r : Rule} {fs : List Finding}
    (h : (r.evaluate d).produced = .ok fs) : r.step d = .produced r.id fs := by
  rw [Rule.step, h]

/-! ### Runs of one rule -/

namespace Rule

variable {r : Rule} {fs : List Finding}

theorem findings_alone_of_produced (h : (r.evaluate d).produced = .ok fs) :
    (runRules [r] d none clock reading).findings =
      (fs.filter fun f => f.InRange d.lineCount).map (FindingOn.cut d.lineCount) := by
  rw [findings_runRules_singleton, step_of_produced h, Step.findings_produced]

theorem diagnostics_alone_of_produced (h : (r.evaluate d).produced = .ok fs) :
    (runRules [r] d none clock reading).diagnostics =
      (fs.filter fun f => !decide (f.InRange d.lineCount)).map
        (.outOfRange r.id d.lineCount) := by
  rw [diagnostics_runRules_singleton, step_of_produced h, Step.diagnostics_produced]

/-- A rule all of whose findings fit keeps them, and nothing goes wrong. -/
theorem alone_of_fits (h : (r.evaluate d).produced = .ok fs)
    (hfits : ∀ f ∈ fs, f.Fits d.lineCount) :
    (runRules [r] d none clock reading).findings = fs ∧
      (runRules [r] d none clock reading).diagnostics = [] := by
  have hall : (fs.filter fun f => f.InRange d.lineCount) = fs :=
    List.filter_eq_self.mpr fun f hf => by simpa using (hfits f hf).inRange
  constructor
  · rw [findings_alone_of_produced h, hall]
    exact (List.map_congr_left fun f hf => FindingOn.cut_of_fits (hfits f hf)).trans
      (List.map_id fs)
  · rw [diagnostics_alone_of_produced h, List.map_eq_nil_iff, List.filter_eq_nil_iff]
    intro f hf
    simpa using (hfits f hf).inRange

end Rule

/-- A finding and what is left of it after the check: only its end may have moved, up to the end of
a document of `n` lines. -/
structure FindingOn.CutTo (n : Nat) (f g : Finding) : Prop where
  ruleId : g.ruleId = f.ruleId
  first : g.first = f.first
  message : g.message = f.message
  last : g.last.toInt = min f.last.toInt n
  /-- An end within the document stays as it was written. -/
  last_of_le : f.last.toInt ≤ n → g.last = f.last

theorem FindingOn.cutTo_cut (n : Nat) (f : Finding) : f.CutTo n (f.cut n) :=
  ⟨cut_ruleId n f, cut_first n f, cut_message n f, toInt_cut_last n f, cut_last_of_le⟩

/-- The check of line ranges, for any rule that produces findings on any lines at all, in a document
of `n` lines:

* findings and diagnostics about ranges add up to what was produced;
* exactly those findings are dropped, and told about, that start before the first line or after the
  last one, or end before they start;
* the others are kept in order, and nothing about them changes but that the end is at most `n`;
* so all that is kept starts and ends on lines of the document;
* a rule that produces what was kept keeps it all, without a diagnostic. -/
theorem run_checks_ranges (d : Document) (r : Rule) (fs : List Finding) (clock : Clock)
    (reading : Nat) (h : (r.evaluate d).produced = .ok fs) :
    let n := d.lineCount
    let m := runRules [r] d none clock reading
    let dropped (f : Finding) : Bool :=
      f.first.toInt < 1 ∨ n < f.first.toInt ∨ f.last.toInt < f.first.toInt
    m.findings.length + m.diagnostics.countP (·.kind == "invalid_range") = fs.length ∧
      m.diagnostics = (fs.filter dropped).map (.outOfRange r.id n) ∧
      List.Forall₂ (FindingOn.CutTo n) (fs.filter fun f => !dropped f) m.findings ∧
      (∀ g ∈ m.findings, 1 ≤ g.first.toInt ∧ g.first.toInt ≤ g.last.toInt ∧ g.last.toInt ≤ n) ∧
      ∀ again : Rule, (again.evaluate d).produced = .ok m.findings →
        (runRules [again] d none clock reading).findings = m.findings ∧
          (runRules [again] d none clock reading).diagnostics = [] := by
  intro n m dropped
  have hdropped : ∀ f, dropped f = !decide (f.InRange n) := fun f => by
    simp only [dropped, ← FindingOn.not_inRange_iff, decide_not]
  have hfindings : m.findings = (fs.filter fun f => !dropped f).map (FindingOn.cut n) := by
    simp only [hdropped, Bool.not_not]
    exact Rule.findings_alone_of_produced h
  have hdiagnostics : m.diagnostics = (fs.filter dropped).map (.outOfRange r.id n) := by
    simp only [funext hdropped]
    exact Rule.diagnostics_alone_of_produced h
  have hfits : ∀ g ∈ m.findings, g.Fits n := by
    intro g hg
    rw [hfindings] at hg
    obtain ⟨f, hf, rfl⟩ := List.mem_map.mp hg
    refine FindingOn.InRange.fits_cut ?_
    simpa [hdropped] using (List.mem_filter.mp hf).2
  refine ⟨?_, hdiagnostics, ?_, hfits, fun again hagain => Rule.alone_of_fits hagain hfits⟩
  · -- all diagnostics are about ranges, and the two parts of the list make up the whole
    have hkind : m.diagnostics.countP (·.kind == "invalid_range") = m.diagnostics.length := by
      refine List.countP_eq_length.mpr fun x hx => ?_
      rw [hdiagnostics] at hx
      obtain ⟨f, -, rfl⟩ := List.mem_map.mp hx
      rfl
    rw [hkind, hfindings, hdiagnostics, List.length_map, List.length_map, Nat.add_comm]
    exact (List.length_eq_length_filter_add dropped).symm
  · rw [hfindings, List.forall₂_map_right_iff]
    exact List.forall₂_same.mpr fun f _ => FindingOn.cutTo_cut n f

/-- A rule that produces given findings. -/
def Rule.producing (id : String) (fs : List Finding) : Rule :=
  { id, title := none, importance := .low, recommendation := none,
    evaluate := fun _ => .items (fs.map FindingOn.item) none }

/-- Findings of one rule on all kinds of ranges. -/
def scattered : List Finding :=
  [(0, 1), (4, 9), (3, 2), (2, 40), (-7, 2), (3, 3), (1, -1)].map fun range =>
    .ofLines "r" range.1 range.2 "m"

theorem run_checks_ranges_scattered :
    let d := Document.ofText "a\nb\nc" defaultToken
    let m := runRules [.producing "r" scattered] d none (fun _ => .whole 0) 0
    ((Rule.producing "r" scattered).evaluate d).produced = .ok scattered ∧
      m.findings.length + m.diagnostics.countP (·.kind == "invalid_range") = 7 ∧
      ((Rule.producing "r" m.findings).evaluate d).produced = .ok m.findings ∧
      (runRules [.producing "r" m.findings] d none (fun _ => .whole 0) 0).findings =
        m.findings := by
  intro d m
  have hproduced : ∀ fs, ((Rule.producing "r" fs).evaluate d).produced = .ok fs :=
    mapM_check_map_item
  obtain ⟨hcount, -, -, -, hagain⟩ :=
    run_checks_ranges d (.producing "r" scattered) scattered (fun _ => .whole 0) 0 (hproduced _)
  exact ⟨hproduced _, hcount, hproduced _, (hagain _ (hproduced _)).1⟩

end TemplateAudit
