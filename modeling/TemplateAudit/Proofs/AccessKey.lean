import TemplateAudit.Proofs.Document
import TemplateAudit.Proofs.LineRange
import TemplateAudit.Proofs.Selection

/-!
# TemplateAudit.Proofs.AccessKey

What the rule about access keys comes to in a run.

The rule reads line by line and never fails, and what it finds is on lines of the document. So a
run neither drops nor changes any of it: `step_rule` is the whole step of the rule. Of one line
either everything is silenced or nothing is (`filter_ofLine`).
-/

namespace TemplateAudit

namespace Evaluation

/-- A search that succeeds has produced what it found. -/
theorem produced_ofSearch_ok (fs : List Finding) : (ofSearch (.ok fs)).produced = .ok fs :=
  mapM_check_map_item fs

/-- A search that fails says so. -/
theorem produced_ofSearch_error (failure : Failure) :
    (ofSearch (.error failure)).produced = .error failure.message := rfl

end Evaluation

namespace Rules.AccessKey

/-- The findings in a line. -/
def ofLine (l : Line) : List Finding :=
  (reported l).map fun key => .ofLines id l.number l.number (message key)

theorem search_eq (d : Document) : search d = d.lines.flatMap ofLine := rfl

/-- What is found in a line is found on that line. -/
theorem lines_of_mem_ofLine {l : Line} {f : Finding} (hf : f ∈ ofLine l) :
    f.first = .number l.number ∧ f.last = .number l.number := by
  obtain ⟨key, -, rfl⟩ := List.mem_map.mp hf
  exact ⟨rfl, rfl⟩

/-! ### A run of the rule -/

/-- All that is found is within the document. -/
theorem within?_of_mem_search {input : Input} {token : Text} {f : Finding}
    (hf : f ∈ search (input.document token)) : f.within? input.lines.length = some f := by
  rw [search_eq, List.mem_flatMap] at hf
  obtain ⟨l, hl, hf⟩ := hf
  rw [Input.document_eq] at hl
  obtain ⟨i, s, hs, rfl⟩ := mem_numberFrom.mp hl
  obtain ⟨hfirst, hlast⟩ := lines_of_mem_ofLine hf
  have hi : i < input.lines.length := (List.getElem?_eq_some_iff.mp hs).1
  refine FindingOn.within?_of_fits ?_
  rw [FindingOn.Fits, hfirst, hlast]
  simp only [LineRef.toInt]
  omega

theorem produced_evaluate (d : Document) : (rule.evaluate d).produced = .ok (search d) :=
  Evaluation.produced_ofSearch_ok (search d)

/-- The step of the rule. -/
theorem step_rule (d : Document) : rule.step d = .produced id (search d) := by
  rw [Rule.step, produced_evaluate]
  rfl

theorem findings_step (input : Input) (token : Text) :
    (rule.step (input.document token)).findings input.lines.length =
      search (input.document token) := by
  rw [step_rule, Step.findings]
  have hall : ∀ f ∈ search (input.document token),
      f.within? input.lines.length = some f := fun f hf => within?_of_mem_search hf
  rw [List.filterMap_congr hall, List.filterMap_some]

theorem diagnostics_step (input : Input) (token : Text) :
    (rule.step (input.document token)).diagnostics input.lines.length = [] := by
  rw [step_rule, Step.diagnostics, List.map_eq_nil_iff, List.filter_eq_nil_iff]
  intro f hf
  simp [within?_of_mem_search hf]

/-! ### Silenced lines -/

/-- A finding in a line is silenced with the line. -/
theorem startsOn_of_mem_ofLine {l : Line} {f : Finding} (hf : f ∈ ofLine l) (lines : List Int) :
    f.startsOn lines = decide (l.number ∈ lines) := by
  have hsame : ∀ n : Int, (LineRef.toValue f.first).same (.int n) = (l.number == n) := fun n => by
    rw [(lines_of_mem_ofLine hf).1]
    exact LineRef.same_toValue (.number l.number) (.number n)
  rw [Bool.eq_iff_iff, FindingOn.startsOn, List.any_eq_true, decide_eq_true_eq]
  constructor
  · rintro ⟨n, hn, h⟩
    rw [show l.number = n from eq_of_beq ((hsame n).symm.trans h)]
    exact hn
  · intro hn
    exact ⟨_, hn, (hsame _).trans (beq_self_eq_true _)⟩

/-- Of a line, all findings are silenced or none. -/
theorem filter_ofLine (l : Line) (lines : List Int) :
    (ofLine l).filter (fun f => !f.startsOn lines) = if l.number ∈ lines then [] else ofLine l := by
  split
  case isTrue h =>
      refine List.filter_eq_nil_iff.mpr fun f hf => ?_
      simp [startsOn_of_mem_ofLine hf, h]
  case isFalse h =>
      refine List.filter_eq_self.mpr fun f hf => ?_
      simp [startsOn_of_mem_ofLine hf, h]

/-- The findings in a line unless it is silenced. -/
def openOfLine (lines : List Int) (l : Line) : List Finding :=
  if l.number ∈ lines then [] else ofLine l

/-- The findings that are not silenced, line by line. -/
theorem unsuppressed_search (d : Document) :
    unsuppressed d.suppressed (search d) = d.lines.flatMap (openOfLine d.suppressed) := by
  rw [unsuppressed, search_eq, List.filter_flatMap]
  exact congrArg (d.lines.flatMap ·) (funext fun l => filter_ofLine l d.suppressed)

/-! ### Texts without keys -/

/-- The characters of keys, by their numbers. -/
theorem isKeyChar_iff {c : Char} :
    isKeyChar c = true ↔
      (0x41 ≤ c.toNat ∧ c.toNat ≤ 0x5A) ∨ (0x30 ≤ c.toNat ∧ c.toNat ≤ 0x39) := by
  simp only [isKeyChar, Text.isAsciiUpper, Text.isAsciiDigit, Bool.or_eq_true, Bool.and_eq_true,
    decide_eq_true_eq, Char.le_def, UInt32.le_iff_toNat_le]
  rfl

theorem isKeyChar_of_isBlank {c : Char} (h : Text.isBlank c = true) : isKeyChar c = false := by
  rw [← Bool.not_eq_true, isKeyChar_iff]
  simp only [Text.isBlank, Bool.or_eq_true, Bool.and_eq_true, decide_eq_true_eq, beq_iff_eq] at h
  omega

/-- A text without the characters of keys has no keys. -/
theorem keysFrom_eq_nil {cs : List Char} (h : ∀ c ∈ cs, isKeyChar c = false) (inRun : Bool) :
    keysFrom inRun cs = [] := by
  induction cs generalizing inRun with
  | nil => rfl
  | cons c cs ih =>
      have hc := h c List.mem_cons_self
      have hstarts : startsKey (c :: cs) = false := by
        simp [startsKey, keyLength, hc]
      rw [keysFrom, hstarts, ih fun d hd => h d (List.mem_cons_of_mem c hd)]
      simp

end Rules.AccessKey

end TemplateAudit
