import TemplateAudit.Proofs.Annotate
import TemplateAudit.Proofs.Settings

/-!
# TemplateAudit.Proofs.Verdict

The verdict on a run speaks for **all** of its findings.

The exit code is read off the annotations, and these are the few that a limit lets through. It is
still the gravest verdict on any finding that is in the document and not silenced, if the settings
put no severity before a graver one. `exists_told` carries this: for every arrival there is one
among those that are told whose verdict is at least as grave. What collapses into one has one
severity (`Catalog.severityOf_congr`), and nothing in the ranking is graver than its head.
-/

namespace TemplateAudit

open TemplateAudit.Data (Value)

/-! ### The gravest of some verdicts -/

/-- The gravest of some verdicts, 0 without any. -/
def gravest (verdicts : List Nat) : Nat := verdicts.max?.getD 0

theorem gravest_le_iff {verdicts : List Nat} {n : Nat} :
    gravest verdicts ≤ n ↔ ∀ v ∈ verdicts, v ≤ n := by
  unfold gravest
  cases h : verdicts.max? with
  | none =>
      obtain rfl := List.max?_eq_none_iff.mp h
      simp
  | some m =>
      obtain ⟨hmem, hmax⟩ := List.max?_eq_some_iff.mp h
      exact ⟨fun hle v hv => (hmax v hv).trans hle, fun hall => hall m hmem⟩

/-- Verdicts that are all matched by as grave ones are no graver together. -/
theorem gravest_mono {verdicts others : List Nat} (h : ∀ v ∈ verdicts, ∃ w ∈ others, v ≤ w) :
    gravest verdicts ≤ gravest others := by
  refine gravest_le_iff.mpr fun v hv => ?_
  obtain ⟨w, hw, hle⟩ := h v hv
  exact hle.trans (gravest_le_iff.mp (Nat.le_refl _) w hw)

/-- The exit code is the gravest verdict on an annotation. -/
theorem Outcome.exitCode_eq_gravest {ℓ α : Type} (o : Outcome ℓ α) :
    o.exitCode = gravest (o.severities.map Severity.verdict) := by
  rw [exitCode, List.foldl_max, Nat.zero_max, gravest]

/-- The severities that let a build pass. -/
theorem Severity.verdict_le_zero_iff {v : Severity} :
    v.verdict ≤ 0 ↔ v ≠ .critical ∧ v ≠ .high ∧ v ≠ .medium := by
  cases v <;> decide

/-! ### What is told for what is found -/

variable {c : Catalog} {s : Settings} {input : Input} {clock : Clock}

/-- A text is the key that a value is if the value is that text. -/
theorem text_same_iff {v : Value} {t : Text} : (Value.text t).same v = true ↔ v = .text t := by
  cases v with
  | text u => rw [Value.same, beq_iff_eq, Value.text.injEq, eq_comm]
  | _ => simp [Value.same, Value.numeral?]

/-- Findings of one key have one severity. -/
theorem Catalog.severityOf_congr (c : Catalog) {f g : Finding} (h : f.sameKey g = true) :
    c.severityOf f = c.severityOf g := by
  have hid : f.ruleId.same g.ruleId = true := by
    unfold FindingOn.sameKey at h
    exact (Bool.and_eq_true_iff.mp (Bool.and_eq_true_iff.mp h).1).1
  have hrule : c.ruleFor? f.ruleId = c.ruleFor? g.ruleId := by
    apply Option.ext
    intro r
    rw [Catalog.ruleFor?_eq_some_iff, Catalog.ruleFor?_eq_some_iff]
    -- either both are the text that is the identifier of the rule, or neither is
    refine and_congr_right fun _ => ?_
    constructor
    · intro hf
      rw [hf] at hid
      exact text_same_iff.mp hid
    · intro hg
      rw [hg] at hid
      exact same_text_iff.mp hid
  rw [Catalog.severityOf, Catalog.severityOf, hrule]

/-- For every arrival, one with the same severity is ranked. -/
theorem exists_ranked {found : List Arrival} {a : Arrival} (ha : a ∈ found) :
    ∃ b ∈ ranked c s found, c.severityOf b.finding = c.severityOf a.finding := by
  have hfirst : ∀ a ∈ found, ∃ b ∈ firsts (fun a b => a.finding.sameKey b.finding) found,
      c.severityOf b.finding = c.severityOf a.finding :=
    exists_mem_firsts fun _ _ _ _ h => c.severityOf_congr h
  obtain ⟨b, hb, hsame⟩ := hfirst a ha
  exact ⟨b, (byRank_perm _ _).mem_iff.mpr hb, hsame⟩

/-- What is ranked first has the gravest verdict. -/
theorem pairwise_verdict_ranked (hs : s.Checked) (horder : s.GravestFirst) (found : List Arrival) :
    (ranked c s found).Pairwise fun a b =>
      (c.severityOf b.finding).verdict ≤ (c.severityOf a.finding).verdict := by
  refine (pairwise_byRank (List.pairwise_of_forall fun _ _ => trivial)).imp fun {a b} hab => ?_
  by_contra hlt
  have := hs.rank_lt horder (Nat.lt_of_not_le hlt)
  omega

/-- For every arrival, one that is told is at least as grave, whatever the limit is. -/
theorem exists_told (hs : s.Checked) (horder : s.GravestFirst) {limit : Nat} (hlimit : 1 ≤ limit)
    {found : List Arrival} {a : Arrival} (ha : a ∈ found) :
    ∃ b ∈ (ranked c s found).take limit,
      (c.severityOf a.finding).verdict ≤ (c.severityOf b.finding).verdict := by
  obtain ⟨b, hb, hsame⟩ := exists_ranked (c := c) (s := s) ha
  have hsorted := pairwise_verdict_ranked (c := c) hs horder found
  obtain ⟨limit, rfl⟩ : ∃ k, limit = k + 1 := ⟨limit - 1, by omega⟩
  cases hranked : ranked c s found with
  | nil => rw [hranked] at hb; cases hb
  | cons first rest =>
      rw [hranked] at hb hsorted
      refine ⟨first, List.mem_cons_self, ?_⟩
      rw [← hsame]
      rcases List.mem_cons.mp hb with rfl | hrest
      · exact Nat.le_refl _
      · exact (List.pairwise_cons.mp hsorted).1 b hrest

/-- The exit code of a run is the gravest verdict on its arrivals. -/
theorem exitCode_outcome (hs : s.Checked) (horder : s.GravestFirst) {limit : Nat}
    (hlimit : 1 ≤ limit) :
    (c.outcome { s with maxAnnotations := limit } input clock).exitCode =
      gravest ((c.found s input clock).map fun a => (c.severityOf a.finding).verdict) := by
  have htold : (c.outcome { s with maxAnnotations := limit } input clock).severities.map
      Severity.verdict = ((ranked c s (c.found s input clock)).take limit).map
        fun a => (c.severityOf a.finding).verdict := by
    simp only [Outcome.severities, Catalog.outcome, List.map_map]
    rfl
  rw [Outcome.exitCode_eq_gravest, htold]
  refine Nat.le_antisymm (gravest_mono fun v hv => ?_) (gravest_mono fun v hv => ?_)
  · obtain ⟨a, ha, rfl⟩ := List.mem_map.mp hv
    exact ⟨_, List.mem_map_of_mem (mem_found_of_mem_ranked (List.mem_of_mem_take ha)),
      Nat.le_refl _⟩
  · obtain ⟨a, ha, rfl⟩ := List.mem_map.mp hv
    obtain ⟨b, hb, hle⟩ := exists_told hs horder hlimit ha
    exact ⟨_, List.mem_map_of_mem hb, hle⟩

/-- A run with an outcome has the one that its arrivals give it. -/
theorem outcome_of_annotateWith {run : Annotated} (h : annotateWith c s input clock = .ok run) :
    (∀ a ∈ c.found s input clock, a.finding.ruleId.isKey = true) ∧
      run.outcome = c.outcome s input clock := by
  cases hfind : (c.found s input clock).find? (fun a => !a.finding.ruleId.isKey) with
  | some a => rw [annotateWith_eq_error hfind] at h; cases h
  | none =>
      have hkeys : ∀ a ∈ c.found s input clock, a.finding.ruleId.isKey = true := by
        simpa using hfind
      obtain ⟨log, hrun⟩ := annotateWith_eq_ok hkeys
      obtain rfl := Except.ok.inj (hrun.symm.trans h)
      exact ⟨hkeys, rfl⟩

/-- A limit hides no failure. Whatever the rules do, there is an outcome unless a finding is
attributed to something that can be no identifier; and then, for every limit but 0, its exit code
is the gravest verdict on any finding that is in the document and not silenced. So the limit makes
no difference to it, and a run passes only if nothing at all was found that fails or warns. -/
theorem annotate_exitCode (c : Catalog) (s : Settings) (input : Input) (clock : Clock)
    (hs : s.Checked) (horder : s.GravestFirst) :
    let found := (c.enabled s).found s input clock
    let severity (a : Arrival) : Severity := (c.enabled s).severityOf a.finding
    ∀ limit, 1 ≤ limit →
      ((∃ run, annotate (.ready c) { s with maxAnnotations := limit } input clock = .ok run) ↔
        ∀ a ∈ found, a.finding.ruleId.isKey = true) ∧
      ∀ run, annotate (.ready c) { s with maxAnnotations := limit } input clock = .ok run →
        run.outcome.exitCode = gravest (found.map fun a => (severity a).verdict) ∧
        (run.outcome.passed = true ↔ ∀ a ∈ found,
          severity a ≠ .critical ∧ severity a ≠ .high ∧ severity a ≠ .medium) := by
  intro found severity limit hlimit
  refine ⟨⟨?_, ?_⟩, ?_⟩
  · rintro ⟨run, hrun⟩
    exact (outcome_of_annotateWith hrun).1
  · intro hkeys
    obtain ⟨log, hrun⟩ := annotateWith_eq_ok (s := { s with maxAnnotations := limit }) hkeys
    exact ⟨_, hrun⟩
  · intro run hrun
    have hcode : run.outcome.exitCode = gravest (found.map fun a => (severity a).verdict) := by
      rw [(outcome_of_annotateWith hrun).2]
      exact exitCode_outcome hs horder hlimit
    refine ⟨hcode, ?_⟩
    rw [Outcome.passed, beq_iff_eq, hcode, ← Nat.le_zero, gravest_le_iff, List.forall_mem_map]
    exact forall₂_congr fun a _ => Severity.verdict_le_zero_iff

/-- A rule with a finding of little weight before a rule with a grave one. -/
def mixed : Catalog :=
  .ofRules [
    { id := "minor", title := none, importance := .low, recommendation := none,
      evaluate := fun _ =>
        .items [.finding (.ofString "minor") (.int 1) (.int 1) (.ofString "untidy")] none },
    { id := "major", title := none, importance := .high, recommendation := none,
      evaluate := fun _ =>
        .items [.finding (.ofString "major") (.int 2) (.int 2) (.ofString "exposed")] none }]

theorem annotate_exitCode_mixed :
    Settings.default.Checked ∧ Settings.default.GravestFirst ∧
      ∃ run, annotate (.ready mixed) { Settings.default with maxAnnotations := 1 } threeLines
          (fun _ => .whole 0) = .ok run ∧ run.outcome.exitCode = 2 := by
  refine ⟨Settings.checked_default, Settings.gravestFirst_default, ?_⟩
  obtain ⟨hok, hcode⟩ := annotate_exitCode mixed .default threeLines (fun _ => .whole 0)
    Settings.checked_default Settings.gravestFirst_default 1 (Nat.le_refl 1)
  obtain ⟨run, hrun⟩ := hok.mpr (by decide)
  exact ⟨run, hrun, (hcode run hrun).1.trans rfl⟩

end TemplateAudit
