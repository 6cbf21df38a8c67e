import TemplateAudit.Matching
import TemplateAudit.Proofs.Evaluation

/-!
# TemplateAudit.Proofs.Matching

A run of a catalog, rule by rule.

The steps of a run are made one after the other, with a reading of the clock before each, and the
first reading at or past the deadline ends them. `IsCutoff` says which rule that is, without going
through the run. `stepsFrom_eq` is the whole course of a run in one equation: the steps of the
rules before the cutoff, each made as if that rule were alone, and one step for those after it.

What a run yields is read off its steps, so the rest follows by distributing over that equation.
In particular no rule can see, hide or spoil what another one found.
-/

namespace TemplateAudit

open TemplateAudit.Data (Value)
open TemplateAudit.Number (Quantity)

variable {deadline : Option Quantity} {clock : Clock} {d : Document}

/-! ### The cutoff -/

/-- Of `n` rules that are due from a reading of the clock on, `k` are started: the deadline has not
passed at the readings before them, and it has at the next one, unless there is no rule left. -/
structure IsCutoff (deadline : Option Quantity) (clock : Clock) (reading n k : Nat) : Prop where
  le : k ≤ n
  /-- The deadline has not passed at any reading before. -/
  before : ∀ i < k, hasPassed deadline (clock (reading + i)) = false
  /-- It has passed at the reading before the first rule that is not started. -/
  at_cutoff : k < n → hasPassed deadline (clock (reading + k)) = true

namespace IsCutoff

theorem nil (reading : Nat) : IsCutoff deadline clock reading 0 0 :=
  ⟨Nat.le_refl 0, fun _ hi => absurd hi (Nat.not_lt_zero _), fun h => absurd h (Nat.lt_irrefl 0)⟩

/-- The deadline passes before the first rule. -/
theorem now {reading : Nat} (h : hasPassed deadline (clock reading) = true) (n : Nat) :
    IsCutoff deadline clock reading n 0 :=
  ⟨Nat.zero_le n, fun _ hi => absurd hi (Nat.not_lt_zero _), fun _ => h⟩

/-- The deadline does not pass before the first rule, and the others follow. -/
theorem cons {reading n k : Nat} (h : hasPassed deadline (clock reading) = false)
    (hk : IsCutoff deadline clock (reading + 1) n k) :
    IsCutoff deadline clock reading (n + 1) (k + 1) := by
  refine ⟨Nat.succ_le_succ hk.le, ?_, ?_⟩
  · intro i hi
    cases i with
    | zero => exact h
    | succ i =>
        rw [show reading + (i + 1) = reading + 1 + i by omega]
        exact hk.before i (by omega)
  · intro hlt
    rw [show reading + (k + 1) = reading + 1 + k by omega]
    exact hk.at_cutoff (by omega)

/-- There is one cutoff only. -/
theorem unique {reading n k l : Nat} (hk : IsCutoff deadline clock reading n k)
    (hl : IsCutoff deadline clock reading n l) : k = l := by
  rcases Nat.lt_trichotomy k l with h | h | h
  · have hpassed := hk.at_cutoff (Nat.lt_of_lt_of_le h hl.le)
    rw [hl.before k h] at hpassed
    cases hpassed
  · exact h
  · have hpassed := hl.at_cutoff (Nat.lt_of_lt_of_le h hk.le)
    rw [hk.before l h] at hpassed
    cases hpassed

end IsCutoff

/-- How many of `n` rules are started. -/
def cutoff (deadline : Option Quantity) (clock : Clock) : (reading n : Nat) → Nat
  | _, 0 => 0
  | reading, n + 1 =>
    if hasPassed deadline (clock reading) then 0 else cutoff deadline clock (reading + 1) n + 1

theorem isCutoff_cutoff (deadline : Option Quantity) (clock : Clock) (reading n : Nat) :
    IsCutoff deadline clock reading n (cutoff deadline clock reading n) := by
  induction n generalizing reading with
  | zero => exact .nil reading
  | succ n ih =>
      cases h : hasPassed deadline (clock reading) with
      | true =>
          rw [cutoff, if_pos h]
          exact .now h (n + 1)
      | false =>
          rw [cutoff, if_neg (by simp [h])]
          exact .cons h (ih (reading + 1))

/-- Without a deadline all rules are started. -/
theorem cutoff_none (clock : Clock) (reading n : Nat) : cutoff none clock reading n = n := by
  induction n generalizing reading with
  | zero => rfl
  | succ n ih => rw [cutoff, hasPassed, if_neg (by simp), ih]

/-! ### The course of a run -/

/-- The diagnostic for rules that are not started. -/
def Diagnostic.skipped (ids : List String) : Diagnostic :=
  { kind := "deadline", message := "Skipped after deadline: " ++ ", ".intercalate ids,
    ruleId := none }

/-- The diagnostic for a rule that fails. -/
def Diagnostic.ruleError (id message : String) : Diagnostic :=
  { kind := "rule_error", message, ruleId := some id }

/-- The diagnostic for a finding that is not in a document of so many lines. -/
def Diagnostic.outOfRange (id : String) (lineCount : Nat) (f : Finding) : Diagnostic :=
  { kind := "invalid_range", message := "Lines " ++ f.rangeText ++ s!" outside 1-{lineCount}",
    ruleId := some id }

/-- The step for the rules that are not started, if there are any. -/
def skippedStep : List Rule → List Step
  | [] => []
  | r :: rs => [.skipped ((r :: rs).map Rule.id)]

/-- Every rule before the cutoff makes the step that it makes alone, and those after it make one
step together. -/
theorem stepsFrom_eq (d : Document) (reading : Nat) (rules : List Rule) :
    stepsFrom deadline clock d reading rules =
      (rules.take (cutoff deadline clock reading rules.length)).map (Rule.step d) ++
        skippedStep (rules.drop (cutoff deadline clock reading rules.length)) := by
  induction rules generalizing reading with
  | nil => rfl
  | cons r rs ih =>
      rw [stepsFrom, List.length_cons, cutoff]
      cases h : hasPassed deadline (clock reading) with
      | true => rfl
      | false =>
          -- the first rule uses up one reading, so the others are cut off one later
          rw [if_neg (by simp), if_neg (by simp), ih (reading + 1)]
          rfl

theorem findings_skippedStep (n : Nat) (rs : List Rule) :
    (skippedStep rs).flatMap (Step.findings n) = [] := by
  cases rs <;> rfl

theorem evaluated_skippedStep (rs : List Rule) : (skippedStep rs).flatMap Step.evaluated = [] := by
  cases rs <;> rfl

theorem diagnostics_skippedStep (n : Nat) (rs : List Rule) :
    (skippedStep rs).flatMap (Step.diagnostics n) =
      if 0 < rs.length then [.skipped (rs.map Rule.id)] else [] := by
  cases rs with
  | nil => rfl
  | cons r rs =>
      rw [List.length_cons, if_pos (Nat.zero_lt_succ rs.length)]
      rfl

/-- The step for rules that are not started depends on their identifiers only. -/
theorem skippedStep_congr {rs ss : List Rule} (h : rs.map Rule.id = ss.map Rule.id) :
    skippedStep rs = skippedStep ss := by
  cases rs with
  | nil =>
      cases ss with
      | nil => rfl
      | cons s ss => cases h
  | cons r rs =>
      cases ss with
      | nil => cases h
      | cons s ss => rw [skippedStep, skippedStep, h]

/-! ### What a run yields -/

/-- The rules of a catalog that are started. -/
def Catalog.started (c : Catalog) (deadline : Option Quantity) (clock : Clock) (reading : Nat) :
    List Rule :=
  c.rules.take (cutoff deadline clock reading c.size)

/-- The rules of a catalog that are not started. -/
def Catalog.unstarted (c : Catalog) (deadline : Option Quantity) (clock : Clock) (reading : Nat) :
    List Rule :=
  c.rules.drop (cutoff deadline clock reading c.size)

namespace Catalog

variable {c : Catalog} {reading : Nat}

theorem started_append_unstarted :
    c.started deadline clock reading ++ c.unstarted deadline clock reading = c.rules :=
  List.take_append_drop _ _

/-- Without a deadline all rules are started. -/
theorem started_none : c.started none clock reading = c.rules := by
  rw [started, cutoff_none, size, List.take_length]

theorem run_eq :
    c.run d deadline clock reading =
      .ofSteps d.lineCount ((c.started deadline clock reading).map (Rule.step d) ++
        skippedStep (c.unstarted deadline clock reading)) := by
  rw [run, runRules, stepsFrom_eq]
  rfl

/-- The findings of a run are those of its started rules. -/
theorem run_findings :
    (c.run d deadline clock reading).findings =
      (c.started deadline clock reading).flatMap fun r => (r.step d).findings d.lineCount := by
  rw [run_eq]
  dsimp only [Match.ofSteps]
  rw [List.flatMap_append, findings_skippedStep, List.append_nil, List.flatMap_map]

/-- The diagnostics of a run are those of its started rules, and one for the others. -/
theorem run_diagnostics :
    (c.run d deadline clock reading).diagnostics =
      ((c.started deadline clock reading).flatMap fun r => (r.step d).diagnostics d.lineCount) ++
        if cutoff deadline clock reading c.size < c.size then
          [.skipped ((c.unstarted deadline clock reading).map Rule.id)]
        else [] := by
  rw [run_eq]
  dsimp only [Match.ofSteps]
  rw [List.flatMap_append, diagnostics_skippedStep, List.flatMap_map, unstarted, List.length_drop]
  exact congrArg (_ ++ ·) (ite_congr (propext Nat.sub_pos_iff_lt) (fun _ => rfl) (fun _ => rfl))

/-- The rules that are evaluated are those that are started. -/
theorem run_evaluated :
    (c.run d deadline clock reading).evaluated =
      (c.started deadline clock reading).map Rule.id := by
  have hstep : ∀ r : Rule, (r.step d).evaluated = [r.id] := fun r => by
    unfold Rule.step
    split <;> rfl
  rw [run_eq]
  dsimp only [Match.ofSteps]
  rw [List.flatMap_append, evaluated_skippedStep, List.append_nil, List.flatMap_map, funext hstep]
  exact List.map_eq_flatMap.symm

/-- Rules that are not started can be anything, as long as they are called the same. -/
theorem run_congr_unstarted {others : List Rule}
    (h : others.map Rule.id = (c.unstarted deadline clock reading).map Rule.id) :
    runRules (c.started deadline clock reading ++ others) d deadline clock reading =
      c.run d deadline clock reading := by
  have hlen : others.length = (c.unstarted deadline clock reading).length := by
    simpa using congrArg List.length h
  have hk : cutoff deadline clock reading c.size ≤ c.size :=
    (isCutoff_cutoff deadline clock reading c.size).le
  have hstarted : (c.started deadline clock reading).length =
      cutoff deadline clock reading c.size := by
    rw [started, List.length_take]
    exact Nat.min_eq_left hk
  -- as many rules are due, so the cutoff is at the same place
  have hsize : (c.started deadline clock reading ++ others).length = c.size := by
    rw [List.length_append, hlen, ← List.length_append, started_append_unstarted, size]
  rw [run_eq, runRules, stepsFrom_eq, hsize, List.take_left' hstarted, List.drop_left' hstarted,
    skippedStep_congr h]

end Catalog

/-! ### One rule alone -/

/-- Alone, a rule makes its own step. -/
theorem stepsFrom_singleton (r : Rule) (reading : Nat) :
    stepsFrom none clock d reading [r] = [r.step d] := by
  simp [stepsFrom, hasPassed]

theorem findings_runRules_singleton (r : Rule) (reading : Nat) :
    (runRules [r] d none clock reading).findings = (r.step d).findings d.lineCount := by
  rw [runRules, stepsFrom_singleton]
  exact List.flatMap_singleton ..

theorem diagnostics_runRules_singleton (r : Rule) (reading : Nat) :
    (runRules [r] d none clock reading).diagnostics = (r.step d).diagnostics d.lineCount := by
  rw [runRules, stepsFrom_singleton]
  exact List.flatMap_singleton ..

/-! ### Line ranges -/

namespace FindingOn

/-- A finding starts within a document of `n` lines and does not end before it starts. -/
def InRange (n : Nat) (f : Finding) : Prop :=
  1 ≤ f.first.toInt ∧ f.first.toInt ≤ n ∧ f.first.toInt ≤ f.last.toInt

instance (n : Nat) (f : Finding) : Decidable (f.InRange n) :=
  inferInstanceAs (Decidable (_ ∧ _ ∧ _))

/-- A finding that ends with the document at the latest. -/
def cut (n : Nat) (f : Finding) : Finding :=
  if n < f.last.toInt then { f with last := .number n } else f

@[simp] theorem cut_ruleId (n : Nat) (f : Finding) : (f.cut n).ruleId = f.ruleId := by
  unfold cut
  split <;> rfl

@[simp] theorem cut_first (n : Nat) (f : Finding) : (f.cut n).first = f.first := by
  unfold cut
  split <;> rfl

@[simp] theorem cut_message (n : Nat) (f : Finding) : (f.cut n).message = f.message := by
  unfold cut
  split <;> rfl

/-- The findings that are kept are those in range, cut at the end of the document. -/
theorem within?_eq (n : Nat) (f : Finding) :
    f.within? n = if f.InRange n then some (f.cut n) else none := by
  unfold within? cut
  by_cases h : f.InRange n
  · rw [if_pos h]
    unfold InRange at h
    rw [if_neg (by simp only [Bool.or_eq_true, decide_eq_true_eq]; omega)]
    split <;> rfl
  · rw [if_neg h]
    unfold InRange at h
    rw [if_pos (by simp only [Bool.or_eq_true, decide_eq_true_eq]; omega)]

end FindingOn

/-- What a rule produces, which is nothing if it fails. -/
def Rule.output (d : Document) (r : Rule) : List Finding := (r.evaluate d).produced.toOption.getD []

/-- The findings of a step are those that the rule produced and that are in range. -/
theorem Rule.findings_step (n : Nat) (r : Rule) :
    (r.step d).findings n = (r.output d).filterMap (FindingOn.within? n) := by
  unfold Rule.step Rule.output
  cases (r.evaluate d).produced <;> rfl

/-- A finding that is not in range is told about. -/
theorem Rule.outOfRange_mem_step {n : Nat} {r : Rule} {f : Finding} (hf : f ∈ r.output d)
    (hrange : ¬ f.InRange n) : .outOfRange r.id n f ∈ (r.step d).diagnostics n := by
  unfold Rule.output at hf
  unfold Rule.step
  cases h : (r.evaluate d).produced with
  | error message => rw [h] at hf; cases hf
  | ok fs =>
      rw [h] at hf
      refine List.mem_map.mpr ⟨f, List.mem_filter.mpr ⟨hf, ?_⟩, rfl⟩
      rw [FindingOn.within?_eq, if_neg hrange]
      rfl

/-! ### Failing rules -/

/-- A rule that fails makes a step that says so. -/
theorem Rule.step_of_fails {r : Rule} (h : (r.evaluate d).Fails) :
    ∃ message, r.step d = .failed r.id message := by
  obtain ⟨message, hm⟩ := h.produced
  exact ⟨message, by rw [Rule.step, hm]⟩

/-- Alone, a rule that fails has no findings, and one diagnostic that names it. -/
theorem Rule.alone_of_fails {r : Rule} (hfails : (r.evaluate d).Fails) (reading : Nat) :
    (runRules [r] d none clock reading).findings = [] ∧
      ∃ message, (runRules [r] d none clock reading).diagnostics = [.ruleError r.id message] := by
  obtain ⟨message, hstep⟩ := Rule.step_of_fails hfails
  rw [findings_runRules_singleton, diagnostics_runRules_singleton, hstep]
  exact ⟨rfl, message, rfl⟩

namespace Catalog

variable {c : Catalog} {reading : Nat}

/-- What goes wrong in a step goes wrong in the run. -/
theorem mem_run_of_mem_step {r : Rule} (hr : r ∈ c.started deadline clock reading)
    {diagnostic : Diagnostic} (h : diagnostic ∈ (r.step d).diagnostics d.lineCount) :
    diagnostic ∈ (c.run d deadline clock reading).diagnostics := by
  rw [run_diagnostics]
  exact List.mem_append_left _ (List.mem_flatMap.mpr ⟨r, hr, h⟩)

/-- A rule that is started and fails is on record. -/
theorem ruleError_mem_run {r : Rule} (hr : r ∈ c.started deadline clock reading)
    (hfails : (r.evaluate d).Fails) :
    ∃ message, .ruleError r.id message ∈ (c.run d deadline clock reading).diagnostics := by
  obtain ⟨message, hstep⟩ := Rule.step_of_fails hfails
  refine ⟨message, mem_run_of_mem_step hr ?_⟩
  rw [hstep]
  exact List.mem_singleton.mpr rfl

/-- The rules that are not started are on record. -/
theorem skipped_mem_run (h : c.unstarted deadline clock reading ≠ []) :
    .skipped ((c.unstarted deadline clock reading).map Rule.id) ∈
      (c.run d deadline clock reading).diagnostics := by
  have hlt : cutoff deadline clock reading c.size < c.size := by
    rw [unstarted, ne_eq, List.drop_eq_nil_iff] at h
    exact Nat.lt_of_not_le h
  rw [run_diagnostics, if_pos hlt]
  exact List.mem_append_right _ (List.mem_singleton.mpr rfl)

end Catalog

/-- The course of a run, whatever the rules, the clock and the deadline are. With `k` the first
place at which the deadline has passed:

* the rules from there on are not evaluated, and what they would have come to does not matter;
* the findings are those that the rules before would have had alone, in order;
* so are the diagnostics, and one more names the rules that were left out, if there are any;
* a rule that fails has no findings and one diagnostic, and the others keep theirs. -/
theorem run_eq_runs_alone (c : Catalog) (d : Document) (deadline : Option Quantity) (clock : Clock)
    (reading : Nat) :
    let m := c.run d deadline clock reading
    let alone (r : Rule) : Match := runRules [r] d none clock reading
    ∃ k, (∀ l, IsCutoff deadline clock reading c.size l ↔ l = k) ∧
      m.evaluated = (c.rules.take k).map Rule.id ∧
      (∀ others : List Rule, others.map Rule.id = (c.rules.drop k).map Rule.id →
        runRules (c.rules.take k ++ others) d deadline clock reading = m) ∧
      m.findings = (c.rules.take k).flatMap (fun r => (alone r).findings) ∧
      m.diagnostics = (c.rules.take k).flatMap (fun r => (alone r).diagnostics) ++
        (if k < c.size then [.skipped ((c.rules.drop k).map Rule.id)] else []) ∧
      (∀ r ∈ c.rules, (r.evaluate d).Fails →
        (alone r).findings = [] ∧ ∃ message, (alone r).diagnostics = [.ruleError r.id message]) ∧
      ∀ earlier r later, c.rules.take k = earlier ++ r :: later → (r.evaluate d).Fails →
        m.findings = (earlier ++ later).flatMap (fun r => (alone r).findings) ∧
        ∃ message, m.diagnostics =
          earlier.flatMap (fun r => (alone r).diagnostics) ++ .ruleError r.id message ::
            later.flatMap (fun r => (alone r).diagnostics) ++
            (if k < c.size then [.skipped ((c.rules.drop k).map Rule.id)] else []) := by
  intro m alone
  have hcutoff := isCutoff_cutoff deadline clock reading c.size
  have hfindings : m.findings = (c.started deadline clock reading).flatMap
      (fun r => (alone r).findings) := by
    simp only [m, alone, Catalog.run_findings (c := c), findings_runRules_singleton]
  have hdiagnostics : m.diagnostics = (c.started deadline clock reading).flatMap
      (fun r => (alone r).diagnostics) ++
        (if cutoff deadline clock reading c.size < c.size then
          [.skipped ((c.unstarted deadline clock reading).map Rule.id)] else []) := by
    simp only [m, alone, Catalog.run_diagnostics (c := c), diagnostics_runRules_singleton]
  refine ⟨cutoff deadline clock reading c.size, ?_, Catalog.run_evaluated,
    fun others h => Catalog.run_congr_unstarted h, hfindings, hdiagnostics,
    fun r _ hr => Rule.alone_of_fails hr reading, ?_⟩
  · exact fun l => ⟨fun hl => hl.unique hcutoff, fun hl => hl ▸ hcutoff⟩
  · intro earlier r later hsplit hr
    obtain ⟨hnone, message, hone⟩ : (alone r).findings = [] ∧
        ∃ message, (alone r).diagnostics = [.ruleError r.id message] :=
      Rule.alone_of_fails hr reading
    -- the failing rule stands between two parts of the same concatenation
    refine ⟨?_, message, ?_⟩
    · rw [hfindings, Catalog.started, hsplit, List.flatMap_append, List.flatMap_cons, hnone,
        List.nil_append, List.flatMap_append]
    · rw [hdiagnostics, Catalog.started, hsplit, List.flatMap_append, List.flatMap_cons, hone]
      rfl

end TemplateAudit
