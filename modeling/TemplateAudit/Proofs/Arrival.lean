import TemplateAudit.Proofs.Document
import TemplateAudit.Proofs.Matching
import TemplateAudit.Proofs.Selection

/-!
# TemplateAudit.Proofs.Arrival

The findings of a run together with **where they came from**.

An `Arrival` is a finding that is in the document and not silenced, with the place of its rule in
the catalog and its own place in what that rule produced. `arrivals` collects them from the rules
directly, with no run in between, and three facts tie it to the run:

* `map_finding_arrivals` — without their places, they are the findings that a run is left with;
* `pairwise_arrivals` — they stand in the order of their places;
* `mem_arrivals_iff` — an arrival is one exactly if its rule produced it, in range and open.

The places are what the order of annotations is stated by. A finding alone does not have them: two
rules may produce the very same one.
-/

namespace TemplateAudit

open TemplateAudit.Data (Value)
open TemplateAudit.Number (Quantity)

/-- A finding and where it came from. -/
structure Arrival where
  /-- The place of the rule in the catalog. -/
  rule : Nat
  /-- The place of the finding in what the rule produced. -/
  item : Nat
  finding : Finding

namespace Arrival

/-- An arrival is earlier than another one: its rule comes first, or it is of the same rule and was
produced first. -/
def Before (a b : Arrival) : Prop := a.rule < b.rule ∨ a.rule = b.rule ∧ a.item < b.item

theorem Before.asymm {a b : Arrival} (h : a.Before b) : ¬ b.Before a := by
  unfold Before at *
  omega

end Arrival

/-- Whether a finding is in the document and not silenced. -/
def IsOpen (input : Input) (token : Text) (f : Finding) : Bool :=
  decide (f.InRange input.lines.length) && !followsDirective token input.lines f.first.toInt

/-- The arrival of what a rule produced at some place, if it is open. -/
def arrival? (input : Input) (token : Text) (place : Nat) (produced : Finding × Nat) :
    Option Arrival :=
  if IsOpen input token produced.1 then
    some { rule := place, item := produced.2, finding := produced.1.cut input.lines.length }
  else none

/-- The arrivals from one rule. -/
def arrivalsOf (input : Input) (token : Text) (place : Nat) (r : Rule) : List Arrival :=
  (r.output (input.document token)).zipIdx.filterMap (arrival? input token place)

/-- The arrivals from all rules. -/
def arrivals (input : Input) (token : Text) (rules : List Rule) : List Arrival :=
  rules.zipIdx.flatMap fun x => arrivalsOf input token x.2 x.1

variable {input : Input} {token : Text} {rules : List Rule}

theorem arrival?_eq_some_iff {place : Nat} {x : Finding × Nat} {a : Arrival} :
    arrival? input token place x = some a ↔
      IsOpen input token x.1 = true ∧ a.rule = place ∧ a.item = x.2 ∧
        a.finding = x.1.cut input.lines.length := by
  unfold arrival?
  split
  case isTrue hopen =>
      constructor
      · rintro h
        obtain rfl := Option.some.inj h
        exact ⟨hopen, rfl, rfl, rfl⟩
      · rintro ⟨-, hrule, hitem, hfinding⟩
        rw [← hrule, ← hitem, ← hfinding]
  case isFalse hclosed => simp [hclosed]

theorem mem_arrivalsOf_iff {place : Nat} {r : Rule} {a : Arrival} :
    a ∈ arrivalsOf input token place r ↔
      a.rule = place ∧ ∃ f, (r.output (input.document token))[a.item]? = some f ∧
        IsOpen input token f = true ∧ a.finding = f.cut input.lines.length := by
  rw [arrivalsOf, List.mem_filterMap]
  constructor
  · rintro ⟨⟨f, i⟩, hmem, h⟩
    obtain ⟨hopen, hrule, hitem, hfinding⟩ := arrival?_eq_some_iff.mp h
    rw [List.mem_zipIdx_iff_getElem?, ← hitem] at hmem
    exact ⟨hrule, f, hmem, hopen, hfinding⟩
  · rintro ⟨hrule, f, hget, hopen, hfinding⟩
    exact ⟨(f, a.item), List.mem_zipIdx_iff_getElem?.mpr hget,
      arrival?_eq_some_iff.mpr ⟨hopen, hrule, rfl, hfinding⟩⟩

/-- An arrival is a finding that some rule produced, in range and not silenced, with its end cut
off where the document ends. -/
theorem mem_arrivals_iff {a : Arrival} :
    a ∈ arrivals input token rules ↔
      ∃ r f, rules[a.rule]? = some r ∧ (r.output (input.document token))[a.item]? = some f ∧
        IsOpen input token f = true ∧ a.finding = f.cut input.lines.length := by
  rw [arrivals, List.mem_flatMap]
  constructor
  · rintro ⟨⟨r, place⟩, hmem, ha⟩
    obtain ⟨rfl, f, hf⟩ := mem_arrivalsOf_iff.mp ha
    exact ⟨r, f, List.mem_zipIdx_iff_getElem?.mp hmem, hf⟩
  · rintro ⟨r, f, hr, hf⟩
    exact ⟨(r, a.rule), List.mem_zipIdx_iff_getElem?.mpr hr, mem_arrivalsOf_iff.mpr ⟨rfl, f, hf⟩⟩

theorem pairwise_zipIdx {α : Type} (as : List α) : as.zipIdx.Pairwise fun x y => x.2 < y.2 := by
  apply List.pairwise_map.mp
  rw [List.zipIdx_map_snd]
  exact List.pairwise_lt_range'

/-- The arrivals stand in the order in which they arrive. -/
theorem pairwise_arrivals (input : Input) (token : Text) (rules : List Rule) :
    (arrivals input token rules).Pairwise Arrival.Before := by
  rw [arrivals, List.pairwise_flatMap]
  constructor
  · rintro ⟨r, place⟩ -
    refine List.pairwise_filterMap.mpr ((pairwise_zipIdx _).imp fun {x y} hxy a ha b hb => ?_)
    obtain ⟨-, hax, hai, -⟩ := arrival?_eq_some_iff.mp ha
    obtain ⟨-, hbx, hbi, -⟩ := arrival?_eq_some_iff.mp hb
    exact Or.inr ⟨hax.trans hbx.symm, by rw [hai, hbi]; exact hxy⟩
  · refine (pairwise_zipIdx rules).imp fun {x y} hxy a ha b hb => ?_
    obtain ⟨hx, -⟩ := mem_arrivalsOf_iff.mp ha
    obtain ⟨hy, -⟩ := mem_arrivalsOf_iff.mp hb
    exact Or.inl (by rw [hx, hy]; exact hxy)

/-! ### Arrivals and runs -/

/-- Whether a finding starts on a silenced line is decided by the line before. -/
theorem startsOn_suppressed {f : Finding} (h : f.InRange input.lines.length) :
    f.startsOn (input.document token).suppressed =
      followsDirective token input.lines f.first.toInt := by
  rw [Bool.eq_iff_iff, FindingOn.startsOn, List.any_eq_true]
  constructor
  · rintro ⟨n, hn, hsame⟩
    obtain rfl : f.first.toInt = n :=
      eq_of_beq ((LineRef.same_toValue f.first (.number n)).symm.trans hsame)
    exact (mem_suppressed_iff.mp hn).1
  · intro hfollows
    refine ⟨f.first.toInt, mem_suppressed_iff.mpr ⟨hfollows, h.2.1⟩, ?_⟩
    exact (LineRef.same_toValue f.first (.number f.first.toInt)).trans (beq_self_eq_true _)

/-- What the range check and the directives leave of a finding is what arrives. -/
theorem map_finding_arrival? (place : Nat) (x : Finding × Nat) :
    (arrival? input token place x).map Arrival.finding =
      (x.1.within? input.lines.length).filter
        fun f => !f.startsOn (input.document token).suppressed := by
  rw [FindingOn.within?_eq, arrival?, IsOpen]
  by_cases h : x.1.InRange input.lines.length
  · -- cutting a finding does not move its start
    have hcut : (x.1.cut input.lines.length).startsOn (input.document token).suppressed =
        followsDirective token input.lines x.1.first.toInt := by
      rw [← startsOn_suppressed h, FindingOn.startsOn, FindingOn.startsOn, FindingOn.cut_first]
    simp only [h, decide_true, Bool.true_and, if_true, Option.filter_some, hcut]
    split <;> rfl
  · simp [h]

theorem map_finding_arrivalsOf (place : Nat) (r : Rule) :
    (arrivalsOf input token place r).map Arrival.finding =
      unsuppressed (input.document token).suppressed
        ((r.step (input.document token)).findings input.lines.length) := by
  rw [arrivalsOf, unsuppressed, Rule.findings_step, List.map_filterMap, List.filter_filterMap]
  simp only [map_finding_arrival?]
  conv_rhs => rw [← List.zipIdx_map_fst 0 (r.output (input.document token)), List.filterMap_map]
  rfl

/-- Without their places, the arrivals are the findings that a run is left with. -/
theorem map_finding_arrivals (c : Catalog) (deadline : Option Quantity) (clock : Clock)
    (reading : Nat) :
    (arrivals input token (c.started deadline clock reading)).map Arrival.finding =
      openFindings (input.document token)
        (c.run (input.document token) deadline clock reading) := by
  rw [arrivals, openFindings, Catalog.run_findings, Input.lineCount_document, List.map_flatMap]
  simp only [map_finding_arrivalsOf]
  conv_rhs => rw [← List.zipIdx_map_fst 0 (c.started deadline clock reading), List.flatMap_map]
  rw [unsuppressed, List.filter_flatMap]
  rfl

end TemplateAudit
