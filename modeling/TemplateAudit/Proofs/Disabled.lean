import TemplateAudit.Proofs.Annotate

/-!
# TemplateAudit.Proofs.Disabled

Switching rules **off** is the same as leaving out what they say.

Rules that are off are taken out of the catalog before a run, so they shift the places of all the
others. What ties the two runs together is that every diagnostic of a rule names that rule, and
that a rule which speaks for itself attributes its findings to itself: then each stage of a run
commutes with leaving out what belongs to some identifiers.

* `flatMap_filter` carries the course of a run: a rule is left out with all it says.
* `filter_firsts` and `filter_byRank_comm` carry collapsing and ordering.
* `Catalog.ruleFor?_dropping` says that the rules that are left give the same annotations.
-/

namespace TemplateAudit

open TemplateAudit.Data (Value)

/-- Whether an identifier is among those that are off. -/
def isOff (ids : List Text) (id : Value) : Bool := ids.any fun off => id.same (.text off)

theorem isOff_ofString (ids : List Text) (id : String) :
    isOff ids (.ofString id) = ids.contains (.ofString id) := by
  rw [Bool.eq_iff_iff, isOff, List.any_eq_true, List.contains_iff_mem]
  simp only [Value.ofString, same_text_iff, Value.text.injEq, exists_eq_right']

/-- Whatever a rule of the catalog produces for a document is attributed to that rule. -/
def Catalog.SpeaksForItself (c : Catalog) (d : Document) : Prop :=
  ∀ r ∈ c.rules, ∀ f ∈ r.output d, f.ruleId = .ofString r.id

variable {c : Catalog} {s : Settings} {d : Document} {ids : List Text} {clock clock' : Clock}

/-! ### What a rule says is its own -/

/-- Every diagnostic of a rule names that rule. -/
theorem Rule.ruleId_of_mem_diagnostics {n : Nat} {r : Rule} {diagnostic : Diagnostic}
    (h : diagnostic ∈ (r.step d).diagnostics n) : diagnostic.ruleId = some r.id := by
  unfold Rule.step at h
  split at h
  case h_1 =>
      obtain ⟨f, -, rfl⟩ := List.mem_map.mp h
      rfl
  case h_2 =>
      obtain rfl := List.mem_singleton.mp h
      rfl

namespace Catalog.SpeaksForItself

theorem ruleId_of_mem_step (h : c.SpeaksForItself d) {n : Nat} {r : Rule} (hr : r ∈ c.rules)
    {f : Finding} (hf : f ∈ (r.step d).findings n) : f.ruleId = .ofString r.id := by
  rw [Rule.findings_step, List.mem_filterMap] at hf
  obtain ⟨g, hg, hwithin⟩ := hf
  rw [FindingOn.within?_eq] at hwithin
  split at hwithin
  case isTrue =>
      obtain rfl := Option.some.inj hwithin
      rw [FindingOn.cut_ruleId]
      exact h r hr g hg
  case isFalse => cases hwithin

theorem hasTextId (h : c.SpeaksForItself d) {f : Finding}
    (hf : f ∈ openFindings d (c.run d none clock 1)) : f.HasTextId := by
  have hmem := List.mem_of_mem_filter hf
  rw [Catalog.run_findings, Catalog.started_none, List.mem_flatMap] at hmem
  obtain ⟨r, hr, hmem⟩ := hmem
  exact ⟨_, h.ruleId_of_mem_step hr hmem⟩

theorem dropping (h : c.SpeaksForItself d) (ids : List Text) :
    (c.dropping ids).SpeaksForItself d :=
  fun r hr => h r (List.mem_of_mem_filter hr)

end Catalog.SpeaksForItself

/-! ### Runs -/

/-- If all or nothing of what comes from an element belongs to a part, the part comes from the
elements of which all does. -/
theorem flatMap_filter {α β : Type} {f : α → List β} {p : β → Bool} {q : α → Bool} {as : List α}
    (h : ∀ a ∈ as, ∀ b ∈ f a, p b = q a) : (as.filter q).flatMap f = (as.flatMap f).filter p := by
  induction as with
  | nil => rfl
  | cons a as ih =>
      have ih := ih fun a' ha' => h a' (List.mem_cons_of_mem _ ha')
      have hhead := h a List.mem_cons_self
      rw [List.flatMap_cons, List.filter_append, ← ih]
      cases hq : q a with
      | true =>
          rw [List.filter_cons_of_pos hq, List.flatMap_cons,
            List.filter_eq_self.mpr fun b hb => (hhead b hb).trans hq]
      | false =>
          have hnone : (f a).filter p = [] :=
            List.filter_eq_nil_iff.mpr fun b hb => by simp [hhead b hb, hq]
          rw [List.filter_cons_of_neg (by simp [hq]), hnone, List.nil_append]

namespace Catalog

theorem rules_dropping (c : Catalog) (ids : List Text) :
    (c.dropping ids).rules = c.rules.filter fun r => !isOff ids (.ofString r.id) := by
  simp only [isOff_ofString]
  rfl

theorem dropping_nil (c : Catalog) : c.dropping [] = c := by
  apply eq_of_rules_eq
  rw [rules_dropping]
  exact List.filter_eq_self.mpr fun r _ => rfl

/-- A rule that is not off is still found under its identifier. -/
theorem ruleFor?_dropping {id : Value} (h : isOff ids id = false) :
    (c.dropping ids).ruleFor? id = c.ruleFor? id := by
  ext r
  rw [ruleFor?_eq_some_iff, ruleFor?_eq_some_iff, rules_dropping, List.mem_filter, and_assoc]
  refine and_congr_right fun _ => and_iff_right_of_imp fun hid => ?_
  rw [← hid, h, Bool.not_false]

/-- Without a deadline, the diagnostics that are left are those that name no rule that is off. -/
theorem run_diagnostics_dropping (clock clock' : Clock) (reading : Nat) :
    ((c.dropping ids).run d none clock reading).diagnostics =
      (c.run d none clock' reading).diagnostics.filter fun diagnostic =>
        !diagnostic.ruleId.any fun id => isOff ids (.ofString id) := by
  rw [run_diagnostics, run_diagnostics, started_none, started_none, cutoff_none, cutoff_none,
    if_neg (Nat.lt_irrefl _), if_neg (Nat.lt_irrefl _), List.append_nil, List.append_nil,
    rules_dropping]
  refine flatMap_filter fun r hr diagnostic hd => ?_
  rw [Rule.ruleId_of_mem_diagnostics hd, Option.any_some]

/-- So are the findings, if all rules speak for themselves. -/
theorem SpeaksForItself.openFindings_dropping (h : c.SpeaksForItself d) (clock clock' : Clock) :
    openFindings d ((c.dropping ids).run d none clock 1) =
      (openFindings d (c.run d none clock' 1)).filter fun f => !isOff ids f.ruleId := by
  have hfindings : ((c.dropping ids).run d none clock 1).findings =
      (c.run d none clock' 1).findings.filter fun f => !isOff ids f.ruleId := by
    rw [run_findings, run_findings, started_none, started_none, rules_dropping]
    refine flatMap_filter fun r hr f hf => ?_
    rw [h.ruleId_of_mem_step hr hf]
  rw [openFindings, hfindings]
  exact List.filter_comm ..

/-! ### Annotations -/

theorem severityOf_dropping {f : Finding} (hf : isOff ids f.ruleId = false) :
    (c.dropping ids).severityOf f = c.severityOf f := by
  rw [severityOf, ruleFor?_dropping hf]
  rfl

theorem annotationOf_dropping {rank : Severity → Nat} {f : Finding}
    (hf : isOff ids f.ruleId = false) :
    annotationOf (c.dropping ids) rank f = annotationOf c rank f := by
  simp only [annotationOf, ruleFor?_dropping hf, severityOf_dropping hf]

/-- Choosing among the findings that are left is choosing first, as long as nothing is cut. -/
theorem SpeaksForItself.select_dropping (h : c.SpeaksForItself d)
    (hlimit : (openFindings d (c.run d none clock 1)).length ≤ s.maxAnnotations) :
    select s.maxAnnotations (fun f => s.rank ((c.dropping ids).severityOf f))
        ((openFindings d (c.run d none clock 1)).filter fun f => !isOff ids f.ruleId) =
      (select s.maxAnnotations (fun f => s.rank (c.severityOf f))
        (openFindings d (c.run d none clock 1))).filter fun f => !isOff ids f.ruleId := by
  have hsame : ∀ f ∈ openFindings d (c.run d none clock 1),
      ∀ g ∈ openFindings d (c.run d none clock 1), f.sameKey g = true →
        (!isOff ids f.ruleId) = !isOff ids g.ruleId := by
    intro f hf g hg hfg
    rw [FindingOn.ruleId_eq_of_sameKey (h.hasTextId hf) (h.hasTextId hg) hfg]
  have hrank : ∀ f ∈ firsts FindingOn.sameKey
      ((openFindings d (c.run d none clock 1)).filter fun f => !isOff ids f.ruleId),
        (s.rank ((c.dropping ids).severityOf f) : Int) = s.rank (c.severityOf f) := by
    intro f hf
    have hon := (List.mem_filter.mp ((firsts_sublist _ _).mem hf)).2
    rw [severityOf_dropping (by simpa using hon)]
  rw [select_of_length_le _ (Nat.le_trans (List.length_filter_le _ _) hlimit),
    select_of_length_le _ hlimit, byRank_congr hrank, filter_byRank_comm, filter_firsts hsame]

/-- The annotations that are left are those of the rules that are not off. -/
theorem SpeaksForItself.annotations_dropping (h : c.SpeaksForItself d)
    (hlimit : (openFindings d (c.run d none clock' 1)).length ≤ s.maxAnnotations) :
    (outcomeOf (c.dropping ids) s d ((c.dropping ids).run d none clock 1)).annotations =
      (outcomeOf c s d (c.run d none clock' 1)).annotations.filter fun a =>
        !isOff ids a.ruleId := by
  simp only [outcomeOf, h.openFindings_dropping clock clock']
  rw [h.select_dropping hlimit, List.filter_map]
  refine List.map_congr_left fun f hf => ?_
  have hon := (List.mem_filter.mp hf).2
  exact annotationOf_dropping (by simpa using hon)

/-- A run of rules that speak for themselves has an outcome. -/
theorem SpeaksForItself.annotateWith_eq {input : Input}
    (h : c.SpeaksForItself (input.document s.token)) (htimeout : s.timeout = none)
    (clock : Clock) :
    ∃ log, annotateWith c s input clock =
      .ok { outcome := outcomeOf c s (input.document s.token)
              (c.run (input.document s.token) none clock 1), log } := by
  have hnames : c.NamesByText (input.document s.token) := fun r hr f hf => ⟨_, h r hr f hf⟩
  have hkeys : ∀ a ∈ c.found s input clock, a.finding.ruleId.isKey = true :=
    fun a ha => (hasTextId_of_mem_found hnames ha).isKey
  have hdeadline : s.deadline clock = none := by rw [Settings.deadline, htimeout, Option.map_none]
  obtain ⟨log, hrun⟩ := annotateWith_eq_ok hkeys
  rw [← outcomeOf_eq, hdeadline] at hrun
  exact ⟨log, hrun⟩

end Catalog

/-- With some rules off, a run says what it says with none off, less the diagnostics that name a
rule that is off; and, if there is room for all findings, less the annotations of such rules. So
identifiers that no rule has make no difference. -/
theorem annotate_disabled (source : CatalogSource) (s : Settings) (input : Input)
    (ids : List Text) (clock clock' : Clock) (htimeout : s.timeout = none)
    (hself : ∀ c, source.catalog = .ok c → c.SpeaksForItself (input.document s.token)) :
    ∃ full part,
      annotate source { s with disabled := [] } input clock = .ok full ∧
      annotate source { s with disabled := ids } input clock' = .ok part ∧
      part.outcome.diagnostics = full.outcome.diagnostics.filter (fun diagnostic =>
        !diagnostic.ruleId.any fun id => isOff ids (.ofString id)) ∧
      (full.outcome.totalFindings ≤ s.maxAnnotations →
        part.outcome.annotations = full.outcome.annotations.filter fun a =>
          !isOff ids a.ruleId) := by
  cases hsource : source.catalog with
  | error e =>
      have hrun : ∀ s clock, annotate source s input clock = .ok (.ofCatalogError e) :=
        fun s clock => by rw [annotate, hsource]
      exact ⟨_, _, hrun _ _, hrun _ _, rfl, fun _ => rfl⟩
  | ok c =>
      have hc := hself c hsource
      have hrun : ∀ s clock,
          annotate source s input clock = annotateWith (c.dropping s.disabled) s input clock :=
        fun s clock => by rw [annotate, hsource]
      obtain ⟨log, hfull⟩ := hc.annotateWith_eq (s := { s with disabled := [] }) htimeout clock
      obtain ⟨log', hpart⟩ :=
        (hc.dropping ids).annotateWith_eq (s := { s with disabled := ids }) htimeout clock'
      rw [hrun, hrun, c.dropping_nil]
      refine ⟨_, _, hfull, hpart, Catalog.run_diagnostics_dropping clock' clock 1, fun hlimit => ?_⟩
      exact hc.annotations_dropping (Int.ofNat_le.mp hlimit)

/-- A rule that fails, and two that name lines that are there and lines that are not. -/
def candid : Catalog :=
  .ofRules [
    { id := "broken", title := none, importance := .critical, recommendation := none,
      evaluate := fun _ => .items [] (some .endless) },
    { id := "mild", title := none, importance := .low, recommendation := none,
      evaluate := fun _ => .items [
        .finding (.ofString "mild") (.int 2) (.int 2) (.ofString "below"),
        .finding (.ofString "mild") (.int 1) (.int 9) (.ofString "above"),
        .finding (.ofString "mild") (.int 5) (.int 5) (.ofString "nowhere")] none },
    { id := "grave", title := none, importance := .high, recommendation := none,
      evaluate := fun _ => .items [
        .finding (.ofString "grave") (.int 2) (.int 2) (.ofString "here"),
        .finding (.ofString "grave") (.int 0) (.int 0) (.ofString "before all")] none }]

theorem speaksForItself_candid (d : Document) : candid.SpeaksForItself d := by
  intro r hr f hf
  simp only [candid, Catalog.rules_ofRules, List.mem_cons, List.not_mem_nil, or_false] at hr
  rcases hr with rfl | rfl | rfl
  · cases hf
  · rcases hf with _ | ⟨_, _ | ⟨_, _ | ⟨_, ⟨⟩⟩⟩⟩ <;> rfl
  · rcases hf with _ | ⟨_, _ | ⟨_, ⟨⟩⟩⟩ <;> rfl

/-- There is room for the three findings, so one rule can be left out of both runs. -/
theorem annotate_disabled_candid :
    Settings.default.timeout = none ∧
    candid.SpeaksForItself ((Input.text "a\nb").document defaultToken) ∧
    ∃ full part,
      annotate (.ready candid) .default (.text "a\nb") (fun _ => .whole 0) = .ok full ∧
      annotate (.ready candid)
        { Settings.default with disabled := [.ofString "grave", .ofString "nobody"] }
        (.text "a\nb") (fun _ => .whole 7) = .ok part ∧
      part.outcome.diagnostics = full.outcome.diagnostics.filter (fun diagnostic =>
        !diagnostic.ruleId.any fun id =>
          isOff [.ofString "grave", .ofString "nobody"] (.ofString id)) ∧
      full.outcome.totalFindings = 3 ∧
      part.outcome.annotations = full.outcome.annotations.filter fun a =>
        !isOff [.ofString "grave", .ofString "nobody"] a.ruleId := by
  refine ⟨rfl, speaksForItself_candid _, ?_⟩
  obtain ⟨full, part, hfull, hpart, hdiagnostics, hannotations⟩ :=
    annotate_disabled (.ready candid) .default (.text "a\nb")
      [.ofString "grave", .ofString "nobody"] (fun _ => .whole 0) (fun _ => .whole 7) rfl
      fun c hc => Except.ok.inj hc ▸ speaksForItself_candid _
  have htotal : (annotate (.ready candid) { Settings.default with disabled := [] } (.text "a\nb")
      (fun _ => .whole 0)).toOption.map (·.outcome.totalFindings) = some 3 := by decide +kernel
  rw [hfull] at htotal
  have htotal : full.outcome.totalFindings = 3 := Option.some.inj htotal
  exact ⟨full, part, hfull, hpart, hdiagnostics, htotal, hannotations (by rw [htotal]; decide)⟩

end TemplateAudit
