import TemplateAudit.Proofs.Arrival
import TemplateAudit.Proofs.Lookup

/-!
# TemplateAudit.Proofs.Annotate

What comes out of a run, whatever the rules do.

`annotateWith` is taken apart once, in `annotateWith_eq_ok` and `annotateWith_eq_error`: a run ends
early exactly if an arrival is attributed to something that can be no identifier, and otherwise its
annotations are the first of `ranked`, a list of arrivals that does not depend on how many
annotations are asked for. The rest is about that list:

* `Outcome.Sound` — every annotation is on a line of the document that is not silenced, with the
  severity of its rule; and how many there are;
* `IsRanking` — which findings are told, in which order, and which are left out;
* `OnRecord` — what an outcome says about failures. That there is one is a matter of its own.
-/

namespace TemplateAudit

open TemplateAudit.Data (Value)
open TemplateAudit.Number (Quantity)

/-! ### The severity of a finding -/

/-- The severity of a finding is that of the rule that it is attributed to, and the least of all
if there is no such rule. -/
theorem Catalog.severityOf_cases (c : Catalog) (f : Finding) :
    (∃ r ∈ c.rules, f.ruleId = .ofString r.id ∧ c.severityOf f = r.importance) ∨
      (∀ r ∈ c.rules, f.ruleId ≠ .ofString r.id) ∧ c.severityOf f = .info := by
  unfold severityOf
  cases h : c.ruleFor? f.ruleId with
  | some r =>
      obtain ⟨hr, hid⟩ := ruleFor?_eq_some_iff.mp h
      exact Or.inl ⟨r, hr, hid, rfl⟩
  | none => exact Or.inr ⟨ruleFor?_eq_none_iff.mp h, rfl⟩

/-! ### A run, from its arrivals -/

/-- The rules of a catalog that are not switched off. -/
def Catalog.enabled (c : Catalog) (s : Settings) : Catalog := c.dropping s.disabled

/-- The deadline of a run: the first reading of the clock, and the time that the rules may take. -/
def Settings.deadline (s : Settings) (clock : Clock) : Option Quantity :=
  s.timeout.map fun timeout => (clock 0).after timeout

/-- The arrivals of a run. -/
def Catalog.found (c : Catalog) (s : Settings) (input : Input) (clock : Clock) : List Arrival :=
  arrivals input s.token (c.started (s.deadline clock) clock 1)

/-- Arrivals, each key once, by the rank of their severity. -/
def ranked (c : Catalog) (s : Settings) (found : List Arrival) : List Arrival :=
  byRank (fun a => s.rank (c.severityOf a.finding))
    (firsts (fun a b => a.finding.sameKey b.finding) found)

/-- The annotation that an arrival becomes. -/
def Arrival.annotation (c : Catalog) (s : Settings) (a : Arrival) : Annotation LineRef Value :=
  annotationOf c s.rank a.finding

/-- The outcome of a run, from its arrivals. -/
def Catalog.outcome (c : Catalog) (s : Settings) (input : Input) (clock : Clock) :
    Outcome LineRef Value :=
  { annotations := ((ranked c s (c.found s input clock)).take s.maxAnnotations).map
      (Arrival.annotation c s)
    diagnostics := (c.run (input.document s.token) (s.deadline clock) clock 1).diagnostics
    totalFindings := (c.found s input clock).length }

variable {c : Catalog} {s : Settings} {input : Input} {clock : Clock}

theorem openFindings_eq :
    openFindings (input.document s.token)
        (c.run (input.document s.token) (s.deadline clock) clock 1) =
      (c.found s input clock).map Arrival.finding :=
  (map_finding_arrivals c (s.deadline clock) clock 1).symm

/-- The annotations of a run are the first of its ranked arrivals. -/
theorem outcomeOf_eq :
    outcomeOf c s (input.document s.token)
        (c.run (input.document s.token) (s.deadline clock) clock 1) =
      c.outcome s input clock := by
  simp only [outcomeOf, openFindings_eq, select_map, List.map_map, List.length_map]
  rfl

/-- A run whose arrivals can all be told apart has an outcome. -/
theorem annotateWith_eq_ok (h : ∀ a ∈ c.found s input clock, a.finding.ruleId.isKey = true) :
    ∃ log, annotateWith c s input clock = .ok { outcome := c.outcome s input clock, log } := by
  have hnone : unkeyed? (openFindings (input.document s.token)
      (c.run (input.document s.token) (s.deadline clock) clock 1)) = none := by
    rw [openFindings_eq, unkeyed?, List.find?_eq_none]
    intro f hf
    obtain ⟨a, ha, rfl⟩ := List.mem_map.mp hf
    simp [FindingOn.hasKey_eq, h a ha]
  rw [annotateWith]
  simp only [← Settings.deadline.eq_1, hnone, outcomeOf_eq]
  exact ⟨_, rfl⟩

/-- A run ends with the first arrival that cannot be told apart from others. -/
theorem annotateWith_eq_error {a : Arrival}
    (h : (c.found s input clock).find? (fun a => !a.finding.ruleId.isKey) = some a) :
    annotateWith c s input clock = .error { finding := a.finding } := by
  have hsome : unkeyed? (openFindings (input.document s.token)
      (c.run (input.document s.token) (s.deadline clock) clock 1)) = some a.finding := by
    rw [openFindings_eq, unkeyed?, List.find?_map]
    simp only [Function.comp_def, FindingOn.hasKey_eq]
    rw [h]
    rfl
  rw [annotateWith]
  simp only [← Settings.deadline.eq_1, hsome]

/-! ### Ranked arrivals -/

theorem mem_found_of_mem_ranked {found : List Arrival} {a : Arrival} (h : a ∈ ranked c s found) :
    a ∈ found :=
  (firsts_sublist _ found).mem ((byRank_perm _ _).mem_iff.mp h)

/-- An annotation is that of an arrival. -/
theorem exists_arrival_of_mem {a : Annotation LineRef Value}
    (h : a ∈ (c.outcome s input clock).annotations) :
    ∃ b ∈ c.found s input clock, b.annotation c s = a := by
  obtain ⟨b, hb, hab⟩ := List.mem_map.mp h
  exact ⟨b, mem_found_of_mem_ranked (List.mem_of_mem_take hb), hab⟩

/-- An arrival is open: it starts on a line of the document that is not silenced. -/
theorem isOpen_of_mem_found {a : Arrival} (h : a ∈ c.found s input clock) :
    (1 ≤ a.finding.first.toInt ∧ a.finding.first.toInt ≤ input.lines.length) ∧
      followsDirective s.token input.lines a.finding.first.toInt = false := by
  obtain ⟨r, f, -, -, hopen, hfinding⟩ := mem_arrivals_iff.mp h
  rw [IsOpen, Bool.and_eq_true, decide_eq_true_eq, Bool.not_eq_true'] at hopen
  rw [hfinding, FindingOn.cut_first]
  exact ⟨⟨hopen.1.1, hopen.1.2.1⟩, hopen.2⟩

/-- Whatever a rule of the catalog produces for a document is attributed to a text. -/
def Catalog.NamesByText (c : Catalog) (d : Document) : Prop :=
  ∀ r ∈ c.rules, ∀ f ∈ r.output d, f.HasTextId

theorem Catalog.NamesByText.enabled {d : Document} (h : c.NamesByText d) (s : Settings) :
    (c.enabled s).NamesByText d :=
  fun r hr => h r (List.mem_of_mem_filter hr)

theorem hasTextId_of_mem_found (h : c.NamesByText (input.document s.token)) {a : Arrival}
    (ha : a ∈ c.found s input clock) : a.finding.HasTextId := by
  obtain ⟨r, f, hr, hf, -, hfinding⟩ := mem_arrivals_iff.mp ha
  have hmem : r ∈ c.rules := List.mem_of_mem_take (List.mem_of_getElem? hr)
  obtain ⟨t, ht⟩ := h r hmem f (List.mem_of_getElem? hf)
  exact ⟨t, by rw [hfinding, FindingOn.cut_ruleId, ht]⟩

/-- Of arrivals that are attributed to texts, as many are ranked as there are keys. -/
theorem length_ranked {found : List Arrival} (h : ∀ a ∈ found, a.finding.HasTextId) :
    (ranked c s found).length = (found.map fun a => a.finding.key).toFinset.card := by
  rw [ranked, (byRank_perm _ _).length_eq]
  exact length_firsts fun a ha b hb => FindingOn.sameKey_iff (h a ha) (h b hb)

/-! ### Sound outcomes -/

/-- What is true of an outcome for the rules that are on, given the arrivals of the run. -/
structure Outcome.Sound (c : Catalog) (s : Settings) (input : Input) (found : List Arrival)
    (o : Outcome LineRef Value) : Prop where
  /-- Every annotation is on a line of the document. -/
  on_line : ∀ a ∈ o.annotations, 1 ≤ a.line.toInt ∧ a.line.toInt ≤ input.lines.length
  /-- The line before, blanks around it aside, is not the token of directives. -/
  not_silenced : ∀ a ∈ o.annotations, ∀ (i : Nat) (l : String), input.lines[i]? = some l →
    a.line.toInt = i + 2 → Text.ofString (Text.strip l) ≠ s.token
  /-- Its severity is that of its rule, and the least of all if there is no such rule. -/
  severity : ∀ a ∈ o.annotations,
    (∃ r ∈ c.rules, a.ruleId = .ofString r.id ∧ a.severity = r.importance) ∨
      (∀ r ∈ c.rules, a.ruleId ≠ .ofString r.id) ∧ a.severity = .info
  /-- Its importance is the rank of its severity. -/
  importance : ∀ a ∈ o.annotations, a.importance = s.rank a.severity
  /-- There are as many annotations as keys, up to the limit. -/
  count : o.annotations.length =
    min s.maxAnnotations (found.map fun a => a.finding.key).toFinset.card
  /-- Repeats count as findings. -/
  total : o.totalFindings = found.length

/-- Rules may fail, yield what is no finding, name lines that are not there or speak for another
rule: as long as findings are attributed to texts, there is an outcome, and it is sound. -/
theorem annotate_sound (c : Catalog) (s : Settings) (input : Input) (clock : Clock)
    (h : c.NamesByText (input.document s.token)) :
    ∃ run, annotate (.ready c) s input clock = .ok run ∧
      run.outcome.Sound (c.enabled s) s input
        ((c.enabled s).found s input clock) := by
  have htext : ∀ a ∈ (c.enabled s).found s input clock, a.finding.HasTextId :=
    fun a ha => hasTextId_of_mem_found (h.enabled s) ha
  obtain ⟨log, hrun⟩ := annotateWith_eq_ok fun a ha => (htext a ha).isKey
  refine ⟨_, hrun, ?_⟩
  constructor
  case on_line =>
      intro a ha
      obtain ⟨b, hb, rfl⟩ := exists_arrival_of_mem ha
      exact (isOpen_of_mem_found hb).1
  case not_silenced =>
      intro a ha i l hl hline htoken
      obtain ⟨b, hb, rfl⟩ := exists_arrival_of_mem ha
      have hfollows : followsDirective s.token input.lines b.finding.first.toInt = true :=
        followsDirective_iff.mpr ⟨i, l, hl, htoken, hline⟩
      rw [(isOpen_of_mem_found hb).2] at hfollows
      cases hfollows
  case severity =>
      intro a ha
      obtain ⟨b, hb, rfl⟩ := exists_arrival_of_mem ha
      exact (c.enabled s).severityOf_cases b.finding
  case importance =>
      intro a ha
      obtain ⟨b, hb, rfl⟩ := exists_arrival_of_mem ha
      rfl
  case count => rw [Catalog.outcome, List.length_map, List.length_take, length_ranked htext]
  case total => rfl

/-- Two rules that do much of what rules may do: one fails half way, and one speaks for another
rule, repeats itself once what it says is cut to size, and names lines that are not there. -/
def unruly : Catalog :=
  .ofRules [
    { id := "broken", title := none, importance := .critical, recommendation := none,
      evaluate := fun _ =>
        .items [.finding (.ofString "broken") (.int 1) (.int 1) .null] (some .endless) },
    { id := "loose", title := none, importance := .high, recommendation := none,
      evaluate := fun _ => .items [
        .finding (.ofString "other") (.int 1) (.int 9) (.ofString "too long"),
        .finding (.ofString "other") (.bool true) (.int 7) (.ofString "too long as well"),
        .finding (.ofString "loose") (.int 2) (.int 1) (.ofString "backwards"),
        .finding (.ofString "broken") (.int 3) (.int 3) (.ofString "silenced")] none }]

theorem namesByText_unruly (d : Document) : unruly.NamesByText d := by
  intro r hr f hf
  simp only [unruly, Catalog.rules_ofRules, List.mem_cons, List.not_mem_nil, or_false] at hr
  rcases hr with rfl | rfl
  · cases hf
  · rcases hf with _ | ⟨_, _ | ⟨_, _ | ⟨_, _ | ⟨_, ⟨⟩⟩⟩⟩⟩ <;> exact ⟨_, rfl⟩

/-- Three lines, the last of them silenced. -/
def threeLines : Input := .text "a\n# guardrails:ignore-next-line\nb"

theorem annotate_sound_unruly :
    unruly.NamesByText (threeLines.document defaultToken) ∧
      ∃ run, annotate (.ready unruly) .default threeLines (fun _ => .whole 0) = .ok run ∧
        run.outcome.Sound (unruly.enabled .default) .default threeLines
          ((unruly.enabled .default).found .default threeLines fun _ => .whole 0) :=
  ⟨namesByText_unruly _, annotate_sound _ _ _ _ (namesByText_unruly _)⟩

/-! ### The order of annotations -/

/-- An arrival is told before another one: its severity ranks first, or they rank the same and it
arrived first. -/
def Arrival.Outranks (c : Catalog) (s : Settings) (a b : Arrival) : Prop :=
  s.rank (c.severityOf a.finding) < s.rank (c.severityOf b.finding) ∨
    s.rank (c.severityOf a.finding) = s.rank (c.severityOf b.finding) ∧ a.Before b

theorem Arrival.Outranks.asymm {a b : Arrival} (h : a.Outranks c s b) : ¬ b.Outranks c s a := by
  unfold Arrival.Outranks Arrival.Before at *
  omega

/-- The order in which arrivals are told. -/
structure IsRanking (c : Catalog) (s : Settings) (found ranking : List Arrival) : Prop where
  /-- Of the arrivals with one key, the earliest is told. -/
  mem_iff : ∀ a, a ∈ ranking ↔
    a ∈ found ∧ ∀ b ∈ found, b.finding.key = a.finding.key → ¬ b.Before a
  /-- Each is told before those that it outranks. -/
  sorted : ranking.Pairwise (Arrival.Outranks c s)

/-- There is one ranking only. -/
theorem IsRanking.unique {found l m : List Arrival} (hl : IsRanking c s found l)
    (hm : IsRanking c s found m) : l = m := by
  have hnodup : ∀ {k : List Arrival}, IsRanking c s found k → k.Nodup := fun hk =>
    hk.sorted.imp fun {a b} hab heq => by
      subst heq
      exact hab.asymm hab
  have hperm : l.Perm m := (List.perm_ext_iff_of_nodup (hnodup hl) (hnodup hm)).mpr fun a =>
    (hl.mem_iff a).trans (hm.mem_iff a).symm
  exact hperm.eq_of_pairwise (fun a b _ _ hab hba => absurd hba hab.asymm) hl.sorted hm.sorted

theorem isRanking_ranked {found : List Arrival} (hfound : found.Pairwise Arrival.Before)
    (htext : ∀ a ∈ found, a.finding.HasTextId) : IsRanking c s found (ranked c s found) := by
  constructor
  case mem_iff =>
      intro a
      rw [ranked, (byRank_perm _ _).mem_iff, mem_firsts_iff Arrival.Before.asymm hfound]
      refine and_congr_right fun ha => forall₂_congr fun b hb => ?_
      rw [← FindingOn.sameKey_iff (htext b hb) (htext a ha)]
      cases b.finding.sameKey a.finding <;> simp
  case sorted =>
      have hfirsts := hfound.sublist
        (firsts_sublist (fun a b => a.finding.sameKey b.finding) found)
      refine (pairwise_byRank hfirsts).imp fun {a b} hab => ?_
      rcases hab with hlt | ⟨heq, hbefore⟩
      · exact Or.inl (by exact_mod_cast hlt)
      · exact Or.inr ⟨by exact_mod_cast heq, hbefore⟩

/-- What is told and in which order, for any limit at once: the limit only says how far down one
ranking of the open findings annotations go. So nothing that is left out outranks what is told,
silenced findings are not in the ranking, and a higher limit only adds at the end. -/
theorem annotate_ranked (c : Catalog) (s : Settings) (input : Input) (clock : Clock)
    (htimeout : s.timeout = none) (h : c.NamesByText (input.document s.token)) :
    ∃ ranking,
      (∀ l, IsRanking (c.enabled s) s (arrivals input s.token (c.enabled s).rules) l ↔
        l = ranking) ∧
      (∀ limit, ∃ run,
        annotate (.ready c) { s with maxAnnotations := limit } input clock = .ok run ∧
          run.outcome.annotations =
            (ranking.take limit).map (Arrival.annotation (c.enabled s) s)) ∧
      (∀ limit, ∀ a ∈ ranking.take limit, ∀ b ∈ ranking.drop limit,
        a.Outranks (c.enabled s) s b) ∧
      (∀ a ∈ ranking, followsDirective s.token input.lines a.finding.first.toInt = false) ∧
      ∀ limit more, ∃ run longer,
        annotate (.ready c) { s with maxAnnotations := limit } input clock = .ok run ∧
        annotate (.ready c) { s with maxAnnotations := limit + more } input clock = .ok longer ∧
        run.outcome.annotations <+: longer.outcome.annotations := by
  have hfound : (c.enabled s).found s input clock =
      arrivals input s.token (c.enabled s).rules := by
    rw [Catalog.found, Settings.deadline, htimeout, Option.map_none, Catalog.started_none]
  have htext : ∀ a ∈ (c.enabled s).found s input clock, a.finding.HasTextId :=
    fun a ha => hasTextId_of_mem_found (h.enabled s) ha
  have hranking : IsRanking (c.enabled s) s ((c.enabled s).found s input clock)
      (ranked (c.enabled s) s ((c.enabled s).found s input clock)) :=
    isRanking_ranked (pairwise_arrivals _ _ _) htext
  have hrun : ∀ limit, ∃ run,
      annotate (.ready c) { s with maxAnnotations := limit } input clock = .ok run ∧
        run.outcome.annotations =
          ((ranked (c.enabled s) s ((c.enabled s).found s input clock)).take limit).map
            (Arrival.annotation (c.enabled s) s) := by
    intro limit
    -- neither the arrivals nor their ranking depend on the limit
    have hkeys : ∀ a ∈ (c.enabled s).found { s with maxAnnotations := limit } input clock,
        a.finding.ruleId.isKey = true := fun a ha => (htext a ha).isKey
    obtain ⟨log, hrun⟩ := annotateWith_eq_ok hkeys
    exact ⟨_, hrun, rfl⟩
  refine ⟨ranked (c.enabled s) s ((c.enabled s).found s input clock), ?_, hrun, ?_, ?_, ?_⟩
  · intro l
    rw [← hfound]
    exact ⟨fun hl => hl.unique hranking, fun hl => hl ▸ hranking⟩
  · intro limit a ha b hb
    have hsorted := hranking.sorted
    rw [← List.take_append_drop limit (ranked _ _ _), List.pairwise_append] at hsorted
    exact hsorted.2.2 a ha b hb
  · exact fun a ha => (isOpen_of_mem_found (mem_found_of_mem_ranked ha)).2
  · intro limit more
    obtain ⟨run, hok, hann⟩ := hrun limit
    obtain ⟨longer, hok', hann'⟩ := hrun (limit + more)
    refine ⟨run, longer, hok, hok', ?_⟩
    rw [hann, hann']
    exact (List.take_prefix_take_left (Nat.le_add_right limit more)).map _

theorem annotate_ranked_unruly :
    Settings.default.timeout = none ∧ unruly.NamesByText (threeLines.document defaultToken) ∧
      ∃ ranking,
        (∀ l, IsRanking (unruly.enabled .default) .default
          (arrivals threeLines defaultToken (unruly.enabled .default).rules) l ↔ l = ranking) ∧
        ∃ run, annotate (.ready unruly) { Settings.default with maxAnnotations := 1 } threeLines
            (fun _ => .whole 0) = .ok run ∧
          run.outcome.annotations =
            (ranking.take 1).map (Arrival.annotation (unruly.enabled .default) .default) := by
  refine ⟨rfl, namesByText_unruly _, ?_⟩
  obtain ⟨ranking, hranking, hrun, -⟩ :=
    annotate_ranked unruly .default threeLines (fun _ => .whole 0) rfl (namesByText_unruly _)
  exact ⟨ranking, hranking, hrun 1⟩

/-! ### Failures -/

/-- The diagnostic for a catalog that cannot be had. -/
def Diagnostic.catalogError (e : CatalogError) : Diagnostic :=
  { kind := "catalog_error", message := e.message, ruleId := none }

/-- Every failure of a run is among its diagnostics. -/
structure OnRecord (source : CatalogSource) (s : Settings) (input : Input) (clock : Clock)
    (ds : List Diagnostic) : Prop where
  /-- If there is no catalog, that is all there is to say. -/
  catalog : ∀ e, source.catalog = .error e → ds = [.catalogError e]
  /-- A rule that is started and fails is named. -/
  rule : ∀ c, source.catalog = .ok c → ∀ r ∈ (c.enabled s).started (s.deadline clock) clock 1,
    (r.evaluate (input.document s.token)).Fails → ∃ message, .ruleError r.id message ∈ ds
  /-- So is one that produces a finding out of range, for each of them. -/
  range : ∀ c, source.catalog = .ok c → ∀ r ∈ (c.enabled s).started (s.deadline clock) clock 1,
    ∀ f ∈ r.output (input.document s.token), ¬ f.InRange input.lines.length →
      .outOfRange r.id input.lines.length f ∈ ds
  /-- So are those that are not started. -/
  deadline : ∀ c, source.catalog = .ok c →
    (c.enabled s).unstarted (s.deadline clock) clock 1 ≠ [] →
      .skipped (((c.enabled s).unstarted (s.deadline clock) clock 1).map Rule.id) ∈ ds

/-- The arrivals can all be told apart exactly if the open findings can. -/
theorem forall_found_isKey_iff :
    (∀ a ∈ c.found s input clock, a.finding.ruleId.isKey = true) ↔
      ∀ r ∈ c.started (s.deadline clock) clock 1, ∀ f ∈ r.output (input.document s.token),
        IsOpen input s.token f = true → f.ruleId.isKey = true := by
  constructor
  · intro h r hr f hf hopen
    obtain ⟨place, hplace⟩ := List.mem_iff_getElem?.mp hr
    obtain ⟨item, hitem⟩ := List.mem_iff_getElem?.mp hf
    have ha := h { rule := place, item, finding := f.cut input.lines.length }
      (mem_arrivals_iff.mpr ⟨r, f, hplace, hitem, hopen, rfl⟩)
    rwa [FindingOn.cut_ruleId] at ha
  · intro h a ha
    obtain ⟨r, f, hr, hf, hopen, hfinding⟩ := mem_arrivals_iff.mp ha
    rw [hfinding, FindingOn.cut_ruleId]
    exact h r (List.mem_of_getElem? hr) f (List.mem_of_getElem? hf) hopen

/-- A source without a catalog is on record. -/
theorem onRecord_catalogError {source : CatalogSource} {e : CatalogError}
    (hsource : source.catalog = .error e) : OnRecord source s input clock [.catalogError e] := by
  constructor
  case catalog =>
      intro e' he'
      obtain rfl : e = e' := Except.error.inj (hsource.symm.trans he')
      rfl
  all_goals
    intro c hc
    rw [hsource] at hc
    cases hc

/-- So is all that goes wrong in a run. -/
theorem onRecord_run {source : CatalogSource} (hsource : source.catalog = .ok c) :
    OnRecord source s input clock
      ((c.enabled s).run (input.document s.token) (s.deadline clock) clock 1).diagnostics := by
  constructor
  case catalog =>
      intro e he
      rw [hsource] at he
      cases he
  all_goals
    intro c' hc'
    obtain rfl : c = c' := Except.ok.inj (hsource.symm.trans hc')
  case rule => exact fun r hr hfails => Catalog.ruleError_mem_run hr hfails
  case range =>
      intro r hr f hf hrange
      refine Catalog.mem_run_of_mem_step hr ?_
      rw [Input.lineCount_document]
      exact Rule.outOfRange_mem_step hf hrange
  case deadline => exact Catalog.skipped_mem_run

/-- The three ways in which a run ends: without a catalog, with an outcome, and at a finding that
is attributed to something that can be no identifier. -/
theorem annotate_cases (source : CatalogSource) (s : Settings) (input : Input) (clock : Clock) :
    (∃ e, source.catalog = .error e ∧
      annotate source s input clock = .ok (.ofCatalogError e)) ∨
    (∃ c run, source.catalog = .ok c ∧
      (∀ a ∈ (c.enabled s).found s input clock, a.finding.ruleId.isKey = true) ∧
      annotate source s input clock = .ok run ∧
      run.outcome.diagnostics =
        ((c.enabled s).run (input.document s.token) (s.deadline clock) clock 1).diagnostics) ∨
    ∃ c a, source.catalog = .ok c ∧
      ((c.enabled s).found s input clock).find? (fun a => !a.finding.ruleId.isKey) = some a ∧
      annotate source s input clock = .error { finding := a.finding } := by
  cases hsource : source.catalog with
  | error e => exact Or.inl ⟨e, rfl, by rw [annotate, hsource]⟩
  | ok c =>
      have hrun : annotate source s input clock = annotateWith (c.enabled s) s input clock := by
        rw [annotate, hsource]
        rfl
      rw [hrun]
      cases hfind : ((c.enabled s).found s input clock).find?
          (fun a => !a.finding.ruleId.isKey) with
      | some a => exact Or.inr (Or.inr ⟨c, a, rfl, hfind, annotateWith_eq_error hfind⟩)
      | none =>
          have hkeys : ∀ a ∈ (c.enabled s).found s input clock, a.finding.ruleId.isKey = true := by
            simpa using hfind
          obtain ⟨log, hok⟩ := annotateWith_eq_ok hkeys
          exact Or.inr (Or.inl ⟨c, _, rfl, hkeys, hok, rfl⟩)

/-- There is an outcome exactly if no open finding is attributed to something that can be no
identifier, and then all failures are on record in it, whatever the source of the catalog and the
rules do. Otherwise the run ends with the first such finding. -/
theorem annotate_ok_iff (source : CatalogSource) (s : Settings) (input : Input) (clock : Clock) :
    ((∃ run, annotate source s input clock = .ok run) ↔
      ∀ c, source.catalog = .ok c → ∀ r ∈ (c.enabled s).started (s.deadline clock) clock 1,
        ∀ f ∈ r.output (input.document s.token), IsOpen input s.token f = true →
          f.ruleId.isKey = true) ∧
    (∀ run, annotate source s input clock = .ok run →
      OnRecord source s input clock run.outcome.diagnostics) ∧
    ∀ fault, annotate source s input clock = .error fault →
      ∃ c a, source.catalog = .ok c ∧
        ((c.enabled s).found s input clock).find? (fun a => !a.finding.ruleId.isKey) = some a ∧
        fault.finding = a.finding := by
  rcases annotate_cases source s input clock with
    ⟨e, hsource, hrun⟩ | ⟨c, run, hsource, hkeys, hrun, hdiagnostics⟩ | ⟨c, a, hsource, hfind, hrun⟩
  · rw [hrun]
    refine ⟨⟨fun _ c hc => ?_, fun _ => ⟨_, rfl⟩⟩, fun run hok => ?_, fun fault herror => ?_⟩
    · rw [hsource] at hc
      cases hc
    · obtain rfl := Except.ok.inj hok
      exact onRecord_catalogError hsource
    · cases herror
  · rw [hrun]
    refine ⟨⟨fun _ c' hc' => ?_, fun _ => ⟨_, rfl⟩⟩, fun run' hok => ?_, fun fault herror => ?_⟩
    · obtain rfl : c = c' := Except.ok.inj (hsource.symm.trans hc')
      exact forall_found_isKey_iff.mp hkeys
    · obtain rfl := Except.ok.inj hok
      rw [hdiagnostics]
      exact onRecord_run hsource
    · cases herror
  · rw [hrun]
    refine ⟨⟨fun ⟨_, hok⟩ => (by cases hok), fun hkeys => ?_⟩, fun run hok => ?_,
      fun fault herror => ?_⟩
    · have ha := forall_found_isKey_iff.mpr (hkeys c hsource) a (List.mem_of_find?_eq_some hfind)
      have hnot := List.find?_some hfind
      simp [ha] at hnot
    · cases hok
    · obtain rfl := Except.error.inj herror
      exact ⟨c, a, hsource, hfind, rfl⟩

/-- A rule that attributes what it finds to a list. -/
def misnaming : Rule :=
  { id := "r", title := none, importance := .info, recommendation := none,
    evaluate := fun _ =>
      .items [.finding (.list [.ofString "x"]) (.int 1) (.int 1) (.ofString "m")] none }

/-- Such a rule leaves a run without an outcome. -/
theorem annotate_misnaming :
    ¬ ∃ run, annotate (.ready (.ofRules [misnaming])) .default (.text "a") (fun _ => .whole 0) =
      .ok run := by
  have hfind : ((Catalog.enabled (.ofRules [misnaming]) .default).found .default (.text "a")
      fun _ => .whole 0).find? (fun a => !a.finding.ruleId.isKey) =
        some { rule := 0, item := 0,
               finding :=
                { ruleId := .list [.ofString "x"], first := .number 1, last := .number 1,
                  message := .ofString "m" } } := by
    rfl
  rintro ⟨run, hrun⟩
  rw [annotate, CatalogSource.catalog] at hrun
  exact absurd (hrun.symm.trans (annotateWith_eq_error hfind)) (by simp)

end TemplateAudit
