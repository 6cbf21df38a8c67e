import TemplateAudit.Proofs.JsonReport
import TemplateAudit.Proofs.Verdict
import TemplateAudit.Proofs.Workflow
import TemplateAudit.Report.Text

/-!
# TemplateAudit.Proofs.Agreement

All verdicts on an outcome **agree** (`verdicts_agree`): the numbers of the summary, the exit code,
and what each of the three reports states.

Each of them is computed on its own, the summary by counting, the exit code as a maximum, the kinds
of workflow commands from a table. What ties them together is the list of severities:

* `Outcome.count_summary` says that the summary counts it;
* `Outcome.lt_exitCode_iff` says that the exit code is above a number if some verdict in it is.

What a report states is read off its text. The lines of the report for people are found again up to
the verdict, since a table of numbers holds no break (`Report.Text.status?_render`). The one for
programs is read as JSON (`Report.Json.passed?_render`). There two halves of a character side by
side would be taken for the character; `Text.paired` puts it in their place beforehand, which makes
no difference to what is written.
-/

namespace TemplateAudit

/-! ### Counting -/

theorem Summary.count_increment (s : Summary) (v w : Severity) :
    (s.increment v).count w = s.count w + if v = w then 1 else 0 := by
  cases v <;> cases w <;> rfl

theorem Summary.count_foldl_increment (s : Summary) (vs : List Severity) (w : Severity) :
    (vs.foldl increment s).count w = s.count w + vs.count w := by
  induction vs generalizing s with
  | nil => rfl
  | cons v vs ih =>
      rw [List.foldl_cons, ih, count_increment, List.count_cons]
      simp only [beq_iff_eq]
      omega

/-- Every severity is one of the five. -/
theorem Severity.count_add (vs : List Severity) :
    vs.count .critical + vs.count .high + vs.count .medium + vs.count .low + vs.count .info =
      vs.length := by
  induction vs with
  | nil => rfl
  | cons v vs ih => cases v <;> simp <;> omega

theorem Summary.total_eq (s : Summary) :
    s.total = s.critical + s.high + s.medium + s.low + s.info := by
  simp [total, Severity.all, count]

namespace Outcome

variable {ℓ α : Type} (o : Outcome ℓ α)

/-- The summary counts the annotations of each severity. -/
theorem count_summary (v : Severity) : o.summary.count v = o.severities.count v := by
  rw [summary, Summary.count_foldl_increment]
  cases v <;> exact Nat.zero_add _

theorem total_summary : o.summary.total = o.annotations.length := by
  have hlength : o.severities.length = o.annotations.length := List.length_map ..
  rw [← hlength, ← Severity.count_add, Summary.total]
  simp [Severity.all, count_summary]

/-! ### Exit codes -/

/-- The exit code is above a number if the verdict on some annotation is. -/
theorem lt_exitCode_iff {n : Nat} : n < o.exitCode ↔ ∃ v ∈ o.severities, n < v.verdict := by
  rw [← Nat.not_le, exitCode_eq_gravest, gravest_le_iff, List.forall_mem_map]
  simp only [not_forall, Nat.not_le, exists_prop]

theorem exitCode_le_two : o.exitCode ≤ 2 := by
  have hverdict : ∀ v : Severity, v.verdict ≤ 2 := by
    intro v
    cases v <;> decide
  rw [← Nat.not_lt, lt_exitCode_iff]
  simp [hverdict]

theorem mem_severities_iff {v : Severity} : v ∈ o.severities ↔ 0 < o.summary.count v := by
  rw [count_summary, List.count_pos_iff]

theorem one_lt_exitCode_iff : 1 < o.exitCode ↔ 0 < o.summary.critical + o.summary.high := by
  have hcritical : .critical ∈ o.severities ↔ 0 < o.summary.critical := o.mem_severities_iff
  have hhigh : .high ∈ o.severities ↔ 0 < o.summary.high := o.mem_severities_iff
  rw [lt_exitCode_iff, Nat.add_pos_iff_pos_or_pos, ← hcritical, ← hhigh]
  constructor
  · intro ⟨v, hmem, hlt⟩
    cases v with
    | critical => exact .inl hmem
    | high => exact .inr hmem
    | medium | low | info => exact absurd hlt (by decide)
  · intro h
    rcases h with h | h
    · exact ⟨_, h, by decide⟩
    · exact ⟨_, h, by decide⟩

/-- Below what fails a build, only a warning makes a difference. -/
theorem exitCode_eq_zero_iff :
    o.exitCode = 0 ↔ o.summary.critical + o.summary.high = 0 ∧ o.summary.medium = 0 := by
  have hmedium : .medium ∈ o.severities ↔ 0 < o.summary.medium := o.mem_severities_iff
  have hone := o.one_lt_exitCode_iff
  constructor
  · intro hzero
    have hnone : ¬ 0 < o.summary.medium := by
      intro hpos
      have hverdict : 0 < Severity.medium.verdict := by decide
      have := o.lt_exitCode_iff.mpr ⟨_, hmedium.mpr hpos, hverdict⟩
      omega
    omega
  · intro ⟨hgrave, hnone⟩
    by_contra hne
    obtain ⟨v, hmem, hlt⟩ := o.lt_exitCode_iff.mp (Nat.pos_of_ne_zero hne)
    cases v with
    | critical | high =>
        have := o.lt_exitCode_iff.mpr ⟨_, hmem, show 1 < Severity.verdict _ by decide⟩
        omega
    | medium =>
        have := hmedium.mp hmem
        omega
    | low | info => exact absurd hlt (by decide)

end Outcome

/-! ### The report for people -/

namespace Report.Text

open TemplateAudit.Text (Point mem_ofString ofChars ofString)

/-- The verdict that a report states, on the first line that is about it. -/
def status? (report : Text) : Option Text :=
  (report.splitOn (.char '\n')).findSome? fun line => line.dropPrefix? (ofString "Status    : ")

theorem splitOn_append_cons {t : Text} (h : Point.char '\n' ∉ t) (rest : Text) :
    (t ++ .char '\n' :: rest).splitOn (.char '\n') = t :: rest.splitOn (.char '\n') := by
  have hne : ∀ p ∈ t, (p == Point.char '\n') = false := by
    intro p hp
    exact beq_eq_false_iff_ne.mpr fun heq => h (heq ▸ hp)
  rw [List.splitOn_eq_splitOnP, List.splitOn_eq_splitOnP]
  exact List.splitOnP_append_cons_of_forall_mem hne _ (beq_self_eq_true _) rest

/-- Unbroken lines are the first lines of a text that starts with them, whatever follows. -/
theorem prefix_splitOn_join {first more : List Text} (h : ∀ t ∈ first, Point.char '\n' ∉ t)
    (hmore : more ≠ []) :
    first <+: (Text.join "\n" (first ++ more)).splitOn (.char '\n') := by
  induction first with
  | nil => exact List.nil_prefix
  | cons t first ih =>
      obtain ⟨ht, hfirst⟩ := List.forall_mem_cons.mp h
      have hne : first ++ more ≠ [] := List.append_ne_nil_of_right_ne_nil first hmore
      obtain ⟨next, rest, hrest⟩ := List.exists_cons_of_ne_nil hne
      have hjoin : Text.join "\n" (t :: first ++ more) =
          t ++ .char '\n' :: Text.join "\n" (first ++ more) := by
        rw [List.cons_append, hrest, Text.join, List.intercalate_cons_cons]
        simp [Text.join, ofString, ofChars]
      rw [hjoin, splitOn_append_cons ht]
      exact List.cons_prefix_cons.mpr ⟨rfl, ih hfirst⟩

/-- The lines before the verdict. -/
def tableLines (o : Outcome LineRef Text) : List String :=
  ["Annotation Summary", rule 40 '=', header, rule header.length '-'] ++
    o.summary.rows.map (fun (severity, count) => row severity.name (toString count)) ++
    [rule header.length '-']

/-- A line without a break that is not about the verdict. -/
def IsOther (line : String) : Prop :=
  '\n' ∉ line.toList ∧ (ofString line).dropPrefix? (ofString "Status    : ") = none

theorem isOther_row (v : Severity) (n : Nat) : IsOther (row v.name (toString n)) := by
  constructor
  · have hname : '\n' ∉ v.name.toList := by cases v <;> decide
    have hcount : '\n' ∉ Nat.toDigits 10 n := fun h =>
      absurd (Nat.isDigit_of_mem_toDigits (by decide) (by decide) h) (by decide)
    simp [row, padLeft, padRight, hname, hcount]
  · cases v <;> simp [row, padRight, ofString, ofChars, Severity.name, List.dropPrefix?]

theorem isOther_of_mem {o : Outcome LineRef Text} {line : String} (h : line ∈ tableLines o) :
    IsOther line := by
  simp only [tableLines, Summary.rows, List.mem_append, List.mem_cons, List.mem_map,
    List.not_mem_nil, or_false] at h
  rcases h with ((rfl | rfl | rfl | rfl) | ⟨_, ⟨v, -, rfl⟩, rfl⟩) | rfl
  · constructor <;> decide
  · constructor <;> decide
  · constructor <;> decide
  · constructor <;> decide
  · exact isOther_row v _
  · constructor <;> decide

/-- A report is the table, the verdict, and at least one more line. -/
theorem exists_render (path : String) (o : Outcome LineRef Text) :
    ∃ next more, render path o =
      Text.join "\n" ((tableLines o ++ ["Status    : " ++ status o.passed]).map ofString ++
        next :: more) := by
  refine ⟨ofString s!"Findings  : {o.totalFindings} ({o.annotations.length} shown)",
    part "Annotations" (o.annotations.flatMap (annotationLines path)) ++
      part "Diagnostics" (o.diagnostics.map fun d => ofString (diagnosticLine d)), ?_⟩
  simp [render, summaryLines, tableLines]

theorem status?_render (path : String) (o : Outcome LineRef Text) :
    status? (render path o) = some (ofString (status o.passed)) := by
  obtain ⟨next, more, hrender⟩ := exists_render path o
  have hunbroken : ∀ t ∈ (tableLines o ++ ["Status    : " ++ status o.passed]).map ofString,
      Point.char '\n' ∉ t := by
    intro t ht
    obtain ⟨line, hline, rfl⟩ := List.mem_map.mp ht
    rw [mem_ofString]
    rcases List.mem_append.mp hline with htable | hstatus
    · exact (isOther_of_mem htable).1
    · rw [List.mem_singleton.mp hstatus]
      cases o.passed <;> decide
  have hnone : ((tableLines o).map ofString).findSome?
      (fun line => line.dropPrefix? (ofString "Status    : ")) = none := by
    rw [List.findSome?_eq_none_iff]
    intro t ht
    obtain ⟨line, hline, rfl⟩ := List.mem_map.mp ht
    exact (isOther_of_mem hline).2
  rw [status?, hrender]
  refine (prefix_splitOn_join hunbroken (List.cons_ne_nil next more)).findSome?_eq_some ?_
  rw [List.map_append, List.findSome?_append, hnone]
  cases o.passed <;> decide

end Report.Text

/-! ### The report for programs -/

/-- The text with a character in the place of its two halves, wherever they stand side by side. -/
def Text.paired : Text → Text
  | [] => []
  | [p] => [p]
  | p :: q :: t =>
    if Json.isPair p.code q.code then .char (Json.pairChar p.code q.code) :: paired t
    else p :: paired (q :: t)

namespace Json

open TemplateAudit.Text (Point)

theorem isPair_char (n : Nat) (c : Char) : isPair n c.toNat = false := by
  have hc := toNat_char c
  simp only [isPair, Bool.and_eq_false_iff, decide_eq_false_iff_not]
  omega

theorem toNat_pairChar {high low : Nat} (h : isPair high low = true) :
    (pairChar high low).toNat = 0x10000 + (high - 0xD800) * 0x400 + (low - 0xDC00) := by
  simp only [isPair, Bool.and_eq_true, decide_eq_true_eq] at h
  have hvalid : (0x10000 + (high - 0xD800) * 0x400 + (low - 0xDC00)).isValidChar := by
    right
    omega
  rw [pairChar, Char.ofNat, dif_pos hvalid]
  rfl

theorem utf16Units_pairChar {high low : Nat} (h : isPair high low = true) :
    utf16Units (pairChar high low) = [high, low] := by
  have hcode := toNat_pairChar h
  simp only [isPair, Bool.and_eq_true, decide_eq_true_eq] at h
  rw [utf16Units, hcode, if_neg (by omega)]
  simp only [List.cons.injEq, and_true]
  omega

/-- A character beyond ASCII is written by its units. -/
theorem escapeChar_of_le {c : Char} (h : 0x7F ≤ c.toNat) :
    escapeChar c = (utf16Units c).flatMap escapeUnit := by
  have hne : ∀ d : Char, d.toNat < 0x7F → c ≠ d := by
    intro d hd heq
    subst heq
    omega
  have hback : c.toNat ≠ 0x08 := by omega
  have hfeed : c.toNat ≠ 0x0C := by omega
  have hascii : ¬ (0x20 ≤ c.toNat ∧ c.toNat < 0x7F) := by omega
  simp [escapeChar, hne '"' (by decide), hne '\\' (by decide), hne '\n' (by decide),
    hne '\r' (by decide), hne '\t' (by decide), hback, hfeed, hascii]

/-- The two halves of a character are written like the character. -/
theorem escapePoint_pairChar {p q : Point} (h : isPair p.code q.code = true) :
    escapePoint (.char (pairChar p.code q.code)) = escapePoint p ++ escapePoint q := by
  have hcode := toNat_pairChar h
  cases p with
  | char c => simp [Point.code, isPair_of_char] at h
  | surrogate first =>
      cases q with
      | char c => simp [Point.code, isPair_char] at h
      | surrogate second =>
          rw [escapePoint, escapeChar_of_le (by omega), utf16Units_pairChar h]
          simp [escapePoint]

theorem textChars_paired (t : Text) : textChars t.paired = textChars t := by
  have hpoints : t.paired.flatMap escapePoint = t.flatMap escapePoint := by
    fun_induction Text.paired t with
    | case1 => rfl
    | case2 => rfl
    | case3 p q t h ih => simp [escapePoint_pairChar h, ih]
    | case4 p q t h ih => simp only [List.flatMap_cons, ih]
  rw [textChars, textChars, hpoints]

/-- What comes first in a paired text came first before, or is a character. -/
theorem head?_paired {t : Text} {p : Point} (h : p ∈ t.paired.head?) :
    p ∈ t.head? ∨ ∃ c, p = .char c := by
  unfold Text.paired at h
  split at h
  case h_1 => cases h
  case h_2 => exact .inl h
  case h_3 =>
      split at h
      case isTrue => exact .inr ⟨_, (Option.some.inj h).symm⟩
      case isFalse => exact .inl h

theorem isWhole_paired (t : Text) : t.paired.IsWhole := by
  fun_induction Text.paired t with
  | case1 => exact .nil
  | case2 => exact .singleton _
  | case3 p q t h ih => exact List.isChain_cons.mpr ⟨fun _ _ => isPair_of_char _ _, ih⟩
  | case4 p q t h ih =>
      refine List.isChain_cons.mpr ⟨fun r hr => ?_, ih⟩
      rcases head?_paired hr with hhead | ⟨c, rfl⟩
      · obtain rfl : q = r := by simpa using hhead
        simpa using h
      · exact isPair_char _ c

/-- What is written alike makes lists that are written alike. -/
theorem indentedItems_congr {α : Type} {f g : α → Json} {level : Nat}
    (h : ∀ a, indentedChars level (f a) = indentedChars level (g a)) (as : List α) :
    indentedItems level (as.map f) = indentedItems level (as.map g) := by
  induction as with
  | nil => rfl
  | cons a as ih =>
      cases as with
      | nil => simp [indentedItems, h a]
      | cons b as =>
          simp only [List.map_cons] at ih
          simp [indentedItems, h a, ih]

theorem indentedChars_list_congr {α : Type} {f g : α → Json} {level : Nat}
    (h : ∀ a, indentedChars (level + 1) (f a) = indentedChars (level + 1) (g a)) (as : List α) :
    indentedChars level (.list (as.map f)) = indentedChars level (.list (as.map g)) := by
  have hitems := indentedItems_congr h as
  cases as with
  | nil => rfl
  | cons a as =>
      simp only [List.map_cons] at hitems
      simp [indentedChars, hitems]

theorem indentedChars_object (level : Nat) (m : Text × Json) (ms : List (Text × Json)) :
    indentedChars level (.object (m :: ms)) =
      '\x7b' :: indentedMembers (level + 1) (m :: ms) ++ newLine level ++ ['\x7d'] := by
  simp [indentedChars]

end Json

/-- The annotation with its texts paired. -/
def Annotation.paired {ℓ : Type} (a : Annotation ℓ Text) : Annotation ℓ Text :=
  { a with
    ruleId := a.ruleId.paired
    title := a.title.paired
    message := a.message.paired
    recommendation := a.recommendation.paired }

namespace Outcome

variable {ℓ : Type} (o : Outcome ℓ Text)

/-- The outcome with the texts of its annotations paired. -/
def paired : Outcome ℓ Text := { o with annotations := o.annotations.map Annotation.paired }

theorem isWhole_paired : o.paired.IsWhole := by
  intro a ha
  obtain ⟨b, -, rfl⟩ := List.mem_map.mp ha
  exact ⟨Json.isWhole_paired _, Json.isWhole_paired _, Json.isWhole_paired _,
    Json.isWhole_paired _⟩

theorem severities_paired : o.paired.severities = o.severities := by
  simp [paired, severities, Annotation.paired]

theorem summary_paired : o.paired.summary = o.summary := by
  rw [summary, severities_paired, summary]

theorem passed_paired : o.paired.passed = o.passed := by
  rw [passed, exitCode, severities_paired, passed, exitCode]

end Outcome

namespace Report.Json

open TemplateAudit (Json)

theorem indentedChars_annotationObject_paired (level : Nat) (a : Annotation LineRef Text) :
    Json.indentedChars level (annotationObject a.paired) =
      Json.indentedChars level (annotationObject a) := by
  simp [annotationObject, Annotation.paired, Json.ofMembers, Json.indentedChars,
    Json.indentedMembers, Json.atomChars, Json.textChars_paired]

/-- Pairing the texts of an outcome makes no difference to the report. -/
theorem render_paired (path : String) (o : Outcome LineRef Text) :
    render path o.paired = render path o := by
  have hannotations : Json.indentedChars 1 (.list (o.paired.annotations.map annotationObject)) =
      Json.indentedChars 1 (.list (o.annotations.map annotationObject)) := by
    rw [Outcome.paired, List.map_map]
    exact Json.indentedChars_list_congr (indentedChars_annotationObject_paired 2) o.annotations
  have hdiagnostics : o.paired.diagnostics = o.diagnostics := rfl
  have htotal : o.paired.totalFindings = o.totalFindings := rfl
  rw [render, render, Json.indented, Json.indented, outcomeObject, outcomeObject,
    o.summary_paired, o.passed_paired, hdiagnostics, htotal]
  -- the members are opened one by one, so that the list of annotations stands as it is written
  simp only [Json.ofMembers, List.map_cons, List.map_nil, Json.indentedChars_object,
    Json.indentedMembers, Nat.zero_add, hannotations]

/-- The verdict that a report states. -/
def passed? (report : String) : Option Bool :=
  (Json.parse? report).bind fun j => (j.get? "passed").bind Json.bool?

theorem passed?_render (path : String) (o : Outcome LineRef Text) :
    passed? (render path o) = some o.passed := by
  rw [← render_paired, passed?, parse?_eq_outcomeObject o.isWhole_paired]
  simp [outcomeObject, Json.get?_ofMembers, Json.bool?, o.passed_paired]

end Report.Json

/-! ### The report for a build -/

namespace Report.Workflow

open TemplateAudit.Text (Point ofChars ofString)

/-- A line of the report is a command of this kind with properties, as only annotations have. -/
def Prints (path : Text) (o : Outcome LineRef Text) (kind : String) : Prop :=
  ∃ line ∈ (render path o).splitOn (.char '\n'), ofString ("::" ++ kind ++ " ") <+: line

section

variable {kind : String} (h : kind = "error" ∨ kind = "warning")

include h

theorem not_prefix_diagnosticCommand (d : Diagnostic) :
    ¬ ofString ("::" ++ kind ++ " ") <+: diagnosticCommand d := by
  rcases h with rfl | rfl <;> simp [diagnosticCommand, ofString, ofChars]

theorem prefix_annotationCommand_iff (path : Text) (a : Annotation LineRef Text) :
    ofString ("::" ++ kind ++ " ") <+: annotationCommand path a ↔ level a.severity = kind := by
  rcases h with rfl | rfl <;> cases hseverity : a.severity <;>
    simp [annotationCommand, level, ofString, ofChars, hseverity]

theorem prints_iff (path : Text) (o : Outcome LineRef Text) :
    Prints path o kind ↔ ∃ v ∈ o.severities, level v = kind := by
  have hlines : commands path o ≠ [] →
      (render path o).splitOn (.char '\n') = commands path o := by
    refine List.splitOn_intercalate _ fun t ht => ?_
    obtain ⟨c, hc, rfl⟩ := exists_command ht
    exact Command.not_mem_text hc (.inr rfl)
  have hcommands : Prints path o kind ↔
      ∃ line ∈ commands path o, ofString ("::" ++ kind ++ " ") <+: line := by
    by_cases hnone : commands path o = []
    · -- the one line of an empty report is empty
      simp [Prints, render, hnone, Text.join, ofString, ofChars]
    · rw [Prints, hlines hnone]
  rw [hcommands]
  simp [commands, Outcome.severities, or_and_right, exists_or, not_prefix_diagnosticCommand h,
    prefix_annotationCommand_iff h]

end

theorem level_eq_error_iff (v : Severity) : level v = "error" ↔ 1 < v.verdict := by
  cases v <;> decide

theorem level_eq_warning_iff (v : Severity) : level v = "warning" ↔ v.verdict = 1 := by
  cases v <;> decide

variable (path : Text) (o : Outcome LineRef Text)

theorem prints_error_iff : Prints path o "error" ↔ 1 < o.exitCode := by
  rw [prints_iff (.inl rfl), o.lt_exitCode_iff]
  simp only [level_eq_error_iff]

theorem exitCode_eq_one_iff :
    o.exitCode = 1 ↔ ¬ Prints path o "error" ∧ Prints path o "warning" := by
  have hpos := o.lt_exitCode_iff (n := 0)
  rw [prints_error_iff, prints_iff (.inr rfl)]
  simp only [level_eq_warning_iff]
  constructor
  · intro hone
    obtain ⟨v, hmem, hlt⟩ := hpos.mp (by omega)
    have hle : ¬ 1 < v.verdict := by
      intro hgrave
      have := o.lt_exitCode_iff.mpr ⟨v, hmem, hgrave⟩
      omega
    exact ⟨by omega, v, hmem, by omega⟩
  · intro ⟨hle, v, hmem, hv⟩
    have := hpos.mpr ⟨v, hmem, by omega⟩
    omega

end Report.Workflow

/-! ### All together -/

/-- The verdicts on an outcome agree, whatever its annotations and diagnostics are. The summary
counts the annotations of each severity, all of them once. The exit code is 2 if some are critical
or high, 1 if none are but some are medium, and 0 otherwise. A run passes, and the reports for
people and for programs say so, if the exit code is 0. The report for a build holds an error if it
is 2, and a warning but no error if it is 1. -/
theorem verdicts_agree (path : String) (file : Text) (o : Outcome LineRef Text) :
    let s := o.summary
    (∀ v, s.count v = o.severities.count v) ∧
    s.total = s.critical + s.high + s.medium + s.low + s.info ∧
    s.total = o.annotations.length ∧
    (o.exitCode = 2 ↔ 0 < s.critical + s.high) ∧
    (o.exitCode = 1 ↔ s.critical + s.high = 0 ∧ 0 < s.medium) ∧
    (o.exitCode = 0 ↔ s.critical + s.high = 0 ∧ s.medium = 0) ∧
    o.passed = decide (o.exitCode = 0) ∧
    Report.Text.status? (Report.Text.render path o) =
      some (Text.ofString (if o.exitCode = 0 then "PASS" else "FAIL")) ∧
    Report.Json.passed? (Report.Json.render path o) = some (decide (o.exitCode = 0)) ∧
    (Report.Workflow.Prints file o "error" ↔ o.exitCode = 2) ∧
    (o.exitCode = 1 ↔
      ¬ Report.Workflow.Prints file o "error" ∧ Report.Workflow.Prints file o "warning") := by
  intro s
  have htwo := o.exitCode_le_two
  have hgrave : 1 < o.exitCode ↔ 0 < s.critical + s.high := o.one_lt_exitCode_iff
  have hzero : o.exitCode = 0 ↔ s.critical + s.high = 0 ∧ s.medium = 0 := o.exitCode_eq_zero_iff
  have hpassed : o.passed = decide (o.exitCode = 0) := rfl
  refine ⟨o.count_summary, s.total_eq, o.total_summary, by omega, by omega, hzero, hpassed, ?_, ?_,
    ?_, Report.Workflow.exitCode_eq_one_iff file o⟩
  · rw [Report.Text.status?_render, hpassed, Report.Text.status]
    simp only [decide_eq_true_eq]
  · rw [Report.Json.passed?_render, hpassed]
  · rw [Report.Workflow.prints_error_iff]
    omega

end TemplateAudit
