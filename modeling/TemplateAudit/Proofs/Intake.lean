import TemplateAudit.Command.Run
import TemplateAudit.Proofs.AccessKey
import TemplateAudit.Proofs.Annotate
import TemplateAudit.Proofs.Lines
import TemplateAudit.Proofs.Utf8

/-!
# TemplateAudit.Proofs.Intake

The ways in which a template comes in: as text, as octets, from a file and through standard input.

All of them end at the text without a byte-order mark, `Input.plainText`, so two ways agree as soon
as these texts do.

* The octets of a text and the text itself are the same document.
* A file is decoded first and then taken as a text, so a mark is looked for twice. It is annotated
  like its octets less one mark (`dropMark_ofOctets`), and that shows in a result exactly if there
  are two marks at its start (`ofOctets_dropMark_eq_iff`).
* Standard input has its breaks unified. That leaves all lines as they are
  (`splitLineChars_unifyBreaks`), though not the text.
-/

namespace TemplateAudit

open TemplateAudit.Files (Path Tree)

namespace Text

open TemplateAudit.Yaml.Cursor (endsLine)

/-! ### Marks -/

/-- A text that was decoded loses a second mark as if it were still octets. -/
theorem dropMark_ofOctets (bs : List UInt8) :
    dropMark (ofOctets bs) = ofOctets (Utf8.dropMarkOctets bs) := by
  rw [dropMark, ofOctets, String.toList_ofList, Utf8.dropMarkChars_decode, ofOctets]

/-- The octets of a text, decoded, are the text without its mark. -/
theorem ofOctets_encode (cs : List Char) :
    ofOctets (Utf8.encode cs) = String.ofList (dropMarkChars cs) := by
  rw [ofOctets, ← Utf8.dropMarkChars_decode, Utf8.decode_encode]

/-- A mark less makes a difference only if there is a second one. -/
theorem ofOctets_dropMark_eq_iff {bs : List UInt8} :
    ofOctets (Utf8.dropMarkOctets bs) = ofOctets bs ↔
      ¬ Utf8.markOctets ++ Utf8.markOctets <+: bs := by
  rw [ofOctets, ofOctets, String.ofList_inj]
  constructor
  · rintro heq ⟨rest, rfl⟩
    rw [List.append_assoc, Utf8.dropMarkOctets_mark, Utf8.dropMarkOctets_mark,
      Utf8.decode_mark] at heq
    exact absurd (congrArg List.length heq) (by simp)
  · intro htwo
    have hnot : ¬ Utf8.markOctets <+: Utf8.dropMarkOctets bs := by
      intro hsecond
      by_cases hfirst : Utf8.markOctets <+: bs
      · obtain ⟨rest, rfl⟩ := hfirst
        rw [Utf8.dropMarkOctets_mark] at hsecond
        exact htwo ((List.prefix_append_right_inj _).mpr hsecond)
      · rw [Utf8.dropMarkOctets_of_not hfirst] at hsecond
        exact hfirst hsecond
    rw [Utf8.dropMarkOctets_of_not hnot]

/-! ### Breaks -/

theorem endsLine_of_ne {c : Char} (hc : c ≠ '\r') (next : Option Char) :
    endsLine c next = isBreak c := by
  rw [Bool.eq_iff_iff, endsLine_iff]
  simp [hc]

/-- The lines of a text stay the same when its breaks are unified. -/
theorem splitLineChars_unifyBreaks (cs : List Char) :
    splitLineChars (unifyBreaks cs) = splitLineChars cs := by
  have hfeed : ∀ next, endsLine '\n' next = true := fun next => endsLine_of_ne (by decide) next
  fun_induction unifyBreaks cs with
  | case1 => rfl
  | case2 cs ih => rw [splitLineChars_of_endsLine (hfeed _), splitLineChars, ih]
  | case3 c cs hpair ih =>
      by_cases hc : c = '\r'
      · subst hc
        -- a lone carriage return: no line feed comes after it
        have hends : endsLine '\r' cs.head? = true := by
          refine endsLine_iff.mpr ⟨rfl, ?_⟩
          rintro ⟨-, hhead⟩
          obtain ⟨rest, hrest⟩ := List.head?_eq_some_iff.mp hhead
          exact hpair rest rfl hrest
        rw [splitLineChars_of_endsLine hends, ← ih]
        exact splitLineChars_of_endsLine (hfeed _)
      · have hsame : (if (c == '\r') = true then '\n' else c) = c := if_neg (by simpa using hc)
        rw [hsame, splitLineChars_cons, splitLineChars_cons, ih, endsLine_of_ne hc,
          endsLine_of_ne hc]

theorem not_mem_unifyBreaks (cs : List Char) : '\r' ∉ unifyBreaks cs := by
  fun_induction unifyBreaks cs with
  | case1 => simp
  | case2 cs ih => simp [ih]
  | case3 c cs hpair ih =>
      by_cases hc : c = '\r'
      · simp [hc, ih]
      · simp [hc, ih, Ne.symm hc]

/-- Unifying breaks neither makes nor moves a mark. -/
theorem dropMarkChars_unifyBreaks (cs : List Char) :
    dropMarkChars (unifyBreaks cs) = unifyBreaks (dropMarkChars cs) := by
  have hfeed : '\n' ≠ Utf8.byteOrderMark := by decide
  fun_cases unifyBreaks cs with
  | case1 => rfl
  | case2 cs =>
      have hreturn : '\r' ≠ Utf8.byteOrderMark := by decide
      simp [dropMarkChars, hfeed, hreturn, unifyBreaks]
  | case3 c cs hpair =>
      by_cases hc : c = Utf8.byteOrderMark
      · subst hc
        rfl
      · have hhead : (if (c == '\r') = true then '\n' else c) ≠ Utf8.byteOrderMark := by
          split
          case isTrue => exact hfeed
          case isFalse => exact hc
        rw [Utf8.dropMarkChars_of_ne hhead, Utf8.dropMarkChars_of_ne hc,
          unifyBreaks.eq_3 c cs hpair]

end Text

/-! ### Octets -/

/-- The octets of a text, with or without marks in front, are the same document as the text. -/
theorem document_toUTF8 (text : String) (token : Text) :
    (Input.octets text.toUTF8.data.toList).document token = (Input.text text).document token := by
  have hplain : Text.ofOctets text.toUTF8.data.toList = Text.dropMark text := by
    rw [Text.Utf8.octets_toUTF8, Text.ofOctets_encode, Text.dropMark]
  rw [Input.document_eq, Input.document_eq, Input.plainText, Input.plainText, hplain]

/-! ### Files -/

/-- A template in a file is its octets, decoded. -/
theorem templateText_of_look {files : Tree} {path : String} {bs : List UInt8}
    (h : files.look (.ofText path) = .ok (some (.file bs))) :
    templateText files path = .ok (Text.ofOctets bs) := by
  have hthere : files.hasFile (.ofText path) = .ok true := by
    rw [Tree.hasFile, h]
    rfl
  have hread : files.readIfThere (.ofText path) = .ok (some bs) := by
    rw [Tree.readIfThere, h]
    rfl
  simp only [templateText, hthere, fileText, hread]
  rfl

/-- Documents of the same text are annotated alike. -/
theorem annotate_congr {input input' : Input} (h : input.plainText = input'.plainText)
    (source : CatalogSource) (s : Settings) (clock : Clock) :
    annotate source s input clock = annotate source s input' clock := by
  have hdocument : input.document s.token = input'.document s.token := by
    rw [Input.document_eq, Input.document_eq, h]
  simp only [annotate, annotateWith, hdocument]

/-- A rule that fails and says what the text is. -/
def echoing : Rule :=
  { id := "echo", title := none, importance := .info, recommendation := none,
    evaluate := fun d => .items [] (some { kind := "ValueError", text := d.text }) }

theorem annotate_echoing (input : Input) (clock : Clock) :
    ∃ run, annotate (.ready (.ofRules [echoing])) .default input clock = .ok run ∧
      run.outcome.diagnostics =
        [{ kind := "rule_error", message := "ValueError" ++ ": " ++ input.plainText,
           ruleId := some "echo" }] := by
  have htext : (input.document Settings.default.token).text = input.plainText := by
    rw [Input.document_eq]
    rfl
  rw [← htext]
  exact ⟨_, rfl, rfl⟩

theorem annotateFile_of_look {files : Tree} {path : String} {bs : List UInt8}
    (h : files.look (.ofText path) = .ok (some (.file bs))) (source : CatalogSource) (s : Settings)
    (clock : Clock) :
    annotateFile files path source s clock =
      (annotate source s (.text (Text.ofOctets bs)) clock).mapError .misattributed := by
  unfold annotateFile
  rw [templateText_of_look h]
  dsimp only
  generalize annotate source s (.text (Text.ofOctets bs)) clock = result
  cases result <;> rfl

/-- Octets annotated, with the faults of a file. -/
def annotateOctets (bs : List UInt8) (source : CatalogSource) (s : Settings) (clock : Clock) :
    Except AnnotateFault Annotated :=
  (annotate source s (.octets bs) clock).mapError .misattributed

/-- Octets that come to the same under a rule that tells the text are the same text. -/
theorem ofOctets_of_annotateOctets {bs bs' : List UInt8}
    (h : annotateOctets bs = annotateOctets bs') : Text.ofOctets bs = Text.ofOctets bs' := by
  let clock : Clock := fun _ => .whole 0
  obtain ⟨run, hrun, hdiagnostics⟩ := annotate_echoing (.octets bs) clock
  obtain ⟨run', hrun', hdiagnostics'⟩ := annotate_echoing (.octets bs') clock
  have heq := congrFun (congrFun (congrFun h (.ready (.ofRules [echoing]))) .default) clock
  rw [annotateOctets, annotateOctets, hrun, hrun'] at heq
  obtain rfl : run = run' := Except.ok.inj heq
  have hmessage := hdiagnostics.symm.trans hdiagnostics'
  simpa [Input.plainText] using hmessage

/-- A file is annotated like its octets less one mark: a mark is taken off when they are decoded,
and another one off the text. So the file and its octets come to the same under all rules and
settings, or even to the same document, exactly if there are no two marks at the start. -/
theorem annotateFile_eq_iff {files : Tree} {path : String} {bs : List UInt8}
    (h : files.look (.ofText path) = .ok (some (.file bs))) :
    annotateFile files path = annotateOctets (Text.Utf8.dropMarkOctets bs) ∧
    (annotateFile files path = annotateOctets bs ↔
      ¬ Text.Utf8.markOctets ++ Text.Utf8.markOctets <+: bs) ∧
    ∀ token, (Input.text (Text.ofOctets bs)).document token = (Input.octets bs).document token ↔
      ¬ Text.Utf8.markOctets ++ Text.Utf8.markOctets <+: bs := by
  have hplain : (Input.text (Text.ofOctets bs)).plainText =
      (Input.octets (Text.Utf8.dropMarkOctets bs)).plainText := Text.dropMark_ofOctets bs
  have hfile : annotateFile files path = annotateOctets (Text.Utf8.dropMarkOctets bs) := by
    funext source s clock
    rw [annotateFile_of_look h, annotate_congr hplain, annotateOctets]
  refine ⟨hfile, ?_, fun token => ?_⟩
  · rw [hfile, ← Text.ofOctets_dropMark_eq_iff]
    refine ⟨ofOctets_of_annotateOctets, fun htext => ?_⟩
    funext source s clock
    have hsame : (Input.octets (Text.Utf8.dropMarkOctets bs)).plainText =
        (Input.octets bs).plainText := htext
    rw [annotateOctets, annotateOctets, annotate_congr hsame]
  · rw [← Text.ofOctets_dropMark_eq_iff, Input.document_eq, Input.document_eq, hplain]
    exact ⟨fun hdocument => congrArg Document.text hdocument,
      fun htext => congrArg (Document.ofPlainText · token) htext⟩

/-- A file with a mark, an octet that starts no character, and a letter. -/
def onceMarked : Tree :=
  { entries := [({ base := .above 0, names := ["t.yaml"] },
      .file (Text.Utf8.markOctets ++ [0xFF, 0x41]))] }

theorem annotateFile_eq_iff_onceMarked :
    onceMarked.look (.ofText "t.yaml") =
        .ok (some (.file (Text.Utf8.markOctets ++ [0xFF, 0x41]))) ∧
      annotateFile onceMarked "t.yaml" = annotateOctets (Text.Utf8.markOctets ++ [0xFF, 0x41]) := by
  have hlook : onceMarked.look (.ofText "t.yaml") =
      .ok (some (.file (Text.Utf8.markOctets ++ [0xFF, 0x41]))) := rfl
  exact ⟨hlook, (annotateFile_eq_iff hlook).2.1.mpr (by decide)⟩

/-- A directive behind two marks. -/
def twiceMarked : String := "\uFEFF\uFEFF# guardrails:ignore-next-line\nx"

/-- The directive and the line that it is about, in a file. -/
def twiceMarkedFile : Tree :=
  { entries := [({ base := .above 0, names := ["t.yaml"] },
      .file (Text.Utf8.encode twiceMarked.toList))] }

/-- A rule that finds something on the second line. -/
def onSecond : Catalog :=
  .ofRules [
    { id := "r", title := none, importance := .info, recommendation := none,
      evaluate := fun _ =>
        .items [.finding (.ofString "r") (.int 2) (.int 2) (.ofString "m")] none }]

theorem annotate_onSecond (input : Input) (clock : Clock) :
    ∃ run, annotate (.ready onSecond) .default input clock = .ok run ∧
      run.outcome.totalFindings =
        ((onSecond.enabled .default).found .default input clock).length := by
  have hnames : onSecond.NamesByText (input.document Settings.default.token) := by
    intro r hr f hf
    obtain rfl := List.mem_singleton.mp hr
    obtain rfl := List.mem_singleton.mp hf
    exact ⟨_, rfl⟩
  have hkeys : ∀ a ∈ (onSecond.enabled .default).found .default input clock,
      a.finding.ruleId.isKey = true :=
    fun a ha => (hasTextId_of_mem_found (hnames.enabled .default) ha).isKey
  obtain ⟨log, hrun⟩ := annotateWith_eq_ok hkeys
  exact ⟨_, hrun, rfl⟩

/-- The directive is one for the file, and for the octets of the file it is none. -/
theorem annotateFile_twiceMarked :
    ∃ run run',
      annotateFile twiceMarkedFile "t.yaml" (.ready onSecond) .default (fun _ => .whole 0) =
        .ok run ∧
      annotateOctets (Text.Utf8.encode twiceMarked.toList) (.ready onSecond) .default
        (fun _ => .whole 0) = .ok run' ∧
      run.outcome.totalFindings = 0 ∧ run'.outcome.totalFindings = 1 := by
  let once : String := "\uFEFF# guardrails:ignore-next-line\nx"
  obtain ⟨run, hrun, htotal⟩ := annotate_onSecond (.text once) fun _ => .whole 0
  obtain ⟨run', hrun', htotal'⟩ := annotate_onSecond (.text twiceMarked) fun _ => .whole 0
  refine ⟨run, run', ?_, ?_, htotal.trans (by decide +kernel), htotal'.trans (by decide +kernel)⟩
  · have hlook : twiceMarkedFile.look (.ofText "t.yaml") =
        .ok (some (.file (Text.Utf8.encode twiceMarked.toList))) := rfl
    have htext : Text.ofOctets (Text.Utf8.encode twiceMarked.toList) = once := by
      rw [Text.ofOctets_encode]
      decide
    rw [annotateFile_of_look hlook, htext, hrun]
    rfl
  · have hplain : (Input.octets (Text.Utf8.encode twiceMarked.toList)).plainText =
        (Input.text twiceMarked).plainText := Text.ofOctets_encode _
    rw [annotateOctets, annotate_congr hplain, hrun']
    rfl

/-! ### Standard input -/

theorem Input.lines_document (input : Input) (token : Text) :
    (input.document token).lines = numberFrom 1 input.lines := by
  rw [Input.document_eq]
  rfl

theorem Input.suppressed_document (input : Input) (token : Text) :
    (input.document token).suppressed = silencedLines token (input.document token).lines := by
  rw [Input.document_eq]
  rfl

theorem lines_unifyBreaks (text : String) :
    (Input.text (String.ofList (Text.unifyBreaks text.toList))).lines =
      (Input.text text).lines := by
  simp only [Input.lines, Input.plainText, Text.dropMark, Text.splitLines, String.toList_ofList,
    Text.dropMarkChars_unifyBreaks, Text.splitLineChars_unifyBreaks]

/-- What standard input does to a text leaves its lines alone. A text that is piped in arrives with
a line feed for each carriage return and for each pair of the two, so none is left. Yet it has the
same lines under the same numbers, the same of them are silenced, and the rule about access keys
yields the same. -/
theorem stdin_keeps_lines (text : String) (token : Text) (w : Command.World) :
    ∃ piped : String,
      Command.inputFor { w with stdin := text.toUTF8.data.toList } Command.stdinMark = .ok piped ∧
      piped.toList = Text.unifyBreaks text.toList ∧ '\r' ∉ piped.toList ∧
      let d := (Input.text text).document token
      let d' := (Input.text piped).document token
      d'.lines = d.lines ∧ d'.suppressed = d.suppressed ∧
        Rules.AccessKey.rule.evaluate d' = Rules.AccessKey.rule.evaluate d := by
  refine ⟨String.ofList (Text.unifyBreaks text.toList), ?_, String.toList_ofList, ?_, ?_⟩
  · rw [Text.Utf8.octets_toUTF8]
    simp only [Command.inputFor, Text.Utf8.decodeStrict_encode]
    rfl
  · rw [String.toList_ofList]
    exact Text.not_mem_unifyBreaks _
  · intro d d'
    -- silenced lines and access keys are read off the numbered lines and nothing else
    have hlines : d'.lines = d.lines := by
      rw [Input.lines_document, Input.lines_document, lines_unifyBreaks]
    have hsuppressed : d'.suppressed = d.suppressed := by
      rw [Input.suppressed_document, Input.suppressed_document, hlines]
    have hsearch : Rules.AccessKey.search d' = Rules.AccessKey.search d := by
      rw [Rules.AccessKey.search_eq, Rules.AccessKey.search_eq, hlines]
    exact ⟨hlines, hsuppressed, congrArg (Evaluation.ofSearch ∘ .ok) hsearch⟩

end TemplateAudit
