import TemplateAudit.Document
import TemplateAudit.Proofs.KeyText

/-!
# TemplateAudit.Proofs.ErrorText

What the wording of an error repeats of the text that it is about.

Most of the words are fixed. An error repeats the names that it is about, an anchor or a handle for
instance, and it shows the line of its place, cut short on both sides, and mostly that of another
place as well. `Error.told` lists these parts, and `Error.quotes_message` says that there are no
others, as far as access keys go. Other faults repeat nothing (`TemplateFault.quotes_text`).
-/

namespace TemplateAudit

open TemplateAudit.Rules.AccessKey

namespace Yaml

/-! ### Parts of an error -/

/-- What is shown of one side of a place. -/
def shownSide (cs : List Char) : List Char := if 37 ≤ cs.length then cs.take 32 else cs

/-- What is shown of the line of a place. -/
def shownAround (text : List Char) (index : Nat) : List Char :=
  (shownSide ((text.take index).reverse.takeWhile (!isLineEnd ·))).reverse ++
    shownSide ((text.drop index).takeWhile (!isLineEnd ·))

/-- Where the activity of an error began, if that is another place than that of the problem. -/
def Error.begin? (e : Error) : Option Mark :=
  e.since.filter fun m => !(m.line == e.mark.line && m.column == e.mark.column)

/-- The name that the wording of an activity repeats. -/
def Activity.name? : Activity → Option String
  | .firstAnchor name => some name
  | _ => none

/-- The name that the wording of a problem repeats. -/
def Problem.name? : Problem → Option String
  | .expectedDocumentStart name => some name
  | .duplicateHandle name => some name
  | .undefinedHandle name => some name
  | .expectedContent name => some name
  | .expectedBlockEnd name => some name
  | .expectedCommaOrBracket name => some name
  | .expectedCommaOrBrace name => some name
  | .undefinedAlias name => some name
  | .unknownTag name => some name
  | .expectedMergeMapping name => some name
  | .expectedMergeMappings name => some name
  | .expectedScalarNode name => some name
  | .expectedSequenceNode name => some name
  | .expectedMappingNode name => some name
  | .expectedSequence name => some name
  | .expectedPair name => some name
  | _ => none

/-- What an error repeats: the names that it is about, and what is shown of the lines of its
places. -/
def Error.told (e : Error) (text : List Char) : List (List Char) :=
  (e.activity.bind Activity.name?).toList.map String.toList ++
    e.begin?.toList.map (fun m => shownAround text m.index) ++
    e.problem.name?.toList.map String.toList ++ [shownAround text e.mark.index]

/-! ### Words -/

/-- One character between quotes is no key. -/
theorem quotes_quotedChar (c : Char) : Quotes (quotedChar c).toList [] := by
  intro key hkey
  have hone : ¬ key <:+: [c] := hkey.not_infix_of_countP <|
    Nat.lt_of_le_of_lt List.countP_le_length (show 1 < keyLength by decide)
  rw [quotedChar, quotes_quoted _ key hkey]
  simp [hone]

theorem Activity.quotes_message (a : Activity) :
    Quotes a.message.toList (a.name?.toList.map String.toList) := by
  cases a with
  | firstAnchor name =>
      have hnamed : Quotes ("found duplicate anchor " ++ Text.quoted name).toList [name.toList] :=
        (quotes_quoted name).words_append (not_mem_ofList rfl)
      exact hnamed.append_words (divides_ofList rfl)
  | _ => exact .fixed rfl

theorem not_mem_utf8Message (e : Text.Utf8.Error) : 'A' ∉ (utf8Message e).toList := by
  have hfault : 'A' ∉ e.fault.message.toList := by
    cases e.fault <;> exact not_mem_ofList rfl
  unfold utf8Message
  split <;> simp [toString, not_mem_hexPadded, not_mem_toDigits, hfault]

theorem not_mem_asciiMessage (points : Text) (position : Nat) :
    'A' ∉ (asciiMessage points position).toList := by
  unfold asciiMessage
  split
  case h_1 p =>
      obtain ⟨ds, hcode, hds⟩ := exists_escapeCode p.code
      simp [toString, not_mem_toDigits, hcode, hds]
  case h_2 => simp [toString, not_mem_toDigits]

theorem not_mem_base64Message (dataChars : Nat) : 'A' ∉ (base64Message dataChars).toList := by
  unfold base64Message
  split <;> simp [toString, not_mem_toDigits]

theorem Problem.quotes_message (p : Problem) :
    Quotes p.message.toList (p.name?.toList.map String.toList) := by
  cases p
  case cannotStart c =>
      have hfound : Quotes ("found character " ++ quotedChar c).toList [] :=
        (quotes_quotedChar c).words_append (not_mem_ofList rfl)
      exact hfound.append_words (divides_ofList rfl)
  case expectedName c | expectedDigitOrPoint c | expectedDigit c | expectedDigitOrSpace c |
      expectedSpace c | expectedBang c | expectedUri c | expectedUriEnd c | expectedUriEscape c |
      expectedLineEnd c | expectedIndicators c | unknownEscape c =>
    exact (quotes_quotedChar c).words_append (not_mem_ofList rfl)
  case expectedHex places c =>
      refine (quotes_quotedChar c).words_append ?_
      simp [toString, not_mem_toDigits]
  case expectedDocumentStart name | duplicateHandle name | undefinedHandle name |
      expectedContent name | expectedBlockEnd name | expectedCommaOrBracket name |
      expectedCommaOrBrace name | undefinedAlias name | unknownTag name =>
    exact (quotes_quoted name).words_append (not_mem_ofList rfl)
  case expectedMergeMapping name | expectedMergeMappings name | expectedScalarNode name |
      expectedSequenceNode name | expectedMappingNode name | expectedSequence name |
      expectedPair name =>
    exact (Quotes.self name.toList).words_append (not_mem_ofList rfl)
  case uriNotUtf8 e => exact .of_not_mem (not_mem_utf8Message e)
  case expectedOneItem count =>
      have hcount : Quotes (toString count).toList [] :=
        .of_not_mem (by simp [toString, not_mem_toDigits])
      exact (hcount.words_append (not_mem_ofList rfl)).append_words (divides_ofList rfl)
  case notAscii points position =>
      exact .words_append (.of_not_mem (not_mem_asciiMessage points position)) (not_mem_ofList rfl)
  case notBase64 count =>
      exact .words_append (.of_not_mem (not_mem_base64Message count)) (not_mem_ofList rfl)
  all_goals exact .fixed rfl

/-! ### Places -/

theorem quotes_snippet (back ahead : List Char) :
    Quotes (snippet back ahead).toList [(shownSide back).reverse ++ shownSide ahead] := by
  have hside : ∀ cs : List Char,
      (if 37 ≤ cs.length then (cs.take 32, true) else (cs, false)) =
        (shownSide cs, decide (37 ≤ cs.length)) := by
    intro cs
    unfold shownSide
    split <;> simp [*]
  have hhead : ∀ cut : Bool, 'A' ∉ "    ".toList ++ (if cut then " ... " else "").toList := by
    decide
  unfold snippet
  simp only [hside, String.toList_append, String.toList_ofList]
  generalize 4 + _ + _ = column
  generalize decide (37 ≤ back.length) = cutBefore, decide (37 ≤ ahead.length) = cut
  have hline := (Quotes.self ((shownSide back).reverse ++ shownSide ahead)).after (hhead cutBefore)
  -- a blank or a line feed comes after the line, and then no letter
  have hfirst : ((if cut then " ... " else "").toList ++
      ("\n".toList ++ (List.replicate column ' ' ++ "^".toList))).head?.all isKeyChar = false := by
    cases cut <;> rfl
  have hrest : 'A' ∉ (if cut then " ... " else "").toList ++
      ("\n".toList ++ (List.replicate column ' ' ++ "^".toList)) := by
    cases cut <;> simp
  simpa only [List.append_assoc] using hline.followed hfirst hrest

theorem quotes_snippetAt (text : List Char) (index : Nat) :
    Quotes (snippetAt text index).toList [shownAround text index] :=
  quotes_snippet _ _

theorem quotes_place {name : String} (hname : 'A' ∉ name.toList) (text : List Char) (m : Mark) :
    Quotes (Source.place { name, text := some text } m).toList [shownAround text m.index] := by
  unfold Source.place
  simp only [String.toList_append]
  refine (quotes_snippetAt text m.index).after ?_
  simp [toString, hname, not_mem_toDigits]

/-- The lines of an error, each with what it repeats. -/
def Error.rows (e : Error) (name : String) (text : List Char) : List (String × List (List Char)) :=
  let place (m : Mark) := (Source.place { name, text := some text } m, [shownAround text m.index])
  e.activity.toList.map (fun a => (a.message, a.name?.toList.map String.toList)) ++
    e.begin?.toList.map place ++
    [(e.problem.message, e.problem.name?.toList.map String.toList), place e.mark]

theorem Error.message_eq (e : Error) (name : String) (text : List Char) :
    e.message { name, text := some text } = "\n".intercalate ((e.rows name text).map Prod.fst) := by
  unfold Error.message rows begin?
  cases e.activity <;> cases e.since with
  | none => rfl
  | some m =>
      simp only [Option.filter_some]
      split <;> simp [*]

theorem Error.flatMap_rows (e : Error) (name : String) (text : List Char) :
    (e.rows name text).flatMap Prod.snd = e.told text := by
  unfold rows told
  cases e.activity <;> cases e.begin? <;> simp

/-- The wording of an error holds the keys of what it repeats, and no others. -/
theorem Error.quotes_message (e : Error) {name : String} (hname : 'A' ∉ name.toList)
    (text : List Char) : Quotes (e.message { name, text := some text }).toList (e.told text) := by
  have hrows : ∀ row ∈ e.rows name text, Quotes row.1.toList row.2 := by
    intro row hrow
    simp only [rows, List.mem_append, List.mem_map, List.mem_cons, List.not_mem_nil, or_false]
      at hrow
    rcases hrow with (⟨a, -, rfl⟩ | ⟨m, -, rfl⟩) | rfl | rfl
    · exact a.quotes_message
    · exact quotes_place hname text m
    · exact e.problem.quotes_message
    · exact quotes_place hname text e.mark
  rw [message_eq, String.toList_intercalate, List.map_map, ← flatMap_rows]
  exact .intercalate (divides_ofList rfl) hrows

end Yaml

namespace Document

/-- What is told of a document that is no template. -/
def TemplateFault.told (text : List Char) : TemplateFault → List (List Char)
  | .unreadable (.marked e) => e.told text
  | _ => []

theorem not_mem_faultKind (fault : Yaml.Fault) : 'A' ∉ (faultKind fault).toList := by
  unfold faultKind
  split
  case h_3 | h_5 => split <;> exact not_mem_ofList rfl
  all_goals exact not_mem_ofList rfl

/-- Of all faults of a text only errors at a place repeat something of it. -/
theorem TemplateFault.quotes_text (fault : TemplateFault) (text : String) :
    Quotes (fault.failure text).text.toList (fault.told text.toList) := by
  cases fault with
  | rootNotMapping => exact .fixed rfl
  | unreadable fault =>
      cases fault with
      | marked e => exact e.quotes_message (not_mem_ofList rfl) text.toList
      | unacceptable code position =>
          refine .of_not_mem ?_
          unfold failure Yaml.Fault.message
          dsimp only
          simp [toString, not_mem_hexPadded, not_mem_toDigits]
      | undecodable => exact .fixed rfl
      | noCodePoint code =>
          have hwords : 'A' ∉ (if code < 0x80000000 then "chr() arg not in range(0x110000)"
              else "Python int too large to convert to C int").toList := by
            split <;> exact not_mem_ofList rfl
          exact .of_not_mem hwords
      | tooManyDigits count =>
          have hwords : 'A' ∉ (Number.tooLongMessage (some count)).toList := by
            unfold Number.tooLongMessage
            generalize Number.maxDigits = limit
            simp [toString, not_mem_toDigits]
          exact .of_not_mem hwords

theorem TemplateFault.quotes_failure (fault : TemplateFault) (text : String) :
    Quotes (fault.failure text).message.toList (fault.told text.toList) := by
  have hkind : 'A' ∉ (fault.failure text).kind.toList := by
    cases fault with
    | rootNotMapping => exact not_mem_ofList rfl
    | unreadable fault => exact not_mem_faultKind fault
  rw [Failure.message, String.toList_append]
  exact (fault.quotes_text text).after (by simp [hkind])

end Document

end TemplateAudit
