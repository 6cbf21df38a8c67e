import Mathlib.Data.List.Basic
import Mathlib.Tactic.Tauto
import TemplateAudit.Proofs.Text
import TemplateAudit.Report.Workflow
import TemplateAudit.Text.Digit

/-!
# TemplateAudit.Proofs.Workflow

Workflow commands can be read back: no text that is put into a report ends a line or a field of it.

A command is a name, properties and data, written `::name key=value,key=value::data`.
`Command.read?` reads it without knowing what was written. It cuts at the first blank, colon, comma
and equals sign where one is due, so it works as long as these come from the writer alone, and that
is what escaping sees to:

* `unescape` undoes both ways of escaping (`unescape_escape`, `unescape_escapeProperty`);
* an escaped text has no break, and an escaped property no comma and no colon either
  (`not_mem_escape`, `not_mem_escapeProperty`);
* escaping comes to the same as replacing one character after the other, the percent sign first
  (`escape_eq_replaced`, `escapeProperty_eq_replaced`).

`Command.read?_text` puts this together for commands of any name and any properties, and the
commands of a report are such commands.
-/

namespace TemplateAudit.Report.Workflow

open TemplateAudit.Text (Point chars_ofString hexDigit? mem_ofString ofChars ofString)

/-! ### Escaping -/

/-- The character whose code is written with two digits. -/
def coded? (a b : Char) : Option Char := do
  let high ← hexDigit? a
  let low ← hexDigit? b
  return Char.ofNat (16 * high + low)

/-- A text in which a percent sign and two digits stand for a character. -/
def unescape : Text → Text
  | .char '%' :: .char a :: .char b :: t =>
    match coded? a b with
    | some c => .char c :: unescape t
    | none => .char '%' :: unescape (.char a :: .char b :: t)
  | p :: t => p :: unescape t
  | [] => []

theorem unescape_cons {p : Point} (h : p ≠ .char '%') (t : Text) :
    unescape (p :: t) = p :: unescape t := by
  rw [unescape]
  rintro a b u rfl
  exact absurd rfl h

theorem unescape_escapeChar (c : Char) (t : Text) :
    unescape (ofChars (escapeChar c) ++ t) = .char c :: unescape t := by
  unfold escapeChar
  split
  · rfl
  · rfl
  · rfl
  case _ hpercent _ _ => exact unescape_cons (by simpa using hpercent) t

theorem unescape_escapePropertyChar (c : Char) (t : Text) :
    unescape (ofChars (escapePropertyChar c) ++ t) = .char c :: unescape t := by
  unfold escapePropertyChar
  split
  · rfl
  · rfl
  · exact unescape_escapeChar c t

/-- What is undone for each character is undone for a text. -/
theorem unescape_flatMap {write : Char → List Char}
    (h : ∀ c t, unescape (ofChars (write c) ++ t) = .char c :: unescape t) (t : Text) :
    unescape (t.flatMap (escapePoint write)) = t := by
  induction t with
  | nil => rfl
  | cons p t ih =>
      rw [List.flatMap_cons]
      cases p with
      | char c => rw [escapePoint, h, ih]
      | surrogate offset =>
          rw [escapePoint, List.singleton_append, unescape_cons (by simp), ih]
          simp

@[simp] theorem unescape_escape (t : Text) : unescape (escape t) = t :=
  unescape_flatMap unescape_escapeChar t

@[simp] theorem unescape_escapeProperty (t : Text) : unescape (escapeProperty t) = t :=
  unescape_flatMap unescape_escapePropertyChar t

/-- A character that is never written for another one, nor for itself, is in no escaped text. -/
theorem not_mem_flatMap {write : Char → List Char} {d : Char} (h : ∀ c, d ∉ write c) (t : Text) :
    Point.char d ∉ t.flatMap (escapePoint write) := by
  intro hmem
  obtain ⟨p, -, hp⟩ := List.mem_flatMap.mp hmem
  cases p with
  | char c =>
      obtain ⟨e, he, heq⟩ := List.mem_map.mp hp
      obtain rfl := Point.char.inj heq
      exact h c he
  | surrogate offset => simp [escapePoint] at hp

/-- The characters of codes. -/
def codeChars : List Char := "%0123456789ABCDEF".toList

theorem mem_codeChars {code : List Char} (h : code.all codeChars.contains = true) {d : Char}
    (hd : d ∈ code) : d ∈ codeChars := by
  simpa using List.all_eq_true.mp h d hd

/-- What is written for a character is a code, or the character if that ends no line. -/
theorem mem_escapeChar {c d : Char} (h : d ∈ escapeChar c) :
    d ∈ codeChars ∨ d = c ∧ c ≠ '\r' ∧ c ≠ '\n' := by
  unfold escapeChar at h
  split at h
  case h_4 _ hreturn hfeed => exact Or.inr ⟨List.mem_singleton.mp h, hreturn, hfeed⟩
  all_goals exact Or.inl (mem_codeChars (by decide) h)

theorem mem_escapePropertyChar {c d : Char} (h : d ∈ escapePropertyChar c) :
    d ∈ codeChars ∨ d = c ∧ c ≠ '\r' ∧ c ≠ '\n' ∧ c ≠ ':' ∧ c ≠ ',' := by
  unfold escapePropertyChar at h
  split at h
  case h_3 hcolon hcomma =>
      rcases mem_escapeChar h with hcode | ⟨rfl, hreturn, hfeed⟩
      · exact Or.inl hcode
      · exact Or.inr ⟨rfl, hreturn, hfeed, hcolon, hcomma⟩
  all_goals exact Or.inl (mem_codeChars (by decide) h)

theorem not_mem_escape {d : Char} (h : d = '\r' ∨ d = '\n') (t : Text) :
    Point.char d ∉ escape t := by
  refine not_mem_flatMap (fun c hd => ?_) t
  rcases mem_escapeChar hd with hcode | ⟨rfl, hne⟩
  · rcases h with rfl | rfl <;> revert hcode <;> decide
  · tauto

theorem not_mem_escapeProperty {d : Char} (h : d = '\r' ∨ d = '\n' ∨ d = ':' ∨ d = ',')
    (t : Text) : Point.char d ∉ escapeProperty t := by
  refine not_mem_flatMap (fun c hd => ?_) t
  rcases mem_escapePropertyChar hd with hcode | ⟨rfl, hne⟩
  · rcases h with rfl | rfl | rfl | rfl <;> revert hcode <;> decide
  · tauto

/-! ### Replacing one character after the other -/

/-- A text with a code in the place of a character, wherever that stands. -/
def replaced (d : Char) (code : String) (t : Text) : Text :=
  t.flatMap fun p => if p = .char d then ofString code else [p]

/-- Replacing in what was written for each point is replacing in all of it. -/
theorem replaced_flatMap (d : Char) (code : String) (write : Point → Text) (t : Text) :
    replaced d code (t.flatMap write) = t.flatMap fun p => replaced d code (write p) :=
  List.flatMap_assoc

theorem replaced_of_ne {c d : Char} (h : c ≠ d) (code : String) :
    replaced d code [.char c] = [.char c] := by
  simp [replaced, h]

/-- Escaping is replacing one character after the other, the percent sign first: the codes of the
others start with one. -/
theorem escape_eq_replaced (t : Text) :
    escape t = replaced '\n' "%0A" (replaced '\r' "%0D" (replaced '%' "%25" t)) := by
  have hpoint : ∀ p, escapePoint escapeChar p =
      replaced '\n' "%0A" (replaced '\r' "%0D" (replaced '%' "%25" [p])) := by
    intro p
    cases p with
    | surrogate offset => rfl
    | char c =>
        rw [escapePoint]
        unfold escapeChar
        split
        · rfl
        · rfl
        · rfl
        case h_4 hpercent hreturn hfeed =>
            rw [replaced_of_ne hpercent, replaced_of_ne hreturn, replaced_of_ne hfeed]
            rfl
  rw [escape, funext hpoint, ← replaced_flatMap, ← replaced_flatMap, ← replaced_flatMap,
    List.flatMap_singleton']

/-- In properties, the colon and the comma follow. -/
theorem escapeProperty_eq_replaced (t : Text) :
    escapeProperty t = replaced ',' "%2C" (replaced ':' "%3A" (escape t)) := by
  have hpoint : ∀ p, escapePoint escapePropertyChar p =
      replaced ',' "%2C" (replaced ':' "%3A" (escapePoint escapeChar p)) := by
    intro p
    cases p with
    | surrogate offset => rfl
    | char c =>
        rw [escapePoint, escapePoint]
        unfold escapePropertyChar
        split
        · rfl
        · rfl
        case h_3 hcolon hcomma =>
            unfold escapeChar
            split
            · rfl
            · rfl
            · rfl
            · show _ = replaced ',' "%2C" (replaced ':' "%3A" [.char c])
              rw [replaced_of_ne hcolon, replaced_of_ne hcomma]
              rfl
  rw [escapeProperty, escape, funext hpoint, ← replaced_flatMap, ← replaced_flatMap]

-- With the percent sign last, the codes themselves would be escaped.
example : replaced '%' "%25" (replaced '\r' "%0D" "\r") = ofString "%250D" := by decide

/-! ### Cutting -/

/-- What comes before the first of a character in a text, and what comes after it. -/
def cutAt (d : Char) : Text → Option (Text × Text)
  | [] => none
  | p :: t => if p = .char d then some ([], t) else (cutAt d t).map fun (u, v) => (p :: u, v)

theorem cutAt_append {d : Char} {before : Text} (h : Point.char d ∉ before) (after : Text) :
    cutAt d (before ++ .char d :: after) = some (before, after) := by
  induction before with
  | nil => simp [cutAt]
  | cons p t ih =>
      rw [List.mem_cons, not_or] at h
      simp [cutAt, Ne.symm h.1, ih h.2]

theorem cutAt_eq_none {d : Char} {t : Text} (h : Point.char d ∉ t) : cutAt d t = none := by
  induction t with
  | nil => rfl
  | cons p t ih =>
      rw [List.mem_cons, not_or] at h
      simp [cutAt, Ne.symm h.1, ih h.2]

theorem not_mem_join {p : Point} {between : Text} {ts : List Text} (hbetween : p ∉ between)
    (h : ∀ t ∈ ts, p ∉ t) : p ∉ Text.join between ts := by
  induction ts with
  | nil => exact List.not_mem_nil
  | cons t ts ih =>
      rw [List.forall_mem_cons] at h
      cases ts with
      | nil =>
          rw [Text.join, List.intercalate_singleton]
          exact h.1
      | cons u ts =>
          rw [Text.join, List.intercalate_cons_cons, List.mem_append, List.mem_append, not_or,
            not_or]
          exact ⟨⟨h.1, hbetween⟩, ih h.2⟩

/-! ### Commands -/

/-- A workflow command. -/
structure Command where
  name : Text
  /-- The properties, each with its key. -/
  properties : List (Text × Text)
  data : Text

namespace Command

/-- A property and its key, as they are written. -/
def propertyText (property : Text × Text) : Text :=
  property.1 ++ .char '=' :: escapeProperty property.2

/-- What is written between the two pairs of colons. -/
def header (c : Command) : Text :=
  if c.properties.isEmpty then c.name
  else c.name ++ .char ' ' :: Text.join "," (c.properties.map propertyText)

/-- A command, as it is written. -/
def text (c : Command) : Text := "::" ++ c.header ++ "::" ++ escape c.data

/-- Reads a property and its key. -/
def readProperty? (t : Text) : Option (Text × Text) := do
  let (key, value) ← cutAt '=' t
  return (key, unescape value)

/-- Reads what stands between the two pairs of colons. -/
def readHeader? (t : Text) : Option (Text × List (Text × Text)) :=
  match cutAt ' ' t with
  | none => some (t, [])
  | some (name, rest) => do
    let properties ← (rest.splitOn (.char ',')).mapM readProperty?
    return (name, properties)

/-- Reads a command. -/
def read? : Text → Option Command
  | .char ':' :: .char ':' :: t => do
    let (header, rest) ← cutAt ':' t
    match rest with
    | .char ':' :: data => do
      let (name, properties) ← readHeader? header
      return { name, properties, data := unescape data }
    | _ => none
  | _ => none

/-- The characters that mean something to a reader of commands. -/
def isMark (d : Char) : Bool := [' ', ':', ',', '=', '%', '\r', '\n'].contains d

/-- A text that means nothing but itself. -/
def IsWord (t : Text) : Prop := ∀ d, isMark d = true → Point.char d ∉ t

/-- Names and keys are words; there is no condition on values and data. -/
structure WellFormed (c : Command) : Prop where
  name : IsWord c.name
  keys : ∀ property ∈ c.properties, IsWord property.1

theorem readProperty?_propertyText {property : Text × Text} (h : IsWord property.1) :
    readProperty? (propertyText property) = some property := by
  rw [readProperty?, propertyText, cutAt_append (h '=' rfl)]
  simp

theorem not_mem_propertyText {d : Char} (h : d = '\r' ∨ d = '\n' ∨ d = ':' ∨ d = ',')
    {property : Text × Text} (hkey : IsWord property.1) :
    Point.char d ∉ propertyText property := by
  have hvalue := not_mem_escapeProperty h property.2
  have hmark : isMark d = true ∧ d ≠ '=' := by
    rcases h with rfl | rfl | rfl | rfl <;> decide
  simp [propertyText, hkey d hmark.1, hvalue, hmark.2]

variable {c : Command}

theorem readHeader?_header (h : c.WellFormed) :
    readHeader? c.header = some (c.name, c.properties) := by
  unfold header
  split
  case isTrue hempty =>
      rw [List.isEmpty_iff] at hempty
      rw [readHeader?, cutAt_eq_none (h.name ' ' rfl), hempty]
  case isFalse hsome =>
      rw [List.isEmpty_iff] at hsome
      have hcomma : ∀ t ∈ c.properties.map propertyText, Point.char ',' ∉ t := by
        intro t ht
        obtain ⟨property, hmem, rfl⟩ := List.mem_map.mp ht
        exact not_mem_propertyText (by simp) (h.keys property hmem)
      have hsplit : (Text.join "," (c.properties.map propertyText)).splitOn (.char ',') =
          c.properties.map propertyText :=
        List.splitOn_intercalate _ hcomma (by simpa using hsome)
      have hread : (c.properties.map propertyText).mapM readProperty? = some c.properties := by
        have hall := mapM_map_eq_some fun property hmem =>
          readProperty?_propertyText (h.keys property hmem)
        rwa [List.map_id'] at hall
      rw [readHeader?, cutAt_append (h.name ' ' rfl)]
      simp only [hsplit, hread]
      rfl

/-- Nothing in a header ends it, or the line. -/
theorem not_mem_header (h : c.WellFormed) {d : Char} (hd : d = '\r' ∨ d = '\n' ∨ d = ':') :
    Point.char d ∉ c.header := by
  have hmark : isMark d = true ∧ d ≠ ' ' ∧ d ≠ ',' := by
    rcases hd with rfl | rfl | rfl <;> decide
  have hname := h.name d hmark.1
  unfold header
  split
  case isTrue => exact hname
  case isFalse =>
      have hjoin : Point.char d ∉ Text.join "," (c.properties.map propertyText) := by
        refine not_mem_join (by simpa [ofString, ofChars] using hmark.2.2) fun t ht => ?_
        obtain ⟨property, hmem, rfl⟩ := List.mem_map.mp ht
        exact not_mem_propertyText (by tauto) (h.keys property hmem)
      simp [hname, hjoin, hmark.2.1]

/-- A command is read as it was written, whatever its values and its data are. -/
theorem read?_text (h : c.WellFormed) : read? c.text = some c := by
  have htext : c.text = .char ':' :: .char ':' ::
      (c.header ++ .char ':' :: .char ':' :: escape c.data) := by
    simp [text, ofString, ofChars]
  have hcut := cutAt_append (not_mem_header h (d := ':') (by simp)) (.char ':' :: escape c.data)
  simp [htext, read?, hcut, readHeader?_header h]

/-- A command is on one line. -/
theorem not_mem_text (h : c.WellFormed) {d : Char} (hd : d = '\r' ∨ d = '\n') :
    Point.char d ∉ c.text := by
  have hheader : Point.char d ∉ c.header := not_mem_header h (by tauto)
  have hdata := not_mem_escape hd c.data
  have hcolon : d ≠ ':' := by rcases hd with rfl | rfl <;> decide
  simp [text, ofString, ofChars, hheader, hdata, hcolon]

theorem escapePropertyChar_of_not_isMark {d : Char} (h : isMark d = false) :
    escapePropertyChar d = [d] := by
  unfold escapePropertyChar escapeChar
  repeat' split
  all_goals first | rfl | cases h

theorem escapeProperty_of_isWord {t : Text} (h : IsWord t) : escapeProperty t = t := by
  have hpoint : ∀ p ∈ t, escapePoint escapePropertyChar p = [p] := by
    intro p hp
    cases p with
    | surrogate offset => rfl
    | char d =>
        have hplain : isMark d = false := Bool.eq_false_iff.mpr fun hmark => h d hmark hp
        rw [escapePoint, escapePropertyChar_of_not_isMark hplain]
        rfl
  rw [escapeProperty, List.flatMap_congr hpoint, List.flatMap_singleton']

end Command

/-! ### Line numbers -/

/-- Reads a decimal, which may have a minus sign. -/
def readInt : List Char → Int
  | '-' :: digits => -(Nat.ofDigitChars 10 digits 0 : Int)
  | digits => Nat.ofDigitChars 10 digits 0

/-- Reads what is written for a line. -/
def readLine (t : Text) : LineRef :=
  if t = "True" then .flag true
  else if t = "False" then .flag false
  else .number (readInt t.chars)

theorem toList_toString_int (n : Int) :
    (toString n).toList =
      if 0 ≤ n then Nat.toDigits 10 n.toNat else '-' :: Nat.toDigits 10 (-n).toNat := by
  rw [Int.toString_eq_repr, Int.repr_eq_if]
  split
  case isTrue => exact Nat.toList_repr
  case isFalse => rw [String.toList_append, Nat.toList_repr]; rfl

/-- The characters of decimals. -/
theorem mem_toString_int {n : Int} {c : Char} (h : c ∈ (toString n).toList) :
    c = '-' ∨ c.isDigit = true := by
  have hdigit : ∀ {m : Nat}, c ∈ Nat.toDigits 10 m → c.isDigit = true :=
    fun hc => Nat.isDigit_of_mem_toDigits (by decide) (by decide) hc
  rw [toList_toString_int] at h
  split at h
  case isTrue => exact Or.inr (hdigit h)
  case isFalse => exact (List.mem_cons.mp h).imp_right hdigit

theorem readInt_toString (n : Int) : readInt (toString n).toList = n := by
  rw [toList_toString_int]
  split
  case isTrue hn =>
      have hdigits : readInt (Nat.toDigits 10 n.toNat) = n.toNat := by
        rw [readInt, Nat.ofDigitChars_ten_toDigits]
        intro digits heq
        have hminus : '-' ∈ Nat.toDigits 10 n.toNat := by simp [heq]
        exact absurd (Nat.isDigit_of_mem_toDigits (by decide) (by decide) hminus) (by decide)
      rw [hdigits, Int.toNat_of_nonneg hn]
  case isFalse hn =>
      rw [readInt, Nat.ofDigitChars_ten_toDigits]
      omega

/-- What is written for a line means nothing to a reader of commands. -/
theorem isWord_line (l : LineRef) : Command.IsWord (ofString l.text) := by
  intro d hd hmem
  rw [mem_ofString] at hmem
  simp only [Command.isMark, List.contains_cons, List.contains_nil, Bool.or_eq_true, beq_iff_eq,
    Bool.or_false] at hd
  cases l with
  | number n =>
      rcases mem_toString_int hmem with rfl | hdigit
      · revert hd
        decide
      · rcases hd with rfl | rfl | rfl | rfl | rfl | rfl | rfl <;> cases hdigit
  | flag b =>
      cases b <;> rcases hd with rfl | rfl | rfl | rfl | rfl | rfl | rfl <;> revert hmem <;> decide

theorem readLine_text (l : LineRef) : readLine (ofString l.text) = l := by
  cases l with
  | flag b => cases b <;> decide
  | number n =>
      -- the words for truth values hold an `e`, and no decimal does
      have hne : ∀ s : String, 'e' ∈ s.toList → ofString (LineRef.number n).text ≠ ofString s := by
        intro s hs heq
        rw [← mem_ofString, ← heq, mem_ofString] at hs
        rcases mem_toString_int hs with hminus | hdigit
        · cases hminus
        · cases hdigit
      rw [readLine, if_neg (hne "True" (by decide)), if_neg (hne "False" (by decide)),
        chars_ofString]
      exact congrArg LineRef.number (readInt_toString n)

/-! ### Reports -/

/-- The command of an annotation, by its parts. -/
def Command.ofAnnotated (path : Text) (a : Annotation LineRef Text) : Command :=
  { name := level a.severity
    properties := [("file", path), ("line", ofString a.line.text), ("title", a.ruleId)]
    data := a.message }

/-- The command of a diagnostic, by its parts. -/
def Command.ofDiagnostic (d : Diagnostic) : Command :=
  { name := "debug", properties := [], data := d.kind ++ ": " ++ d.message }

theorem annotationCommand_eq (path : Text) (a : Annotation LineRef Text) :
    annotationCommand path a = (Command.ofAnnotated path a).text := by
  -- the words between the fields, cut where a property starts and where its key ends
  have hfile : ofString " file=" = .char ' ' :: ofString "file" ++ [.char '='] := rfl
  have hline : ofString ",line=" = ofString "," ++ ofString "line" ++ [.char '='] := rfl
  have htitle : ofString ",title=" = ofString "," ++ ofString "title" ++ [.char '='] := rfl
  have hplain := Command.escapeProperty_of_isWord (isWord_line a.line)
  simp [annotationCommand, Command.ofAnnotated, Command.text, Command.header,
    Command.propertyText, Text.join, hfile, hline, htitle, hplain]

theorem diagnosticCommand_eq (d : Diagnostic) :
    diagnosticCommand d = (Command.ofDiagnostic d).text := rfl

theorem isWord_of_all {s : String} (h : s.toList.all (!Command.isMark ·) = true) :
    Command.IsWord (ofString s) := by
  intro d hd hmem
  rw [mem_ofString] at hmem
  simpa [hd] using List.all_eq_true.mp h d hmem

theorem wellFormed_ofAnnotated (path : Text) (a : Annotation LineRef Text) :
    (Command.ofAnnotated path a).WellFormed := by
  refine ⟨isWord_of_all ?_, ?_⟩
  · cases a.severity <;> decide
  · intro property hmem
    simp only [Command.ofAnnotated, List.mem_cons, List.not_mem_nil, or_false] at hmem
    rcases hmem with rfl | rfl | rfl <;> exact isWord_of_all (by decide)

theorem wellFormed_ofDiagnostic (d : Diagnostic) : (Command.ofDiagnostic d).WellFormed :=
  ⟨isWord_of_all (by decide), fun _ hmem => nomatch hmem⟩

/-- What a command of a report tells. -/
inductive Told
  | annotated (level path : Text) (line : LineRef) (ruleId message : Text)
  | diagnostic (text : Text)
  deriving DecidableEq

/-- What a command tells: a diagnostic if it is one for debugging, else an annotation. -/
def Command.told? (c : Command) : Option Told :=
  if c.name = "debug" then some (.diagnostic c.data)
  else do
    let path ← c.properties.lookup (ofString "file")
    let line ← c.properties.lookup (ofString "line")
    let ruleId ← c.properties.lookup (ofString "title")
    return .annotated c.name path (readLine line) ruleId c.data

/-- Reads what a line of a report tells. -/
def Told.read? (line : Text) : Option Told := (Command.read? line).bind Command.told?

/-- Reads a report, line by line. -/
def readReport? (report : Text) : Option (List Told) :=
  (report.splitOn (.char '\n')).mapM Told.read?

/-- What an annotation on a file is to tell. -/
def Told.ofAnnotated (path : Text) (a : Annotation LineRef Text) : Told :=
  .annotated (level a.severity) path a.line a.ruleId a.message

/-- What a diagnostic is to tell. -/
def Told.ofDiagnostic (d : Diagnostic) : Told := .diagnostic (d.kind ++ ": " ++ d.message)

theorem level_ne_debug (s : Severity) : ofString (level s) ≠ ofString "debug" := by
  cases s <;> decide

theorem told?_ofAnnotated (path : Text) (a : Annotation LineRef Text) :
    (Command.ofAnnotated path a).told? = some (.ofAnnotated path a) := by
  have hname : (Command.ofAnnotated path a).name ≠ ofString "debug" := level_ne_debug a.severity
  have hfile : (Command.ofAnnotated path a).properties.lookup (ofString "file") = some path := rfl
  have hline : (Command.ofAnnotated path a).properties.lookup (ofString "line") =
      some (ofString a.line.text) := rfl
  have htitle : (Command.ofAnnotated path a).properties.lookup (ofString "title") =
      some a.ruleId := rfl
  rw [Command.told?, if_neg hname, hfile, hline, htitle]
  simp [readLine_text, Told.ofAnnotated, Command.ofAnnotated]

theorem read?_annotationCommand (path : Text) (a : Annotation LineRef Text) :
    Told.read? (annotationCommand path a) = some (.ofAnnotated path a) := by
  rw [Told.read?, annotationCommand_eq, Command.read?_text (wellFormed_ofAnnotated path a),
    Option.bind_some, told?_ofAnnotated]

theorem read?_diagnosticCommand (d : Diagnostic) :
    Told.read? (diagnosticCommand d) = some (.ofDiagnostic d) := by
  rw [Told.read?, diagnosticCommand_eq, Command.read?_text (wellFormed_ofDiagnostic d)]
  rfl

/-- The commands of a report are commands. -/
theorem exists_command {path : Text} {o : Outcome LineRef Text} {t : Text}
    (h : t ∈ commands path o) : ∃ c : Command, c.WellFormed ∧ t = c.text := by
  rcases List.mem_append.mp h with hmem | hmem
  · obtain ⟨a, -, rfl⟩ := List.mem_map.mp hmem
    exact ⟨_, wellFormed_ofAnnotated path a, annotationCommand_eq path a⟩
  · obtain ⟨d, -, rfl⟩ := List.mem_map.mp hmem
    exact ⟨_, wellFormed_ofDiagnostic d, diagnosticCommand_eq d⟩

/-- No text of a report can end a command or a field of one. As long as there is something to tell,
the lines of a report are one command for each annotation and then one for each diagnostic, without
a break inside; and whoever reads the report finds, in that order, the level, the path, the line,
the rule and the message of each annotation and the text of each diagnostic as they were. -/
theorem report_reads_back (path : Text) (o : Outcome LineRef Text)
    (h : o.annotations ≠ [] ∨ o.diagnostics ≠ []) :
    (render path o).splitOn (.char '\n') =
        o.annotations.map (annotationCommand path) ++ o.diagnostics.map diagnosticCommand ∧
    (∀ command ∈ (render path o).splitOn (.char '\n'),
      Point.char '\r' ∉ command ∧ Point.char '\n' ∉ command) ∧
    readReport? (render path o) =
      some (o.annotations.map (Told.ofAnnotated path) ++ o.diagnostics.map Told.ofDiagnostic) := by
  have hunbroken : ∀ t ∈ commands path o, Point.char '\r' ∉ t ∧ Point.char '\n' ∉ t := by
    intro t ht
    obtain ⟨c, hc, rfl⟩ := exists_command ht
    exact ⟨Command.not_mem_text hc (Or.inl rfl), Command.not_mem_text hc (Or.inr rfl)⟩
  have hsome : commands path o ≠ [] := by
    rcases h with h | h <;> simp [commands, h]
  have hlines : (render path o).splitOn (.char '\n') = commands path o :=
    List.splitOn_intercalate _ (fun t ht => (hunbroken t ht).2) hsome
  refine ⟨hlines, hlines ▸ hunbroken, ?_⟩
  have hannotations : (o.annotations.map (annotationCommand path)).mapM Told.read? =
      some (o.annotations.map (Told.ofAnnotated path)) :=
    mapM_map_eq_some fun a _ => read?_annotationCommand path a
  have hdiagnostics : (o.diagnostics.map diagnosticCommand).mapM Told.read? =
      some (o.diagnostics.map Told.ofDiagnostic) :=
    mapM_map_eq_some fun d _ => read?_diagnosticCommand d
  rw [readReport?, hlines, commands, List.mapM_append, hannotations, hdiagnostics]
  rfl

/-- Texts that try to end a field, a command or a line, and one that looks escaped already. -/
def forging : Outcome LineRef Text :=
  { annotations := [
      { line := .number 7, ruleId := "r,title=s::t", title := "", severity := .high,
        importance := 2, message := "m\n::error file=x::%0A%25", recommendation := "" }]
    diagnostics := [{ kind := "rule_error", message := "100%\r\n::warning::", ruleId := none }]
    totalFindings := 1 }

theorem report_reads_back_forging :
    forging.annotations ≠ [] ∧
      readReport? (render "a,line=1::b c=d" forging) =
        some [
          .annotated "error" "a,line=1::b c=d" (.number 7) "r,title=s::t"
            "m\n::error file=x::%0A%25",
          .diagnostic ("rule_error" ++ ": " ++ "100%\r\n::warning::")] := by
  have hsome : forging.annotations ≠ [] := by simp [forging]
  exact ⟨hsome, (report_reads_back "a,line=1::b c=d" forging (Or.inl hsome)).2.2⟩

end TemplateAudit.Report.Workflow
