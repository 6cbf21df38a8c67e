import Mathlib.Data.List.Forall2
import TemplateAudit.Proofs.KeyRuns
import TemplateAudit.Rules.EnvironmentSecret

/-!
# TemplateAudit.Proofs.SecretKind

What kind of secret a value **looks like** (`classify_reads`).

The kind of a value is found by tests at every place of a text. Each test asks whether the text from
there on starts with characters of some kind (`startsAccessKey_iff` and its likes), so a search asks
whether such characters stand anywhere in the text (`anyTail_iff_contains`). What is left is a list
of readings, one for each kind, and the order in which they are tried.

Two things are less plain than that. A text may hold surrogates, which the tests see as a character
that no kind has (`holds_iff`). And names are compared without regard to case by folding their
characters, while the reading asks for the small forms of these (`foldChar_eq_iff`).
-/

namespace TemplateAudit

namespace Text

variable {p : List Char → Bool} {kind : List Char → Prop} {cs : List Char}

/-! ### Searches -/

theorem anyTail_iff : anyTail p cs = true ↔ ∃ tail, tail <:+ cs ∧ p tail = true := by
  induction cs with
  | nil => simp [anyTail]
  | cons c cs ih =>
      simp only [anyTail, Bool.or_eq_true, ih, List.suffix_cons_iff, or_and_right, exists_or,
        exists_eq_left]

/-- Where a test asks what a text starts with, a search asks what it contains. -/
theorem anyTail_iff_contains (h : ∀ cs, p cs = true ↔ ∃ part, kind part ∧ part <+: cs) :
    anyTail p cs = true ↔ ∃ part, kind part ∧ part <:+: cs := by
  simp only [anyTail_iff, h, List.infix_iff_prefix_suffix]
  constructor
  · rintro ⟨tail, htail, part, hkind, hpart⟩
    exact ⟨part, hkind, tail, hpart, htail⟩
  · rintro ⟨part, hkind, tail, hpart, htail⟩
    exact ⟨tail, htail, part, hkind, hpart⟩

/-- A text starts with so many characters of a class. -/
theorem take_all_iff {isIn : Char → Bool} {n : Nat} :
    (cs.take n).length = n ∧ (cs.take n).all isIn = true ↔
      ∃ part, (part.length = n ∧ ∀ c ∈ part, isIn c = true) ∧ part <+: cs := by
  rw [List.all_eq_true]
  constructor
  · exact fun h => ⟨cs.take n, h, List.take_prefix n cs⟩
  · rintro ⟨part, ⟨rfl, hall⟩, hpart⟩
    rw [← List.prefix_iff_eq_take.mp hpart]
    exact ⟨rfl, hall⟩

/-- A capital letter or a digit of ASCII. -/
def IsCapitalOrDigit (c : Char) : Prop := 'A' ≤ c ∧ c ≤ 'Z' ∨ '0' ≤ c ∧ c ≤ '9'

/-! ### Surrogates -/

/-- Characters of some kind stand in a text, one after the other. -/
def Holds (kind : List Char → Prop) (t : Text) : Prop := ∃ part, kind part ∧ ofChars part <:+: t

/-- What holds no stand-in for a surrogate can be looked for among the characters. -/
theorem ofChars_infix_iff {part : List Char} (h : Point.standIn ∉ part) {t : Text} :
    ofChars part <:+: t ↔ part <:+: t.chars := by
  rw [chars, List.infix_map_iff, ofChars]
  constructor
  · intro hpart
    refine ⟨_, hpart, ?_⟩
    rw [List.map_map]
    exact (List.map_id part).symm
  · rintro ⟨points, hpoints, rfl⟩
    have hsame : (points.map Point.toChar).map Point.char = points := by
      rw [List.map_map]
      refine (List.map_congr_left fun p hp => ?_).trans (List.map_id points)
      cases p with
      | char c => rfl
      | surrogate => exact absurd (List.mem_map_of_mem hp) h
    rwa [hsame]

theorem holds_iff (h : ∀ part, kind part → Point.standIn ∉ part) {t : Text} :
    Holds kind t ↔ ∃ part, kind part ∧ part <:+: t.chars :=
  exists_congr fun part => and_congr_right fun hkind => ofChars_infix_iff (h part hkind)

/-! ### Small letters -/

theorem chars_lowerPoints (before : List Char) (t : Text) :
    chars (lowerPoints before t) = lowerAfter before (chars t) := by
  induction t generalizing before with
  | nil => rfl
  | cons p t ih =>
      have hofChars : ∀ cs : List Char, (ofChars cs).map Point.toChar = cs := fun cs => by
        rw [ofChars, List.map_map]
        exact List.map_id cs
      cases p with
      | char c =>
          rw [lowerPoints, chars, List.map_append, ← chars, ← chars, ih, chars, hofChars]
          rfl
      | surrogate offset =>
          rw [lowerPoints, chars, List.map_append, ← chars, ← chars, ih]
          rfl

theorem chars_lowerText (t : Text) : chars (lowerText t) = lowerChars (chars t) :=
  chars_lowerPoints [] t

/-! ### Letters in any case -/

variable {c letter : Char}

/-- The dotless i and the long s, with the letters that they count as. No small form says so. -/
def variants : List (Char × Char) := [(Char.ofNat 0x131, 'i'), (Char.ofNat 0x17F, 's')]

/-- A character counts as a small letter where case does not matter: its small form starts with that
letter, or it is listed as a variant of it. -/
def CountsAs (c letter : Char) : Prop :=
  (lowerChar c).head? = some letter ∨ (c, letter) ∈ variants

/-- The entry of the Kelvin sign, whose small form is in ASCII. -/
def kelvinForm : Nat × Nat × Nat × Int := (0x212A, 0x212A, 1, -8383)

/-- All ranges but that of the capitals lie beyond ASCII, and but for the Kelvin sign, so do the
small forms. -/
theorem smallForms_beyond {r : Nat × Nat × Nat × Int} (h : r ∈ smallForms.tail) :
    0x80 ≤ r.1 ∧ (0x80 ≤ (r.1 : Int) + r.2.2.2 ∨ r = kelvinForm) := by
  have hall : smallForms.tail.all (fun r => decide (0x80 ≤ r.1) &&
      (decide (0x80 ≤ (r.1 : Int) + r.2.2.2) || r == kelvinForm)) = true := by
    decide
  simpa using List.all_eq_true.mp hall r h

theorem isAsciiUpper_iff : isAsciiUpper c = true ↔ 0x41 ≤ c.toNat ∧ c.toNat ≤ 0x5A := by
  simp only [isAsciiUpper, Bool.and_eq_true, decide_eq_true_eq, Char.le_def,
    UInt32.le_iff_toNat_le]
  rfl

/-- A character that is no capital of ASCII and not the dotted capital I is kept, or its small form
is in one of the other ranges. -/
theorem lowerChar_cases (h : isAsciiUpper c = false) (hdotted : c.toNat ≠ 0x130) :
    lowerChar c = [c] ∨ ∃ r ∈ smallForms.tail, r.1 ≤ c.toNat ∧ c.toNat ≤ r.2.1 ∧
      lowerChar c = [Char.ofNat (c.toNat + r.2.2.2).toNat] := by
  rw [lowerChar]
  simp only [beq_iff_eq, if_neg hdotted]
  cases hfind : smallForms.find? fun r =>
      decide (r.1 ≤ c.toNat) && decide (c.toNat ≤ r.2.1) && (c.toNat - r.1) % r.2.2.1 == 0 with
  | none => exact .inl rfl
  | some r =>
    right
    have hr := List.mem_of_find?_eq_some hfind
    have hcond := List.find?_some hfind
    simp only [Bool.and_eq_true, decide_eq_true_eq] at hcond
    obtain ⟨⟨hle, hge⟩, -⟩ := hcond
    refine ⟨r, ?_, hle, hge, rfl⟩
    rcases List.mem_cons.mp hr with rfl | hr
    · rw [← Bool.not_eq_true, isAsciiUpper_iff] at h
      exact absurd ⟨hle, hge⟩ h
    · exact hr

theorem lowerChar_of_isAsciiUpper (h : isAsciiUpper c = true) :
    lowerChar c = [Char.ofNat (c.toNat + 32)] := by
  obtain ⟨hle, hge⟩ := isAsciiUpper_iff.mp h
  have hfind : smallForms.find? (fun r =>
      decide (r.1 ≤ c.toNat) && decide (c.toNat ≤ r.2.1) && (c.toNat - r.1) % r.2.2.1 == 0) =
      some (0x41, 0x5A, 1, 32) :=
    List.find?_cons_of_pos (by simp [hle, hge, Nat.mod_one])
  rw [lowerChar]
  simp only [beq_iff_eq, if_neg (show c.toNat ≠ 0x130 by omega), hfind]
  rfl

/-- The characters other than capitals that are not compared as they are. -/
def foldedApart : List Char :=
  [Char.ofNat 0x130, Char.ofNat 0x131, Char.ofNat 0x17F, Char.ofNat 0x212A]

theorem mem_foldedApart_of_mem_variants (h : (c, letter) ∈ variants) : c ∈ foldedApart := by
  have hall : variants.all (fun v => foldedApart.contains v.1) = true := by decide
  simpa using List.all_eq_true.mp hall _ h

theorem isAsciiUpper_of_mem_foldedApart (h : c ∈ foldedApart) : isAsciiUpper c = false := by
  have hall : foldedApart.all (fun c => !isAsciiUpper c) = true := by decide
  simpa using List.all_eq_true.mp hall c h

theorem foldChar_of_not_mem (h : isAsciiUpper c = false) (hapart : c ∉ foldedApart) :
    foldChar c = c := by
  have hne : ∀ n, Char.ofNat n ∈ foldedApart → c.toNat ≠ n := by
    rintro n hn rfl
    rw [Char.ofNat_toNat] at hn
    exact hapart hn
  rw [foldChar, if_neg (by rw [← isAsciiUpper, h]; decide)]
  split
  · exact absurd ‹_› (hne 0x17F (by decide))
  · exact absurd ‹_› (hne 0x212A (by decide))
  · exact absurd ‹_› (hne 0x130 (by decide))
  · exact absurd ‹_› (hne 0x131 (by decide))
  · rfl

theorem toNat_ofNat_or (n : Nat) : (Char.ofNat n).toNat = n ∨ (Char.ofNat n).toNat = 0 := by
  by_cases h : n.isValidChar
  · left
    rw [Char.ofNat, dif_pos h]
    rfl
  · right
    rw [Char.ofNat, dif_neg h]
    rfl

theorem countsAs_of_not_mem (h : isAsciiUpper c = false) (hapart : c ∉ foldedApart)
    (hpos : 0 < letter.toNat) (hascii : letter.toNat < 0x80) :
    CountsAs c letter ↔ c = letter := by
  rw [CountsAs, or_iff_left (mt mem_foldedApart_of_mem_variants hapart)]
  have hdotted : c.toNat ≠ 0x130 := by
    intro hn
    refine hapart ?_
    rw [← Char.ofNat_toNat c, hn]
    decide
  rcases lowerChar_cases h hdotted with hkept | ⟨r, hr, hle, hge, hform⟩
  · rw [hkept]
    simp
  · obtain ⟨hbeyond, hform'⟩ := smallForms_beyond hr
    have hout : 0x80 ≤ (r.1 : Int) + r.2.2.2 := by
      refine hform'.resolve_right ?_
      rintro rfl
      exact hapart (by rw [← Char.ofNat_toNat c, Nat.le_antisymm hge hle]; decide)
    constructor
    · rw [hform]
      rintro ⟨⟩
      rcases toNat_ofNat_or (c.toNat + r.2.2.2).toNat with hn | hn <;> omega
    · rintro rfl
      omega

/-- A character is compared as a small letter exactly if it counts as that letter. -/
theorem foldChar_eq_iff (hpos : 0 < letter.toNat) (hascii : letter.toNat < 0x80) :
    foldChar c = letter ↔ CountsAs c letter := by
  cases hupper : isAsciiUpper c with
  | true =>
      have hvariant : (c, letter) ∉ variants := by
        intro hmem
        rw [isAsciiUpper_of_mem_foldedApart (mem_foldedApart_of_mem_variants hmem)] at hupper
        cases hupper
      rw [CountsAs, or_iff_left hvariant, lowerChar_of_isAsciiUpper hupper, foldChar,
        ← isAsciiUpper, if_pos hupper, List.head?_cons, Option.some_inj]
  | false =>
      by_cases hapart : c ∈ foldedApart
      · simp only [foldedApart, List.mem_cons, List.not_mem_nil, or_false] at hapart
        have hbeyond : ∀ n, 0x80 ≤ (Char.ofNat n).toNat → some (Char.ofNat n) ≠ some letter := by
          rintro n hn ⟨⟩
          omega
        rcases hapart with rfl | rfl | rfl | rfl
        · change 'i' = letter ↔ some 'i' = some letter ∨ _
          simp [variants]
        · change 'i' = letter ↔ some (Char.ofNat 0x131) = some letter ∨ _
          rw [or_iff_right (hbeyond _ (by decide))]
          simp [variants, eq_comm]
        · change 's' = letter ↔ some (Char.ofNat 0x17F) = some letter ∨ _
          rw [or_iff_right (hbeyond _ (by decide))]
          simp [variants, eq_comm]
        · change 'k' = letter ↔ some 'k' = some letter ∨ _
          simp [variants]
      · rw [foldChar_of_not_mem hupper hapart, countsAs_of_not_mem hupper hapart hpos hascii]

end Text

namespace Rules.EnvironmentSecret

open TemplateAudit.Text

variable {cs part : List Char} {value : Text}

/-! ### Kinds of values -/

/-- An access key: one of three openings, and sixteen capitals and digits. -/
def IsKeyText (part : List Char) : Prop :=
  ∃ opening ∈ ["A3T", "AKIA", "ASIA"], ∃ rest : List Char,
    (rest.length = 16 ∧ ∀ c ∈ rest, IsCapitalOrDigit c) ∧ part = opening.toList ++ rest

/-- A letter or a digit of ASCII, a low line or a hyphen. -/
def IsWordLetter (c : Char) : Prop :=
  'A' ≤ c ∧ c ≤ 'Z' ∨ 'a' ≤ c ∧ c ≤ 'z' ∨ '0' ≤ c ∧ c ≤ '9' ∨ c = '_' ∨ c = '-'

/-- Some of these characters. -/
structure IsWord (word : List Char) : Prop where
  ne_nil : word ≠ []
  forall_mem : ∀ c ∈ word, IsWordLetter c

/-- A web token: three words divided by dots, the first of which starts in a certain way. -/
def IsWebToken (part : List Char) : Prop :=
  ∃ x y z, IsWord x ∧ IsWord y ∧ IsWord z ∧ part = "eyJ".toList ++ x ++ '.' :: y ++ '.' :: z

/-- Twenty-four characters of words. -/
def IsLongToken (part : List Char) : Prop := part.length = 24 ∧ ∀ c ∈ part, IsWordLetter c

theorem isKeyChar_iff {c : Char} : isKeyChar c = true ↔ IsCapitalOrDigit c := by
  simp only [isKeyChar, isAsciiDigit, isAsciiUpper, Bool.or_eq_true, Bool.and_eq_true,
    decide_eq_true_eq, IsCapitalOrDigit, or_comm]

theorem isWordChar_iff {c : Char} : isWordChar c = true ↔ IsWordLetter c := by
  simp only [isWordChar, isAsciiAlnum, isAsciiDigit, isAsciiUpper, isAsciiLower, IsWordLetter,
    Bool.or_eq_true, Bool.and_eq_true, decide_eq_true_eq, beq_iff_eq]
  tauto

/-! ### Tests -/

theorem startsAccessKey_iff :
    startsAccessKey cs = true ↔ ∃ part, IsKeyText part ∧ part <+: cs := by
  simp only [startsAccessKey, List.any_eq_true, Bool.and_eq_true, beq_iff_eq, and_assoc,
    List.isPrefixOf_iff_prefix, take_all_iff, isKeyChar_iff]
  constructor
  · rintro ⟨opening, hmem, ⟨more, rfl⟩, rest, hlength, hall, hstarts⟩
    rw [← String.length_toList, List.drop_left] at hstarts
    exact ⟨_, ⟨opening, hmem, rest, ⟨hlength, hall⟩, rfl⟩,
      (List.prefix_append_right_inj _).mpr hstarts⟩
  · rintro ⟨_, ⟨opening, hmem, rest, ⟨hlength, hall⟩, rfl⟩, more, rfl⟩
    refine ⟨opening, hmem, ⟨rest ++ more, (List.append_assoc ..).symm⟩, rest, hlength, hall, ?_⟩
    rw [← String.length_toList, List.append_assoc, List.drop_left]
    exact List.prefix_append rest more

theorem startsLongToken_iff :
    startsLongToken cs = true ↔ ∃ part, IsLongToken part ∧ part <+: cs := by
  simp only [startsLongToken, Bool.and_eq_true, beq_iff_eq, take_all_iff, isWordChar_iff,
    IsLongToken]

/-- What comes after a word and a dot: the dot ends the word, so there is one way to read it. -/
theorem afterWordAndDot?_eq_some_iff {rest : List Char} :
    afterWordAndDot? cs = some rest ↔ ∃ word, IsWord word ∧ cs = word ++ '.' :: rest := by
  constructor
  · intro h
    rw [afterWordAndDot?] at h
    split at h
    case h_1 c word _ hword hrest =>
        cases h
        refine ⟨c :: word, ⟨List.cons_ne_nil c word, fun d hd => ?_⟩, ?_⟩
        · exact isWordChar_iff.mp (List.all_eq_true.mp List.all_takeWhile d (hword ▸ hd))
        · rw [← hword, ← hrest, List.takeWhile_append_dropWhile]
    case h_2 => cases h
  · rintro ⟨word, ⟨hne, hword⟩, rfl⟩
    have hall : ∀ c ∈ word, isWordChar c = true := fun c hc => isWordChar_iff.mpr (hword c hc)
    have hdot : isWordChar '.' = false := by decide
    obtain ⟨c, more, rfl⟩ := List.exists_cons_of_ne_nil hne
    rw [afterWordAndDot?, List.takeWhile_append_of_pos hall, List.dropWhile_append_of_pos hall,
      List.dropWhile_cons_of_neg (by rw [hdot]; decide)]
    rfl

theorem startsWebToken_iff :
    startsWebToken cs = true ↔ ∃ part, IsWebToken part ∧ part <+: cs := by
  rw [startsWebToken, Bool.and_eq_true, List.isPrefixOf_iff_prefix]
  constructor
  · rintro ⟨⟨more, rfl⟩, hrest⟩
    split at hrest
    case h_1 c rest hafter =>
        obtain ⟨middle, hfirst, hsecond⟩ := Option.bind_eq_some_iff.mp hafter
        obtain ⟨x, hx, hmore⟩ := afterWordAndDot?_eq_some_iff.mp hfirst
        obtain ⟨y, hy, rfl⟩ := afterWordAndDot?_eq_some_iff.mp hsecond
        have hz : IsWord [c] := ⟨List.cons_ne_nil c [], by simpa using isWordChar_iff.mp hrest⟩
        obtain rfl : more = x ++ '.' :: (y ++ '.' :: c :: rest) := hmore
        exact ⟨_, ⟨x, y, [c], hx, hy, hz, rfl⟩, rest, by simp⟩
    case h_2 => cases hrest
  · rintro ⟨_, ⟨x, y, z, hx, hy, ⟨hne, hz⟩, rfl⟩, more, rfl⟩
    obtain ⟨c, z, rfl⟩ := List.exists_cons_of_ne_nil hne
    have hfirst : afterWordAndDot? (x ++ '.' :: (y ++ '.' :: (c :: z ++ more))) =
        some (y ++ '.' :: (c :: z ++ more)) := afterWordAndDot?_eq_some_iff.mpr ⟨x, hx, rfl⟩
    have hsecond : afterWordAndDot? (y ++ '.' :: (c :: z ++ more)) = some (c :: z ++ more) :=
      afterWordAndDot?_eq_some_iff.mpr ⟨y, hy, rfl⟩
    refine ⟨⟨x ++ '.' :: (y ++ '.' :: (c :: z ++ more)), by simp⟩, ?_⟩
    have hdrop : ("eyJ".toList ++ x ++ '.' :: y ++ '.' :: c :: z ++ more).drop 3 =
        x ++ '.' :: (y ++ '.' :: (c :: z ++ more)) := by simp
    rw [hdrop, hfirst, Option.bind_some, hsecond]
    exact isWordChar_iff.mpr (hz c List.mem_cons_self)

/-! ### Names -/

/-- The words that suggest a secret, in all their spellings. -/
def secretWords : List String :=
  ["secret", "token", "apikey", "api_key", "api-key", "password", "passwd", "accesskey",
    "access_key", "access-key", "private", "credential", "auth"]

/-- One of these words, in any case. -/
def IsSecretWord (part : List Char) : Prop :=
  ∃ word ∈ secretWords, List.Forall₂ CountsAs part word.toList

theorem startsPair_iff {first second : String} :
    startsPair first second cs = true ↔
      ∃ between ∈ ["", "_", "-"], (first ++ between ++ second).toList <+: cs := by
  simp only [startsPair, Bool.and_eq_true, List.isPrefixOf_iff_prefix, String.toList_append]
  constructor
  · rintro ⟨⟨rest, rfl⟩, hrest⟩
    rw [← String.length_toList, List.drop_left, Bool.or_eq_true] at hrest
    rcases hrest with hnone | hone
    · refine ⟨"", List.mem_cons_self, ?_⟩
      simpa using hnone
    · split at hone
      case h_1 c more =>
          simp only [Bool.and_eq_true, Bool.or_eq_true, beq_iff_eq, List.isPrefixOf_iff_prefix]
            at hone
          obtain ⟨rfl | rfl, hmore⟩ := hone
          · exact ⟨"_", by simp, by simpa using hmore⟩
          · exact ⟨"-", by simp, by simpa using hmore⟩
      case h_2 => cases hone
  · rintro ⟨between, hmem, more, rfl⟩
    refine ⟨⟨between.toList ++ second.toList ++ more, by simp⟩, ?_⟩
    have hdrop : (first.toList ++ between.toList ++ second.toList ++ more).drop first.length =
        between.toList ++ (second.toList ++ more) := by
      rw [← String.length_toList]
      simp
    rw [hdrop]
    simp only [List.mem_cons, List.not_mem_nil, or_false] at hmem
    rcases hmem with rfl | rfl | rfl <;> simp

theorem startsKeyword_iff :
    startsKeyword cs = true ↔ ∃ part, (∃ word ∈ secretWords, part = word.toList) ∧ part <+: cs := by
  simp only [startsKeyword, Bool.or_eq_true, List.any_eq_true, List.isPrefixOf_iff_prefix,
    startsPair_iff]
  constructor
  · rintro ((⟨word, hmem, hstarts⟩ | ⟨between, hmem, hstarts⟩) | ⟨between, hmem, hstarts⟩)
    · have hall : ∀ word ∈ keywords, word ∈ secretWords := by decide
      exact ⟨_, ⟨word, hall word hmem, rfl⟩, hstarts⟩
    · have hall : ∀ between ∈ ["", "_", "-"], "api" ++ between ++ "key" ∈ secretWords := by decide
      exact ⟨_, ⟨_, hall between hmem, rfl⟩, hstarts⟩
    · have hall : ∀ between ∈ ["", "_", "-"], "access" ++ between ++ "key" ∈ secretWords := by
        decide
      exact ⟨_, ⟨_, hall between hmem, rfl⟩, hstarts⟩
  · rintro ⟨_, ⟨word, hmem, rfl⟩, hstarts⟩
    have hall : ∀ word ∈ secretWords, (word ∈ keywords ∨
        ∃ between ∈ ["", "_", "-"], "api" ++ between ++ "key" = word) ∨
        ∃ between ∈ ["", "_", "-"], "access" ++ between ++ "key" = word := by decide
    rcases hall word hmem with (hword | ⟨between, hbetween, rfl⟩) | ⟨between, hbetween, rfl⟩
    · exact .inl (.inl ⟨word, hword, hstarts⟩)
    · exact .inl (.inr ⟨between, hbetween, hstarts⟩)
    · exact .inr ⟨between, hbetween, hstarts⟩

theorem isAscii_secretWords {word : String} (h : word ∈ secretWords) {letter : Char}
    (hletter : letter ∈ word.toList) : 0 < letter.toNat ∧ letter.toNat < 0x80 := by
  have hall : secretWords.all (fun word => word.toList.all fun letter =>
      decide (0 < letter.toNat) && decide (letter.toNat < 0x80)) = true := by decide
  simpa using List.all_eq_true.mp (List.all_eq_true.mp hall word h) letter hletter

theorem map_foldChar_eq_iff {word : List Char}
    (h : ∀ letter ∈ word, 0 < letter.toNat ∧ letter.toNat < 0x80) :
    part.map foldChar = word ↔ List.Forall₂ CountsAs part word := by
  induction word generalizing part with
  | nil => simp
  | cons letter word ih =>
      obtain ⟨⟨hpos, hascii⟩, hword⟩ := List.forall_mem_cons.mp h
      cases part with
      | nil => simp
      | cons c part =>
          rw [List.map_cons, List.cons.injEq, List.forall₂_cons, foldChar_eq_iff hpos hascii,
            ih hword]

theorem suggestsSecret_iff {name : Text} :
    suggestsSecret name.chars = true ↔ name.Holds IsSecretWord := by
  have hparts : ∀ part, IsSecretWord part ↔ ∃ word ∈ secretWords, part.map foldChar = word.toList :=
    fun part => exists_congr fun word => and_congr_right fun hmem =>
      (map_foldChar_eq_iff fun _ => isAscii_secretWords hmem).symm
  have hstandIn : ∀ part, IsSecretWord part → Point.standIn ∉ part := by
    intro part hpart hmem
    obtain ⟨word, hword, heq⟩ := (hparts part).mp hpart
    have hfolded : foldChar Point.standIn ∈ word.toList := heq ▸ List.mem_map_of_mem hmem
    exact absurd (isAscii_secretWords hword hfolded).2 (by decide)
  rw [suggestsSecret, anyTail_iff_contains fun _ => startsKeyword_iff, holds_iff hstandIn,
    foldChars]
  simp only [hparts, List.infix_map_iff]
  constructor
  · rintro ⟨_, ⟨word, hmem, rfl⟩, part, hpart, heq⟩
    exact ⟨part, ⟨word, hmem, heq.symm⟩, hpart⟩
  · rintro ⟨part, ⟨word, hmem, heq⟩, hpart⟩
    exact ⟨_, ⟨word, hmem, rfl⟩, part, hpart, heq.symm⟩

/-! ### Values -/

/-- A value says that it only stands in for a secret. -/
def IsHinted (value : Text) : Prop :=
  ∃ hint ∈ ["dummy", "example", "placeholder", "sample", "changeme", "resolve:"],
    Text.ofString hint <:+: lowerText value

theorem isPlaceholder_iff : isPlaceholder value.chars = true ↔ IsHinted value := by
  have hstandIn : ∀ hint ∈ placeholderHints, Point.standIn ∉ hint.toList := by decide
  rw [isPlaceholder, List.any_eq_true]
  refine exists_congr fun hint => and_congr_right fun hmem => ?_
  rw [containsText_iff, ← chars_lowerText, Text.ofString, ofChars_infix_iff (hstandIn hint hmem)]

theorem not_isWordLetter_standIn : ¬ IsWordLetter Point.standIn := by
  rw [← isWordChar_iff]
  decide

theorem anyTail_startsAccessKey_iff :
    anyTail startsAccessKey value.chars = true ↔ value.Holds IsKeyText := by
  rw [anyTail_iff_contains fun _ => startsAccessKey_iff, holds_iff]
  rintro _ ⟨opening, hmem, rest, ⟨-, hall⟩, rfl⟩ hstandIn
  rcases List.mem_append.mp hstandIn with hopening | hrest
  · have hnone : ∀ opening ∈ ["A3T", "AKIA", "ASIA"], Point.standIn ∉ opening.toList := by decide
    exact hnone opening hmem hopening
  · exact absurd (isKeyChar_iff.mpr (hall _ hrest)) (by decide)

theorem anyTail_startsWebToken_iff :
    anyTail startsWebToken value.chars = true ↔ value.Holds IsWebToken := by
  rw [anyTail_iff_contains fun _ => startsWebToken_iff, holds_iff]
  rintro _ ⟨x, y, z, hx, hy, hz, rfl⟩ hstandIn
  have hfixed : Point.standIn ∉ "eyJ".toList ∧ Point.standIn ≠ '.' := by decide
  have hword : ∀ {w}, IsWord w → Point.standIn ∉ w := fun hw hmem =>
    not_isWordLetter_standIn (hw.forall_mem _ hmem)
  simp only [List.mem_append, List.mem_cons] at hstandIn
  rcases hstandIn with ((h | h) | h | h) | h | h
  · exact hfixed.1 h
  · exact hword hx h
  · exact hfixed.2 h
  · exact hword hy h
  · exact hfixed.2 h
  · exact hword hz h

theorem anyTail_startsLongToken_iff :
    anyTail startsLongToken value.chars = true ↔ value.Holds IsLongToken := by
  rw [anyTail_iff_contains fun _ => startsLongToken_iff, holds_iff]
  exact fun part hpart hmem => not_isWordLetter_standIn (hpart.2 _ hmem)

open Classical in
/-- The kind of secret that a value looks like, for all names and values. A value with a hint is
none. Any other value that holds an access key is one, whatever else it holds; next come web tokens,
and last long tokens, if the name holds a word that suggests a secret. -/
theorem classify_reads (name value : Text) :
    (classify name.chars value.chars).map SecretKind.name =
      if IsHinted value then none
      else if value.Holds IsKeyText then some "aws_access_key"
      else if value.Holds IsWebToken then some "jwt"
      else if value.Holds IsLongToken ∧ name.Holds IsSecretWord then some "long_token"
      else none := by
  rw [classify]
  simp only [Bool.and_eq_true, isPlaceholder_iff, anyTail_startsAccessKey_iff,
    anyTail_startsWebToken_iff, anyTail_startsLongToken_iff, suggestsSecret_iff]
  split_ifs <;> rfl

end Rules.EnvironmentSecret

end TemplateAudit
