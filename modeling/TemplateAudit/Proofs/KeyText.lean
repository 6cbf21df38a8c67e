import TemplateAudit.Proofs.AccessKey
import TemplateAudit.Text.Quoted

/-!
# TemplateAudit.Proofs.KeyText

Texts that are put together from others, and the access keys in them.

All that matters about a key here is in `IsKey`: how long it is, which characters it has, and that
it starts with a capital A. So no key reaches across a character that keys do not have
(`IsKey.infix_append_cons_iff`), and none starts in a text without that letter
(`IsKey.infix_append_iff_of_not_mem`).

`Quotes text parts` says that, as far as keys go, a text is nothing but some parts: it contains a
key exactly if one of them does. Messages are taken apart with it from the outside in. Fixed words
have no parts, `Quotes.divided` is for two texts with fixed words between them, `Quotes.intercalate`
for a list of them, and `quotes_quotedText` says that quoting a text neither hides a key in it nor
makes up one.
-/

namespace TemplateAudit.Rules.AccessKey

open TemplateAudit.Text

/-! ### Keys -/

theorem ne_of_isKeyChar {c d : Char} (hc : isKeyChar c = true) (hd : isKeyChar d = false) :
    c ≠ d := by
  rintro rfl
  rw [hc] at hd
  cases hd

/-- What all keys have in common. -/
structure IsKey (key : List Char) : Prop where
  length_eq : key.length = keyLength
  all_isKeyChar : ∀ c ∈ key, isKeyChar c = true
  starts : ∃ rest, key = 'A' :: rest

/-- What stands at the start of a text that starts with a key is one. -/
theorem isKey_of_startsKey {cs : List Char} (h : startsKey cs = true) :
    IsKey (cs.take keyLength) := by
  simp only [startsKey, Bool.and_eq_true, beq_iff_eq, List.all_eq_true] at h
  obtain ⟨⟨⟨hlength, hchars⟩, hopening⟩, -⟩ := h
  refine ⟨hlength, hchars, ?_⟩
  obtain ⟨opening, hmem, hstarts⟩ := List.any_eq_true.mp hopening
  obtain ⟨rest, hrest⟩ := List.isPrefixOf_iff_prefix.mp hstarts
  -- all of the openings start with the letter
  have hall : openings.all (fun o => o.head? == some 'A') = true := by decide
  have hhead := beq_iff_eq.mp (List.all_eq_true.mp hall opening hmem)
  obtain ⟨more, rfl⟩ := List.head?_eq_some_iff.mp hhead
  exact ⟨more ++ rest, hrest.symm⟩

theorem isKey_of_mem_keysFrom {cs key : List Char} {inRun : Bool} (h : key ∈ keysFrom inRun cs) :
    IsKey key := by
  induction cs generalizing inRun with
  | nil => cases h
  | cons c cs ih =>
      rw [keysFrom] at h
      split at h
      case isTrue hstarts =>
          rcases List.mem_cons.mp h with rfl | hlater
          · exact isKey_of_startsKey (Bool.and_eq_true _ _ ▸ hstarts).2
          · exact ih hlater
      case isFalse => exact ih h

theorem isKey_of_mem_reported {l : Line} {key : List Char} (h : key ∈ reported l) : IsKey key :=
  isKey_of_mem_keysFrom (List.mem_of_mem_filter h)

namespace IsKey

variable {key : List Char}

theorem not_mem (hkey : IsKey key) {c : Char} (hc : isKeyChar c = false) : c ∉ key :=
  fun hmem => ne_of_isKeyChar (hkey.all_isKeyChar c hmem) hc rfl

theorem not_infix_nil (hkey : IsKey key) : ¬ key <:+: [] := by
  obtain ⟨rest, rfl⟩ := hkey.starts
  simp

/-- A text with fewer characters of keys than a key has contains none. -/
theorem not_infix_of_countP (hkey : IsKey key) {cs : List Char}
    (h : cs.countP isKeyChar < keyLength) : ¬ key <:+: cs := by
  intro hinfix
  have hall : key.countP isKeyChar = key.length := List.countP_eq_length.mpr hkey.all_isKeyChar
  have hle := hinfix.sublist.countP_le (p := isKeyChar)
  rw [hall, hkey.length_eq] at hle
  omega

/-- No key reaches across a character that keys do not have. -/
theorem infix_append_cons_iff (hkey : IsKey key) {c : Char} (hc : isKeyChar c = false)
    (as bs : List Char) : key <:+: as ++ c :: bs ↔ key <:+: as ∨ key <:+: bs := by
  have hmem : c ∉ key := hkey.not_mem hc
  constructor
  · rintro ⟨s, t, h⟩
    rcases List.append_eq_append_iff.mp h with ⟨more, rfl, -⟩ | ⟨more, hkeyEnds, hrest⟩
    · exact Or.inl ⟨s, more, rfl⟩
    · rcases more with _ | ⟨d, more⟩
      · rw [List.append_nil] at hkeyEnds
        exact Or.inl ⟨s, [], by rw [List.append_nil, hkeyEnds]⟩
      · -- the key ends behind the character, so it starts behind it as well
        obtain ⟨rfl, rfl⟩ := List.cons.inj hrest
        rcases List.append_eq_append_iff.mp hkeyEnds with
          ⟨front, rfl, hfront⟩ | ⟨front, rfl, hfront⟩
        · exact absurd (hfront ▸ List.mem_append_right front List.mem_cons_self) hmem
        · rcases front with _ | ⟨e, front⟩
          · obtain rfl : c :: more = key := hfront
            exact absurd List.mem_cons_self hmem
          · obtain ⟨-, rfl⟩ := List.cons.inj hfront
            exact Or.inr ⟨front, t, rfl⟩
  · rintro (h | h)
    · exact h.trans (List.prefix_append _ _).isInfix
    · exact h.trans ((List.suffix_cons c bs).trans (List.suffix_append _ _)).isInfix

/-- No key starts in a text without the letter that keys start with. -/
theorem infix_append_iff_of_not_mem (hkey : IsKey key) {as : List Char} (h : 'A' ∉ as)
    (bs : List Char) : key <:+: as ++ bs ↔ key <:+: bs := by
  induction as with
  | nil => rfl
  | cons a as ih =>
      obtain ⟨ha, has⟩ := not_or.mp (mt List.mem_cons.mpr h)
      rw [List.cons_append, List.infix_cons_iff, ih has, or_iff_right]
      intro hstarts
      obtain ⟨rest, rfl⟩ := hkey.starts
      exact ha (List.cons_prefix_cons.mp hstarts).1

theorem not_infix_of_not_mem (hkey : IsKey key) {cs : List Char} (h : 'A' ∉ cs) :
    ¬ key <:+: cs := by
  rw [← List.append_nil cs, hkey.infix_append_iff_of_not_mem h]
  exact hkey.not_infix_nil

end IsKey

/-! ### Parts -/

/-- As far as keys go, a text is nothing but some parts: it contains a key exactly if one of them
does. -/
def Quotes (text : List Char) (parts : List (List Char)) : Prop :=
  ∀ key, IsKey key → (key <:+: text ↔ ∃ part ∈ parts, key <:+: part)

/-- Whether a text keeps apart what stands before and after it: it neither starts nor ends like a
key goes on, and it is too short of such characters to contain one. -/
def divides (cs : List Char) : Bool :=
  !cs.head?.all isKeyChar && !cs.getLast?.all isKeyChar && cs.countP isKeyChar < keyLength

namespace Quotes

variable {as bs cs : List Char} {ps qs : List (List Char)}

theorem self (cs : List Char) : Quotes cs [cs] := by
  intro key _
  simp

/-- Fixed words have too few of the characters of keys. -/
theorem of_countP (h : cs.countP isKeyChar < keyLength) : Quotes cs [] := by
  intro key hkey
  simp [hkey.not_infix_of_countP h]

theorem of_not_mem (h : 'A' ∉ cs) : Quotes cs [] := by
  intro key hkey
  simp [hkey.not_infix_of_not_mem h]

theorem nil : Quotes [] [] := of_not_mem List.not_mem_nil

/-- Two texts with one between them that keeps them apart. -/
theorem divided (hcs : divides cs = true) (has : Quotes as ps) (hbs : Quotes bs qs) :
    Quotes (as ++ cs ++ bs) (ps ++ qs) := by
  intro key hkey
  simp only [divides, Bool.and_eq_true, Bool.not_eq_true', decide_eq_true_eq] at hcs
  obtain ⟨⟨hhead, hlast⟩, hcount⟩ := hcs
  obtain ⟨c, more, rfl⟩ : ∃ c more, cs = c :: more := by
    cases cs with
    | nil => cases hhead
    | cons c more => exact ⟨c, more, rfl⟩
  obtain ⟨front, d, hfront⟩ : ∃ front d, c :: more = front ++ [d] :=
    ⟨_, _, (List.dropLast_append_getLast (List.cons_ne_nil c more)).symm⟩
  have hd : isKeyChar d = false := by simpa [hfront] using hlast
  have hnone : ¬ key <:+: front := by
    refine hkey.not_infix_of_countP (Nat.lt_of_le_of_lt ?_ hcount)
    rw [hfront]
    exact (List.sublist_append_left front [d]).countP_le
  have hleft : key <:+: as ++ (c :: more) ++ bs ↔ key <:+: as ∨ key <:+: (c :: more) ++ bs := by
    rw [List.append_assoc, List.cons_append, hkey.infix_append_cons_iff hhead,
      ← List.nil_append (c :: (more ++ bs)), hkey.infix_append_cons_iff hhead]
    simp [hkey.not_infix_nil]
  have hright : key <:+: (c :: more) ++ bs ↔ key <:+: bs := by
    rw [hfront, List.append_assoc, List.singleton_append, hkey.infix_append_cons_iff hd,
      or_iff_right hnone]
  rw [hleft, hright, has key hkey, hbs key hkey]
  simp only [List.mem_append, or_and_right, exists_or]

/-- A text with fixed words after it. -/
theorem ended (has : Quotes as ps) (hcs : divides cs = true) : Quotes (as ++ cs) ps := by
  simpa using divided hcs has nil

/-- A text with words after it in which no key starts or goes on. -/
theorem followed (has : Quotes as ps) (hhead : cs.head?.all isKeyChar = false) (hcs : 'A' ∉ cs) :
    Quotes (as ++ cs) ps := by
  intro key hkey
  cases cs with
  | nil => cases hhead
  | cons c cs =>
      have hnone := hkey.not_infix_of_not_mem (mt (List.mem_cons_of_mem c) hcs)
      rw [hkey.infix_append_cons_iff hhead, has key hkey, or_iff_left hnone]

/-- A text with words before it in which no key starts. -/
theorem after (hbs : Quotes bs qs) (has : 'A' ∉ as) : Quotes (as ++ bs) qs := by
  intro key hkey
  rw [hkey.infix_append_iff_of_not_mem has, hbs key hkey]

/-- Texts with one between them that keeps them apart. -/
theorem intercalate {α : Type} {text : α → List Char} {parts : α → List (List Char)}
    (hcs : divides cs = true) {xs : List α} (h : ∀ x ∈ xs, Quotes (text x) (parts x)) :
    Quotes (cs.intercalate (xs.map text)) (xs.flatMap parts) := by
  induction xs with
  | nil => exact nil
  | cons x xs ih =>
      have hx := h x List.mem_cons_self
      have hxs := ih fun y hy => h y (List.mem_cons_of_mem x hy)
      cases xs with
      | nil =>
          simpa [List.intercalate] using hx
      | cons y ys =>
          rw [List.map_cons, List.map_cons, List.intercalate_cons_cons, List.flatMap_cons]
          exact divided hcs hx hxs

end Quotes

/-! ### Fixed words

A fixed text is known to be the row of its characters, so what is asked of it can be computed from
that row. -/

theorem not_mem_ofList {cs : List Char} (h : cs.contains 'A' = false) :
    'A' ∉ (String.ofList cs).toList := by
  rw [String.toList_ofList]
  simpa using h

theorem divides_ofList {cs : List Char} (h : divides cs = true) :
    divides (String.ofList cs).toList = true := by
  rwa [String.toList_ofList]

theorem Quotes.fixed {cs : List Char} (h : Nat.blt (cs.countP isKeyChar) keyLength = true) :
    Quotes (String.ofList cs).toList [] := by
  rw [String.toList_ofList]
  exact .of_countP (Nat.blt_eq.mp h)

section Strings

variable {words text : String} {ps : List (List Char)}

theorem Quotes.words_append (h : Quotes text.toList ps) (hwords : 'A' ∉ words.toList) :
    Quotes (words ++ text).toList ps := by
  rw [String.toList_append]
  exact h.after hwords

theorem Quotes.append_words (h : Quotes text.toList ps) (hwords : divides words.toList = true) :
    Quotes (text ++ words).toList ps := by
  rw [String.toList_append]
  exact h.ended hwords

end Strings

/-! ### Digits -/

theorem not_mem_toDigits {base : Nat} (hpos : 0 < base) (hle : base ≤ 16) (n : Nat) :
    'A' ∉ Nat.toDigits base n := by
  have hall : ∀ d < 16, 'A' ≠ d.digitChar := by decide
  have hcore : ∀ (fuel n : Nat) (ds : List Char), 'A' ∉ ds →
      'A' ∉ Nat.toDigitsCore base fuel n ds := by
    intro fuel
    induction fuel with
    | zero => exact fun n ds hds => hds
    | succ fuel ih =>
        intro n ds hds
        have hdigit : n % base < 16 := Nat.lt_of_lt_of_le (Nat.mod_lt n hpos) hle
        have hcons : 'A' ∉ (n % base).digitChar :: ds :=
          mt List.mem_cons.mp (not_or.mpr ⟨hall _ hdigit, hds⟩)
        rw [Nat.toDigitsCore]
        split
        · exact hcons
        · exact ih _ _ hcons
  exact hcore _ _ _ List.not_mem_nil

theorem not_mem_hexPadded (width n : Nat) : 'A' ∉ hexPadded width n := by
  simp [hexPadded, digits, not_mem_toDigits]

/-! ### Quoted texts -/

/-- How a character is written so that no key is hidden or made up: characters of keys stand as they
are, and for any other one stands something that no key reaches into. -/
def IsSpelling (c : Char) (cs : List Char) : Prop :=
  (isKeyChar c = true ∧ cs = [c]) ∨
    isKeyChar c = false ∧ ∃ d ds, cs = d :: ds ∧ isKeyChar d = false ∧ 'A' ∉ ds

/-- A run of characters of keys at the start of a text is there as well when the text is spelled
out. -/
theorem prefix_flatMap_iff {α : Type} {char : α → Char} {spell : α → List Char}
    (h : ∀ x, IsSpelling (char x) (spell x)) {run : List Char}
    (hrun : ∀ c ∈ run, isKeyChar c = true) (xs : List α) :
    run <+: xs.flatMap spell ↔ run <+: xs.map char := by
  induction xs generalizing run with
  | nil => rfl
  | cons x xs ih =>
      cases run with
      | nil => simp
      | cons r run =>
          have hr : isKeyChar r = true := hrun r List.mem_cons_self
          rw [List.flatMap_cons, List.map_cons]
          rcases h x with ⟨-, hspell⟩ | ⟨hc, d, ds, hspell, hd, -⟩
          · rw [hspell, List.singleton_append, List.cons_prefix_cons, List.cons_prefix_cons,
              ih fun c hc => hrun c (List.mem_cons_of_mem r hc)]
          · -- the run stops at this character on both sides
            rw [hspell, List.cons_append, List.cons_prefix_cons, List.cons_prefix_cons]
            simp [ne_of_isKeyChar hr hd, ne_of_isKeyChar hr hc]

/-- Spelling out a text neither hides keys in it nor makes them up. -/
theorem quotes_flatMap {α : Type} {char : α → Char} {spell : α → List Char}
    (h : ∀ x, IsSpelling (char x) (spell x)) (xs : List α) :
    Quotes (xs.flatMap spell) [xs.map char] := by
  intro key hkey
  simp only [List.mem_singleton, exists_eq_left]
  induction xs with
  | nil => rfl
  | cons x xs ih =>
      have hstarts : key <+: (x :: xs).flatMap spell ↔ key <+: (x :: xs).map char :=
        prefix_flatMap_iff h hkey.all_isKeyChar (x :: xs)
      rw [List.flatMap_cons, List.map_cons] at hstarts ⊢
      rw [List.infix_cons_iff, ← hstarts, ← ih]
      rcases h x with ⟨-, hspell⟩ | ⟨-, d, ds, hspell, -, hds⟩
      · rw [hspell, List.singleton_append, List.infix_cons_iff]
      · rw [hspell, List.cons_append, List.infix_cons_iff, hkey.infix_append_iff_of_not_mem hds]

theorem exists_escapeCode (n : Nat) : ∃ ds, escapeCode n = '\\' :: ds ∧ 'A' ∉ ds := by
  unfold escapeCode
  split_ifs <;> exact ⟨_, rfl, by simp [not_mem_hexPadded]⟩

theorem isSpelling_quotedChar {quote : Char} (hquote : isKeyChar quote = false) (c : Char) :
    IsSpelling c (Text.quotedChar quote c) := by
  cases hc : isKeyChar c with
  | true =>
      have hne : ∀ d, isKeyChar d = false → (c == d) = false :=
        fun d hd => beq_eq_false_iff_ne.mpr (ne_of_isKeyChar hc hd)
      have hprintable : isPrintable c = true := by
        have hrange := isKeyChar_iff.mp hc
        simp only [isPrintable, Bool.or_eq_true, Bool.and_eq_true, decide_eq_true_eq]
        left
        omega
      rw [Text.quotedChar, hne quote hquote, hne '\\' rfl, hne '\n' rfl, hne '\r' rfl, hne '\t' rfl,
        hprintable]
      exact Or.inl ⟨hc, rfl⟩
  | false =>
      have hA : 'A' ≠ c := ne_of_isKeyChar rfl hc
      refine Or.inr ⟨hc, ?_⟩
      unfold Text.quotedChar
      split_ifs
      · exact ⟨_, _, rfl, rfl, by simpa using hA⟩
      · exact ⟨_, _, rfl, rfl, by decide⟩
      · exact ⟨_, _, rfl, rfl, by decide⟩
      · exact ⟨_, _, rfl, rfl, by decide⟩
      · exact ⟨_, _, rfl, hc, by decide⟩
      · obtain ⟨ds, heq, hds⟩ := exists_escapeCode c.toNat
        exact ⟨_, ds, heq, rfl, hds⟩

theorem isSpelling_quotedPoint {quote : Char} (hquote : isKeyChar quote = false) (p : Point) :
    IsSpelling p.toChar (quotedPoint quote p) := by
  cases p with
  | char c => exact isSpelling_quotedChar hquote c
  | surrogate offset =>
      obtain ⟨ds, heq, hds⟩ := exists_escapeCode (Point.surrogate offset).code
      exact Or.inr ⟨rfl, _, ds, heq, rfl, hds⟩

theorem isKeyChar_quoteOf (single double : Bool) : isKeyChar (quoteOf single double) = false := by
  cases single <;> cases double <;> rfl

/-- Putting a text between quotes neither hides keys in it nor makes them up. -/
theorem quotes_between {α : Type} {char : α → Char} {spell : α → List Char} {quote : Char}
    (hquote : isKeyChar quote = false) (h : ∀ x, IsSpelling (char x) (spell x)) (xs : List α) :
    Quotes (quote :: xs.flatMap spell ++ [quote]) [xs.map char] := by
  have hstart : 'A' ∉ [quote] := mt List.mem_singleton.mp (ne_of_isKeyChar rfl hquote)
  exact ((quotes_flatMap h xs).after hstart).followed hquote hstart

theorem quotes_quotedText (t : Text) : Quotes (quotedText t).toList [t.chars] := by
  have hquote := isKeyChar_quoteOf (t.contains (.char '\'')) (t.contains (.char '"'))
  rw [quotedText, String.toList_ofList]
  exact quotes_between hquote (isSpelling_quotedPoint hquote) t

theorem quotes_quoted (s : String) : Quotes (quoted s).toList [s.toList] := by
  have hquote := isKeyChar_quoteOf (s.toList.contains '\'') (s.toList.contains '"')
  rw [quoted, String.toList_ofList, quotedChars]
  simpa using quotes_between hquote (isSpelling_quotedChar hquote) s.toList

end TemplateAudit.Rules.AccessKey
