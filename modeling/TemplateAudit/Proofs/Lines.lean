import Mathlib.Tactic.ByContra
import TemplateAudit.Proofs.Document
import TemplateAudit.Yaml.Mark

/-!
# TemplateAudit.Proofs.Lines

Two ways to count lines: cutting a text at its breaks, and reading it character by character.

`splitLines` looks for breaks of one or two characters. A reader does not: it asks of one
character at a time, and of the one after it, whether a line ends there (`Cursor.endsLine`).
`splitLineChars_cons` says that the cut can be made that way too, so that all that follows goes by
plain induction on the text:

* a character that ends a line puts an empty line in front,
* the carriage return of a pair changes nothing, as its line feed ends the line,
* any other character belongs to the first line.

`exists_located` is what a position amounts to: the line that the reader counts holds the
character, as far from its start as the position is from the last break.
-/

namespace TemplateAudit

namespace Text

open TemplateAudit.Yaml.Cursor (endsLine)

/-! ### Cutting character by character -/

/-- Lines with one more character in front. -/
def onFirst (c : Char) : List (List Char) → List (List Char)
  | [] => [[c]]
  | l :: ls => (c :: l) :: ls

theorem onFirst_getElem?_zero {c : Char} {ls : List (List Char)} {l : List Char}
    (h : ls[0]? = some l) : (onFirst c ls)[0]? = some (c :: l) := by
  cases ls with
  | nil => cases h
  | cons m ls =>
      obtain rfl : m = l := Option.some.inj h
      rfl

theorem onFirst_getElem?_succ (c : Char) (ls : List (List Char)) (i : Nat) :
    (onFirst c ls)[i + 1]? = ls[i + 1]? := by
  cases ls <;> rfl

/-- A break ends a line unless it is the carriage return of a pair. -/
theorem endsLine_iff {c : Char} {next : Option Char} :
    endsLine c next = true ↔ isBreak c = true ∧ ¬ (c = '\r' ∧ next = some '\n') := by
  unfold endsLine
  by_cases hc : c = '\r'
  · subst hc
    simp [isBreak]
  · simp [hc]

/-- A line ends with each of four characters, and with a carriage return that no line feed
follows. -/
theorem endsLine_iff_char {c : Char} {next : Option Char} :
    endsLine c next = true ↔ c = '\n' ∨ c.toNat = 0x85 ∨ c.toNat = 0x2028 ∨ c.toNat = 0x2029 ∨
      (c = '\r' ∧ next ≠ some '\n') := by
  unfold endsLine
  by_cases hc : c = '\r'
  · subst hc
    simp
  · simp [isBreak, hc, or_assoc]

/-- The lines of a text, by its first character. -/
theorem splitLineChars_cons (c : Char) (cs : List Char) :
    splitLineChars (c :: cs) =
      if endsLine c cs.head? then [] :: splitLineChars cs
      else if isBreak c then splitLineChars cs
      else onFirst c (splitLineChars cs) := by
  by_cases hpair : c = '\r' ∧ cs.head? = some '\n'
  · obtain ⟨rfl, hhead⟩ := hpair
    obtain ⟨rest, rfl⟩ := List.head?_eq_some_iff.mp hhead
    -- the line feed alone cuts off the same empty line
    have hfeed : splitLineChars ('\n' :: rest) = [] :: splitLineChars rest := by
      rw [splitLineChars.eq_3 _ _ (by simp), if_pos (by rfl)]
    rw [splitLineChars, hfeed]
    rfl
  · have hnot : ∀ rest, c = '\r' → cs = '\n' :: rest → False := fun rest hc hcs =>
      hpair ⟨hc, by rw [hcs]; rfl⟩
    rw [splitLineChars.eq_3 c cs hnot]
    by_cases hbreak : isBreak c = true
    · rw [if_pos hbreak, if_pos (endsLine_iff.mpr ⟨hbreak, hpair⟩)]
    · rw [if_neg hbreak, if_neg fun h => hbreak (endsLine_iff.mp h).1, if_neg hbreak]
      cases splitLineChars cs <;> rfl

/-- What is a break and ends no line is the carriage return of a pair. -/
theorem pair_of_not_endsLine {c : Char} {next : Option Char} (h : ¬ endsLine c next = true)
    (hbreak : isBreak c = true) : c = '\r' ∧ next = some '\n' := by
  by_contra hpair
  exact h (endsLine_iff.mpr ⟨hbreak, hpair⟩)

theorem splitLineChars_of_endsLine {c : Char} {cs : List Char} (h : endsLine c cs.head? = true) :
    splitLineChars (c :: cs) = [] :: splitLineChars cs := by
  rw [splitLineChars_cons, if_pos h]

theorem splitLineChars_of_plain {c : Char} {cs : List Char} (h : isBreak c = false) :
    splitLineChars (c :: cs) = onFirst c (splitLineChars cs) := by
  have hends : ¬ endsLine c cs.head? = true := fun hends => by
    rw [(endsLine_iff.mp hends).1] at h
    cases h
  rw [splitLineChars_cons, if_neg hends, if_neg (by simp [h])]

/-! ### Cutting line by line -/

/-- Characters without a break before one that ends a line are that line. -/
theorem splitLineChars_append_of_endsLine {line cs : List Char} {c : Char}
    (h : ∀ d ∈ line, isBreak d = false) (hc : endsLine c cs.head? = true) :
    splitLineChars (line ++ c :: cs) = line :: splitLineChars cs := by
  induction line with
  | nil => exact splitLineChars_of_endsLine hc
  | cons d line ih =>
      rw [List.cons_append, splitLineChars_of_plain (h d List.mem_cons_self),
        ih fun e he => h e (List.mem_cons_of_mem d he), onFirst]

theorem splitLineChars_append_pair {line : List Char} (h : ∀ d ∈ line, isBreak d = false)
    (cs : List Char) : splitLineChars (line ++ '\r' :: '\n' :: cs) = line :: splitLineChars cs := by
  induction line with
  | nil => rw [List.nil_append, splitLineChars]
  | cons d line ih =>
      rw [List.cons_append, splitLineChars_of_plain (h d List.mem_cons_self),
        ih fun e he => h e (List.mem_cons_of_mem d he), onFirst]

theorem splitLineChars_of_forall {line : List Char} (h : ∀ d ∈ line, isBreak d = false)
    (hne : line ≠ []) : splitLineChars line = [line] := by
  induction line with
  | nil => cases hne rfl
  | cons d line ih =>
      rw [splitLineChars_of_plain (h d List.mem_cons_self)]
      cases line with
      | nil => rfl
      | cons e line =>
          rw [ih (fun e he => h e (List.mem_cons_of_mem d he)) (List.cons_ne_nil e line), onFirst]

theorem splitLineChars_ne_nil {cs : List Char} (h : cs ≠ []) : splitLineChars cs ≠ [] := by
  fun_cases splitLineChars cs with
  | case1 => exact absurd rfl h
  | case2 | case3 | case4 | case5 => exact List.cons_ne_nil _ _

theorem onFirst_append (c : Char) {ls : List (List Char)} (h : ls ≠ []) (ms : List (List Char)) :
    onFirst c (ls ++ ms) = onFirst c ls ++ ms := by
  cases ls with
  | nil => exact absurd rfl h
  | cons l ls => rfl

/-- The lines behind a character that ends a line are those of the text behind it. -/
theorem splitLineChars_append_cons (before : List Char) {c : Char} {cs : List Char}
    (h : endsLine c cs.head? = true) :
    splitLineChars (before ++ c :: cs) = splitLineChars (before ++ [c]) ++ splitLineChars cs := by
  induction before with
  | nil =>
      have hlast : endsLine c none = true := by
        refine endsLine_iff.mpr ⟨(endsLine_iff.mp h).1, ?_⟩
        rintro ⟨-, hnext⟩
        cases hnext
      rw [List.nil_append, List.nil_append, splitLineChars_of_endsLine h,
        splitLineChars_of_endsLine hlast]
      rfl
  | cons d before ih =>
      have hhead : (before ++ c :: cs).head? = (before ++ [c]).head? := by cases before <;> rfl
      rw [List.cons_append, List.cons_append, splitLineChars_cons, splitLineChars_cons, ih, hhead]
      split
      case isTrue => rfl
      case isFalse =>
          split
          case isTrue => rfl
          case isFalse => exact onFirst_append d (splitLineChars_ne_nil (by simp)) _

/-! ### Where lines start -/

/-- The line of a position starts just after the last break before it, or with the text. -/
structure IsLineStart (cs : List Char) (position start : Nat) : Prop where
  le : start ≤ position
  /-- There is no break in between. -/
  unbroken : ∀ i c, start ≤ i → i < position → cs[i]? = some c → isBreak c = false
  /-- There is one just before, unless the text starts here. -/
  after_break : start = 0 ∨ ∃ c, cs[start - 1]? = some c ∧ isBreak c = true

namespace IsLineStart

variable {cs : List Char} {c : Char} {position start : Nat}

/-- A line has one start only. -/
theorem unique {other : Nat} (h : IsLineStart cs position start)
    (h' : IsLineStart cs position other) : start = other := by
  -- the break before the later start would lie behind the earlier one
  have hle : ∀ {a b : Nat}, IsLineStart cs position a → IsLineStart cs position b → b ≤ a := by
    intro a b ha hb
    by_contra hlt
    rcases hb.after_break with hzero | ⟨d, hd, hbreak⟩
    · omega
    · have hplain := ha.unbroken (b - 1) d (by omega) (by have := hb.le; omega) hd
      rw [hplain] at hbreak
      cases hbreak
  exact Nat.le_antisymm (hle h' h) (hle h h')

/-- Behind a break, or where there was a break before, a start only moves along. -/
theorem cons_moved (h : IsLineStart cs position start) (hc : start ≠ 0 ∨ isBreak c = true) :
    IsLineStart (c :: cs) (position + 1) (start + 1) := by
  refine ⟨Nat.succ_le_succ h.le, ?_, Or.inr ?_⟩
  · intro i d hi hlt hd
    obtain ⟨j, rfl⟩ : ∃ j, i = j + 1 := ⟨i - 1, by omega⟩
    exact h.unbroken j d (by omega) (by omega) hd
  · rcases h.after_break with rfl | ⟨d, hd, hbreak⟩
    · exact ⟨c, rfl, hc.resolve_left (by simp)⟩
    · cases start with
      | zero => exact ⟨c, rfl, hc.resolve_left (by simp)⟩
      | succ start => exact ⟨d, hd, hbreak⟩

/-- The first line still starts with the text after one more character that is no break. -/
theorem cons_first (h : IsLineStart cs position 0) (hc : isBreak c = false) :
    IsLineStart (c :: cs) (position + 1) 0 := by
  refine ⟨Nat.zero_le _, ?_, Or.inl rfl⟩
  intro i d _ hlt hd
  cases i with
  | zero =>
      obtain rfl : c = d := Option.some.inj hd
      exact hc
  | succ i => exact h.unbroken i d (Nat.zero_le i) (by omega) hd

end IsLineStart

/-! ### Counting -/

/-- How many lines end before a position. -/
def linesBefore : List Char → Nat → Nat
  | _, 0 => 0
  | [], _ + 1 => 0
  | c :: cs, p + 1 => linesBefore cs p + if endsLine c cs.head? then 1 else 0

/-- No more lines end than there are. -/
theorem linesBefore_le (cs : List Char) (p : Nat) :
    linesBefore cs p ≤ (splitLineChars cs).length := by
  induction cs generalizing p with
  | nil => cases p <;> exact Nat.zero_le _
  | cons c cs ih =>
      cases p with
      | zero => exact Nat.zero_le _
      | succ p =>
          have hrest := ih p
          rw [linesBefore, splitLineChars_cons]
          split
          case isTrue => rw [List.length_cons]; omega
          case isFalse =>
              split
              case isTrue => exact hrest
              case isFalse =>
                  refine Nat.le_trans hrest ?_
                  cases splitLineChars cs with
                  | nil => exact Nat.zero_le _
                  | cons l ls => exact Nat.le_refl _

/-- A character at a position, found again in its line. -/
structure Located (cs : List Char) (p : Nat) (c : Char) (start : Nat) (row : List Char) :
    Prop where
  isStart : IsLineStart cs p start
  /-- On the first line nothing was counted, and only there. -/
  first_iff : start = 0 ↔ linesBefore cs p = 0
  /-- The line stands at the place that was counted. -/
  at_place : (splitLineChars cs)[linesBefore cs p]? = some row
  /-- The character is as far from its start as the position is. -/
  at_offset : row[p - start]? = some c

namespace Located

variable {cs row : List Char} {c d : Char} {p start : Nat}

theorem head (hplain : isBreak c = false) :
    Located (c :: cs) 0 c 0 ((onFirst c (splitLineChars cs)).headD []) := by
  refine ⟨⟨Nat.le_refl 0, ?_, Or.inl rfl⟩, Iff.rfl, ?_, ?_⟩
  · intro i _ _ hlt
    exact absurd hlt (Nat.not_lt_zero i)
  · rw [splitLineChars_of_plain hplain, linesBefore]
    cases splitLineChars cs <;> rfl
  · cases splitLineChars cs <;> rfl

/-- One more character in front moves what lies behind a break. -/
theorem cons_moved (h : Located cs p c start row) (hd : start ≠ 0 ∨ isBreak d = true)
    (hcount : linesBefore (d :: cs) (p + 1) ≠ 0)
    (hline : (splitLineChars (d :: cs))[linesBefore (d :: cs) (p + 1)]? = some row) :
    Located (d :: cs) (p + 1) c (start + 1) row := by
  refine ⟨h.isStart.cons_moved hd, ?_, hline, ?_⟩
  · simp [hcount]
  · rw [Nat.add_sub_add_right]
    exact h.at_offset

theorem cons_endsLine (h : Located cs p c start row) (hends : endsLine d cs.head? = true) :
    Located (d :: cs) (p + 1) c (start + 1) row := by
  refine h.cons_moved (Or.inr (endsLine_iff.mp hends).1) (by simp [linesBefore, hends]) ?_
  rw [linesBefore, if_pos hends, splitLineChars_of_endsLine hends]
  exact h.at_place

/-- Behind the carriage return of a pair there is its line feed, so the first line is over. -/
theorem ne_zero_of_pair (h : Located cs p c start row) (hget : cs[p]? = some c)
    (hplain : isBreak c = false) (hfeed : cs.head? = some '\n') : start ≠ 0 := by
  rintro rfl
  rw [List.head?_eq_getElem?] at hfeed
  cases p with
  | zero =>
      obtain rfl : '\n' = c := Option.some.inj (hfeed.symm.trans hget)
      cases hplain
  | succ p => cases h.isStart.unbroken 0 '\n' (Nat.le_refl 0) (Nat.zero_lt_succ p) hfeed

theorem cons_return (h : Located cs p c start row) (hends : ¬ endsLine d cs.head? = true)
    (hbreak : isBreak d = true) (hne : start ≠ 0) :
    Located (d :: cs) (p + 1) c (start + 1) row := by
  have hcount : linesBefore (d :: cs) (p + 1) = linesBefore cs p := by
    rw [linesBefore, if_neg hends, Nat.add_zero]
  refine h.cons_moved (Or.inl hne) ?_ ?_
  · rw [hcount]
    exact fun hzero => hne (h.first_iff.mpr hzero)
  · rw [hcount, splitLineChars_cons, if_neg hends, if_pos hbreak]
    exact h.at_place

/-- A character that is no break makes the first line longer and leaves the others alone. -/
theorem cons_plain (h : Located cs p c start row) (hd : isBreak d = false) :
    ∃ start' row', Located (d :: cs) (p + 1) c start' row' := by
  have hends : ¬ endsLine d cs.head? = true := fun hends => by
    rw [(endsLine_iff.mp hends).1] at hd
    cases hd
  have hcount : linesBefore (d :: cs) (p + 1) = linesBefore cs p := by
    rw [linesBefore, if_neg hends, Nat.add_zero]
  cases hk : linesBefore cs p with
  | zero =>
      obtain rfl := h.first_iff.mpr hk
      have hline := h.at_place
      rw [hk] at hline
      refine ⟨0, d :: row, h.isStart.cons_first hd, ?_, ?_, h.at_offset⟩
      · simp [hcount, hk]
      · rw [hcount, hk, splitLineChars_of_plain hd]
        exact onFirst_getElem?_zero hline
  | succ k =>
      have hline := h.at_place
      rw [hk] at hline
      have hne : start ≠ 0 := fun hzero => by
        rw [h.first_iff.mp hzero] at hk
        cases hk
      refine ⟨start + 1, row, h.cons_moved (Or.inl hne) ?_ ?_⟩
      · simp [hcount, hk]
      · rw [hcount, hk, splitLineChars_of_plain hd, onFirst_getElem?_succ]
        exact hline

end Located

/-- Every character that is no break is found again in its line. -/
theorem exists_located {cs : List Char} {p : Nat} {c : Char} (hget : cs[p]? = some c)
    (hplain : isBreak c = false) : ∃ start row, Located cs p c start row := by
  induction cs generalizing p with
  | nil => cases hget
  | cons d cs ih =>
      cases p with
      | zero =>
          obtain rfl : d = c := Option.some.inj hget
          exact ⟨_, _, .head hplain⟩
      | succ p =>
          obtain ⟨start, row, h⟩ := ih (p := p) hget
          by_cases hends : endsLine d cs.head? = true
          · exact ⟨_, _, h.cons_endsLine hends⟩
          · by_cases hbreak : isBreak d = true
            · have hfeed := (pair_of_not_endsLine hends hbreak).2
              exact ⟨_, _, h.cons_return hends hbreak (h.ne_zero_of_pair hget hplain hfeed)⟩
            · exact h.cons_plain (by simpa using hbreak)

end Text

/-! ### The reader -/

namespace Yaml.Cursor

variable {c : Cursor}

/-- At the end of the text a reader stays where it is. -/
theorem advance_of_nil (h : c.rest = []) : c.advance = c := by
  unfold advance
  rw [h]

/-- One character is read, and a line is counted if it ends one. -/
theorem advance_of_cons {ch : Char} {cs : List Char} (h : c.rest = ch :: cs) :
    c.advance.rest = cs ∧ c.advance.line = c.line + if endsLine ch cs.head? then 1 else 0 := by
  unfold advance
  rw [h]
  dsimp only
  split
  case isTrue => exact ⟨rfl, rfl⟩
  case isFalse => split <;> exact ⟨rfl, rfl⟩

/-- What a reader counts over some characters depends on nothing but these. -/
theorem skip_line (c : Cursor) (p : Nat) :
    (c.skip p).line = c.line + Text.linesBefore c.rest p := by
  induction p generalizing c with
  | zero => rw [skip, Text.linesBefore, Nat.add_zero]
  | succ p ih =>
      rw [skip, ih]
      cases hrest : c.rest with
      | nil =>
          rw [advance_of_nil hrest, hrest]
          cases p <;> rfl
      | cons ch cs =>
          obtain ⟨hrest', hline⟩ := advance_of_cons hrest
          rw [hrest', hline, Text.linesBefore]
          omega

/-- The reader after one more character. -/
theorem skip_succ (c : Cursor) (p : Nat) : c.skip (p + 1) = (c.skip p).advance := by
  induction p generalizing c with
  | zero => rfl
  | succ p ih => rw [skip, ih, skip]

theorem skip_rest (c : Cursor) (p : Nat) : (c.skip p).rest = c.rest.drop p := by
  induction p generalizing c with
  | zero => rfl
  | succ p ih =>
      rw [skip, ih]
      cases hrest : c.rest with
      | nil => rw [advance_of_nil hrest, hrest, List.drop_nil, List.drop_nil]
      | cons ch cs => rw [(advance_of_cons hrest).1, List.drop_succ_cons]

end Yaml.Cursor

/-- A line is found under the number that is one more than its place. -/
theorem Document.line_ofPlainText {text l : String} {token : Text} {i : Nat}
    (h : (Text.splitLines text)[i]? = some l) :
    (ofPlainText text token).line (i + 1) = .ok { number := i + 1, text := l } := by
  have hget : (ofPlainText text token).lines[i]? = some { number := i + 1, text := l } := by
    rw [ofPlainText, getElem?_numberFrom, h, Int.add_comm]
    rfl
  unfold Document.line
  rw [if_pos (by omega), show ((i : Int) + 1 - 1).toNat = i by omega, hget]

/-- A reader of a text counts lines as `splitLines` cuts them. It starts on line 0 and counts one
more with every character that ends a line. So for every position with a character that is no
break, the line that it counts on the way there is the one that holds the character, as far from
its start as the position is from the last break before; its number is one more than what the
mark says. At the end of the text no more lines are counted than there are. -/
theorem reader_counts_lines (text : String) (token : Text) :
    let cs := text.toList
    let reader (p : Nat) : Yaml.Cursor := (Yaml.Cursor.start cs).skip p
    (reader 0).line = 0 ∧
    (∀ p c, cs[p]? = some c →
      (reader (p + 1)).line = (reader p).line +
        if c = '\n' ∨ c.toNat = 0x85 ∨ c.toNat = 0x2028 ∨ c.toNat = 0x2029 ∨
          (c = '\r' ∧ cs[p + 1]? ≠ some '\n') then 1 else 0) ∧
    (∀ p c, cs[p]? = some c → Text.isBreak c = false →
      ∃ start line, (∀ i, Text.IsLineStart cs p i ↔ i = start) ∧
        (Text.splitLines text)[(reader p).line]? = some line ∧
        line.toList[p - start]? = some c ∧
        (Document.ofPlainText text token).line ((reader p).mark.line + 1) =
          .ok { number := (reader p).mark.line + 1, text := line }) ∧
    (reader cs.length).line ≤ (Text.splitLines text).length := by
  intro cs reader
  have hline : ∀ p, (reader p).line = Text.linesBefore cs p := fun p => by
    rw [Yaml.Cursor.skip_line]
    exact Nat.zero_add _
  refine ⟨rfl, ?_, ?_, ?_⟩
  · intro p c hget
    have hrest : (reader p).rest = c :: cs.drop (p + 1) := by
      obtain ⟨hlt, rfl⟩ := List.getElem?_eq_some_iff.mp hget
      rw [Yaml.Cursor.skip_rest]
      exact List.drop_eq_getElem_cons hlt
    have hstep := (Yaml.Cursor.advance_of_cons hrest).2
    rw [← Yaml.Cursor.skip_succ, List.head?_drop] at hstep
    exact hstep.trans (congrArg (_ + ·) (if_congr Text.endsLine_iff_char rfl rfl))
  · intro p c hget hplain
    obtain ⟨start, row, h⟩ := Text.exists_located hget hplain
    have hplace : (Text.splitLines text)[(reader p).line]? = some (String.ofList row) := by
      rw [hline, Text.splitLines, List.getElem?_map, h.at_place]
      rfl
    refine ⟨start, String.ofList row, ?_, hplace, ?_, Document.line_ofPlainText hplace⟩
    · exact fun i => ⟨fun hi => hi.unique h.isStart, fun hi => hi ▸ h.isStart⟩
    · rw [String.toList_ofList]
      exact h.at_offset
  · rw [hline, Text.splitLines, List.length_map]
    exact Text.linesBefore_le cs cs.length

end TemplateAudit
