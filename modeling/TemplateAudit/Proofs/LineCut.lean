import Mathlib.Data.List.Basic
import TemplateAudit.Proofs.Lines

/-!
# TemplateAudit.Proofs.LineCut

Cutting a text into lines loses nothing, and there is **one way** to do it
(`splitLines_unique_cut`).

A text is lines and breaks in turn. `IsCut` says which lines and breaks make a text up: no line
holds a character of a break, a carriage return and the line feed behind it are one break, and a
line without a break after it is the last one and not empty. `Cut` says the same by recursion, a
line and the break after it at a time (`Cut.isCut`, `IsCut.cut`). The recursion fits both ways of
the proof: the lines that `splitLineChars` makes and the breaks that `breaksOf` finds are such a cut
(`cut_splitLineChars`), and any other cut is the same (`Cut.eq_splitLineChars`).

The lines are also the pieces between the breaks, without the empty one that a break at the end of
the text leaves behind it (`splitLineChars_eq_pieces`).
-/

namespace TemplateAudit.Text

open TemplateAudit.Yaml.Cursor (endsLine)

/-! ### Pieces between breaks -/

/-- The pieces between the breaks of a text. -/
def pieces : List Char → List (List Char)
  | [] => [[]]
  | '\r' :: '\n' :: cs => [] :: pieces cs
  | c :: cs => if isBreak c then [] :: pieces cs else onFirst c (pieces cs)

/-- Pieces without the last one if that is empty. -/
def dropEmptyLast (ls : List (List Char)) : List (List Char) :=
  if ls.getLast? = some [] then ls.dropLast else ls

theorem pieces_ne_nil (cs : List Char) : pieces cs ≠ [] := by
  fun_cases pieces cs with
  | case1 | case2 | case3 => simp
  | case4 c cs => cases pieces cs <;> simp [onFirst]

theorem dropEmptyLast_cons {l : List Char} {ls : List (List Char)} (h : ls ≠ []) :
    dropEmptyLast (l :: ls) = l :: dropEmptyLast ls := by
  cases ls with
  | nil => exact absurd rfl h
  | cons m ls =>
    unfold dropEmptyLast
    rw [List.getLast?_cons_cons, List.dropLast_cons_cons]
    split <;> rfl

theorem dropEmptyLast_onFirst (c : Char) {ls : List (List Char)} (h : ls ≠ []) :
    dropEmptyLast (onFirst c ls) = onFirst c (dropEmptyLast ls) := by
  cases ls with
  | nil => exact absurd rfl h
  | cons l ls =>
      cases ls with
      | nil => cases l <;> rfl
      | cons m ls =>
          rw [onFirst, dropEmptyLast_cons (List.cons_ne_nil m ls),
            dropEmptyLast_cons (List.cons_ne_nil m ls), onFirst]

/-- The lines of a text are the pieces between its breaks, and a break at its end opens no line. -/
theorem splitLineChars_eq_pieces (cs : List Char) :
    splitLineChars cs = dropEmptyLast (pieces cs) := by
  fun_induction pieces cs with
  | case1 => rfl
  | case2 cs ih => rw [splitLineChars, ih, dropEmptyLast_cons (pieces_ne_nil cs)]
  | case3 c cs hpair hbreak ih =>
      rw [splitLineChars.eq_3 c cs hpair, if_pos hbreak, ih, dropEmptyLast_cons (pieces_ne_nil cs)]
  | case4 c cs hpair hplain ih =>
      rw [splitLineChars_of_plain (by simpa using hplain), ih,
        dropEmptyLast_onFirst c (pieces_ne_nil cs)]

/-! ### Breaks -/

/-- A break, as it is written. -/
inductive Break
  | pair
  | carriageReturn
  | lineFeed
  | nextLine
  | lineSeparator
  | paragraphSeparator
  deriving DecidableEq, Repr

namespace Break

/-- The characters of a break. -/
def chars : Break → List Char
  | .pair => ['\r', '\n']
  | .carriageReturn => ['\r']
  | .lineFeed => ['\n']
  | .nextLine => ['\u0085']
  | .lineSeparator => ['\u2028']
  | .paragraphSeparator => ['\u2029']

/-- The breaks of one character. -/
def singles : List Break :=
  [.carriageReturn, .lineFeed, .nextLine, .lineSeparator, .paragraphSeparator]

/-- The break that a character is by itself. -/
def ofChar? (c : Char) : Option Break := singles.find? fun b => b.chars == [c]

end Break

/-- The characters that breaks are written with. -/
def breakChars : List Char := ['\r', '\n', '\u0085', '\u2028', '\u2029']

/-- The breaks of a text. -/
def breaksOf : List Char → List Break
  | [] => []
  | '\r' :: '\n' :: cs => .pair :: breaksOf cs
  | c :: cs => (Break.ofChar? c).toList ++ breaksOf cs

/-- A text ends with a break. -/
def EndsWithBreak (cs : List Char) : Prop := ∃ b : Break, b.chars <:+ cs

variable {c : Char} {l cs : List Char} {b : Break} {ls : List (List Char)} {bs : List Break}

theorem isBreak_iff : isBreak c = true ↔ c ∈ breakChars := by
  have hcode (d : Char) : c.toNat = d.toNat ↔ c = d := Char.toNat_inj
  have hnext : c.toNat = 0x85 ↔ c = '\u0085' := hcode '\u0085'
  have hline : c.toNat = 0x2028 ↔ c = '\u2028' := hcode '\u2028'
  have hparagraph : c.toNat = 0x2029 ↔ c = '\u2029' := hcode '\u2029'
  simp only [isBreak, breakChars, Bool.or_eq_true, beq_iff_eq, hnext, hline, hparagraph,
    List.mem_cons, List.not_mem_nil, or_false, or_assoc]
  exact or_left_comm

theorem isBreak_eq_false_iff : isBreak c = false ↔ c ∉ breakChars := by
  rw [← isBreak_iff, Bool.not_eq_true]

namespace Break

theorem ofChar?_eq_some_iff : ofChar? c = some b ↔ b.chars = [c] := by
  constructor
  · intro h
    have hchars := List.find?_some h
    exact eq_of_beq hchars
  · intro h
    cases b with
    | pair => cases h
    | carriageReturn | lineFeed | nextLine | lineSeparator | paragraphSeparator =>
        cases h
        rfl

theorem exists_ofChar?_iff : (∃ b, ofChar? c = some b) ↔ isBreak c = true := by
  simp only [ofChar?_eq_some_iff, isBreak_iff, breakChars, List.mem_cons, List.not_mem_nil,
    or_false]
  constructor
  · rintro ⟨b, hb⟩
    cases b <;> cases hb <;> decide
  · rintro (rfl | rfl | rfl | rfl | rfl)
    · exact ⟨.carriageReturn, rfl⟩
    · exact ⟨.lineFeed, rfl⟩
    · exact ⟨.nextLine, rfl⟩
    · exact ⟨.lineSeparator, rfl⟩
    · exact ⟨.paragraphSeparator, rfl⟩

theorem chars_ne_nil (b : Break) : b.chars ≠ [] := by cases b <;> exact List.cons_ne_nil _ _

theorem exists_chars_of_ne (h : b ≠ .pair) : ∃ c, b.chars = [c] := by
  cases b with
  | pair => exact absurd rfl h
  | carriageReturn | lineFeed | nextLine | lineSeparator | paragraphSeparator => exact ⟨_, rfl⟩

end Break

theorem endsWithBreak_iff : EndsWithBreak cs ↔ ∃ c, cs.getLast? = some c ∧ isBreak c = true := by
  constructor
  · rintro ⟨b, before, rfl⟩
    rw [List.getLast?_append_of_ne_nil _ b.chars_ne_nil]
    cases b <;> exact ⟨_, rfl, by decide⟩
  · rintro ⟨c, hlast, hc⟩
    obtain ⟨b, hb⟩ := Break.exists_ofChar?_iff.mpr hc
    obtain ⟨before, rfl⟩ := List.getLast?_eq_some_iff.mp hlast
    exact ⟨b, before, by rw [Break.ofChar?_eq_some_iff.mp hb]⟩

instance (cs : List Char) : Decidable (EndsWithBreak cs) :=
  decidable_of_iff (cs.getLast?.any isBreak = true) (by rw [endsWithBreak_iff, Option.any_eq_true])

theorem endsWithBreak_append (h : cs ≠ []) (before : List Char) :
    EndsWithBreak (before ++ cs) ↔ EndsWithBreak cs := by
  rw [endsWithBreak_iff, endsWithBreak_iff, List.getLast?_append_of_ne_nil _ h]

/-- Behind a break a text ends with that one, or as what follows does. -/
theorem endsWithBreak_next :
    EndsWithBreak (l ++ (b.chars ++ cs)) ↔ cs = [] ∨ EndsWithBreak cs := by
  by_cases hcs : cs = []
  · subst hcs
    exact iff_of_true ⟨b, l, by rw [List.append_nil]⟩ (.inl rfl)
  · rw [← List.append_assoc, endsWithBreak_append hcs, or_iff_right hcs]

theorem not_endsWithBreak (h : ∀ c ∈ l, isBreak c = false) : ¬ EndsWithBreak l := by
  rw [endsWithBreak_iff]
  rintro ⟨c, hlast, hc⟩
  rw [h c (List.mem_of_getLast? hlast)] at hc
  cases hc

/-! ### Cuts -/

/-- Lines, each with the break after it as far as there are breaks. -/
def laidOut : List (List Char) → List Break → List Char
  | [], _ => []
  | l :: ls, [] => l ++ laidOut ls []
  | l :: ls, b :: bs => l ++ (b.chars ++ laidOut ls bs)

/-- A text is made of lines and breaks. -/
structure IsCut (cs : List Char) (lines : List (List Char)) (breaks : List Break) : Prop where
  /-- No line holds a character of a break. -/
  unbroken : ∀ l ∈ lines, ∀ c ∈ l, c ∉ breakChars
  /-- The text is the first line, the first break, the second line and so on. -/
  joined : cs = laidOut lines breaks
  /-- No carriage return is a break of its own if the next break is a line feed right behind it. -/
  paired : ∀ i, breaks[i]? = some .carriageReturn → lines[i + 1]? = some [] →
    breaks[i + 1]? ≠ some .lineFeed
  /-- Only the last line may have no break after it, and there are no other breaks. -/
  counts : breaks.length ≤ lines.length ∧ lines.length ≤ breaks.length + 1
  /-- It has none exactly if it is not empty and the text does not end with a break. -/
  last : breaks.length < lines.length ↔
    (∃ l, lines.getLast? = some l ∧ l ≠ []) ∧ ¬ EndsWithBreak cs

/-- A text is made of lines and breaks, one line after the other. -/
inductive Cut : List Char → List (List Char) → List Break → Prop
  | none : Cut [] [] []
  | last {l : List Char} (plain : ∀ c ∈ l, isBreak c = false) (hne : l ≠ []) : Cut l [l] []
  | next {l cs : List Char} {b : Break} {ls : List (List Char)} {bs : List Break}
      (plain : ∀ c ∈ l, isBreak c = false)
      (alone : b = .carriageReturn → cs.head? ≠ some '\n') (h : Cut cs ls bs) :
      Cut (l ++ (b.chars ++ cs)) (l :: ls) (b :: bs)

/-! ### The one cut -/

/-- A break of one character ends a line, as a line feed behind a carriage return is excluded. -/
theorem endsLine_of_chars (hchars : b.chars = [c])
    (alone : b = .carriageReturn → cs.head? ≠ some '\n') : endsLine c cs.head? = true := by
  refine endsLine_iff.mpr ⟨Break.exists_ofChar?_iff.mp ⟨b, ?_⟩, ?_⟩
  · exact Break.ofChar?_eq_some_iff.mpr hchars
  · rintro ⟨rfl, hfeed⟩
    have hreturn : Break.ofChar? '\r' = some b := Break.ofChar?_eq_some_iff.mpr hchars
    exact alone (Option.some.inj hreturn).symm hfeed

theorem splitLineChars_append_break (plain : ∀ c ∈ l, isBreak c = false)
    (alone : b = .carriageReturn → cs.head? ≠ some '\n') :
    splitLineChars (l ++ (b.chars ++ cs)) = l :: splitLineChars cs := by
  by_cases hpair : b = .pair
  · subst hpair
    exact splitLineChars_append_pair plain cs
  · obtain ⟨c, hc⟩ := Break.exists_chars_of_ne hpair
    rw [hc]
    exact splitLineChars_append_of_endsLine plain (endsLine_of_chars hc alone)

theorem breaksOf_of_not_pair (h : ¬ (c = '\r' ∧ cs.head? = some '\n')) :
    breaksOf (c :: cs) = (Break.ofChar? c).toList ++ breaksOf cs := by
  refine breaksOf.eq_3 c cs fun rest hc hcs => h ⟨hc, ?_⟩
  rw [hcs]
  rfl

theorem breaksOf_append (plain : ∀ c ∈ l, isBreak c = false) (cs : List Char) :
    breaksOf (l ++ cs) = breaksOf cs := by
  induction l with
  | nil => rfl
  | cons d l ih =>
      obtain ⟨hd, hl⟩ := List.forall_mem_cons.mp plain
      have hnone : Break.ofChar? d = none := by
        refine Option.eq_none_iff_forall_ne_some.mpr fun b hb => ?_
        rw [Break.exists_ofChar?_iff.mp ⟨b, hb⟩] at hd
        cases hd
      have hpair : ¬ (d = '\r' ∧ (l ++ cs).head? = some '\n') := by
        rintro ⟨rfl, -⟩
        cases hd
      rw [List.cons_append, breaksOf_of_not_pair hpair, hnone, ih hl]
      rfl

theorem breaksOf_break (alone : b = .carriageReturn → cs.head? ≠ some '\n') :
    breaksOf (b.chars ++ cs) = b :: breaksOf cs := by
  by_cases hpair : b = .pair
  · subst hpair
    exact breaksOf.eq_2 cs
  · obtain ⟨c, hc⟩ := Break.exists_chars_of_ne hpair
    have hends := endsLine_iff.mp (endsLine_of_chars hc alone)
    rw [hc, List.singleton_append, breaksOf_of_not_pair hends.2, Break.ofChar?_eq_some_iff.mpr hc]
    rfl

/-- There is no other cut. -/
theorem Cut.eq_splitLineChars (h : Cut cs ls bs) : ls = splitLineChars cs ∧ bs = breaksOf cs := by
  induction h with
  | none => exact ⟨rfl, rfl⟩
  | @last l plain hne =>
      have hbreaks := breaksOf_append plain []
      rw [List.append_nil] at hbreaks
      exact ⟨(splitLineChars_of_forall plain hne).symm, hbreaks.symm⟩
  | next plain alone _ ih =>
      rw [splitLineChars_append_break plain alone, breaksOf_append plain, breaksOf_break alone,
        ih.1, ih.2]
      exact ⟨rfl, rfl⟩

theorem Cut.onFirst (hc : isBreak c = false) (h : Cut cs ls bs) :
    Cut (c :: cs) (Text.onFirst c ls) bs := by
  cases h with
  | none => exact .last (by simpa using hc) (by simp)
  | last plain hne => exact .last (List.forall_mem_cons.mpr ⟨hc, plain⟩) (List.cons_ne_nil _ _)
  | next plain alone h => exact .next (List.forall_mem_cons.mpr ⟨hc, plain⟩) alone h

/-- The lines and the breaks of a text are a cut. -/
theorem cut_splitLineChars (cs : List Char) : Cut cs (splitLineChars cs) (breaksOf cs) := by
  have hempty : ∀ c ∈ ([] : List Char), isBreak c = false := fun _ h => nomatch h
  fun_induction splitLineChars cs with
  | case1 => exact .none
  | case2 cs ih => exact .next (b := .pair) hempty (fun h => nomatch h) ih
  | case3 c cs hpair hbreak ih =>
      obtain ⟨b, hb⟩ := Break.exists_ofChar?_iff.mpr hbreak
      have hchars := Break.ofChar?_eq_some_iff.mp hb
      have alone : b = .carriageReturn → cs.head? ≠ some '\n' := by
        rintro rfl hfeed
        obtain ⟨rest, hrest⟩ := List.head?_eq_some_iff.mp hfeed
        exact hpair rest (List.cons.inj hchars).1.symm hrest
      have hcut := ih.next hempty alone
      rwa [← breaksOf_break alone, hchars] at hcut
  | case4 c cs hpair hbreak hnil ih =>
      have hplain : isBreak c = false := by simpa using hbreak
      have hcut := ih.onFirst hplain
      rwa [hnil, ← breaksOf_append (l := [c]) (by simpa using hplain)] at hcut
  | case5 c cs hpair hbreak l ls hcons ih =>
      have hplain : isBreak c = false := by simpa using hbreak
      have hcut := ih.onFirst hplain
      rwa [hcons, ← breaksOf_append (l := [c]) (by simpa using hplain)] at hcut

/-! ### Cuts by recursion -/

theorem Cut.eq_nil (h : Cut [] ls bs) : ls = [] ∧ bs = [] := by
  have hsplit := h.eq_splitLineChars
  rwa [splitLineChars, breaksOf] at hsplit

theorem Cut.ne_nil (h : Cut cs ls bs) (hcs : cs ≠ []) : ls ≠ [] := by
  rw [h.eq_splitLineChars.1]
  exact splitLineChars_ne_nil hcs

theorem eq_lineFeed_of_head? (h : (b.chars ++ cs).head? = some '\n') : b = .lineFeed := by
  cases b with
  | lineFeed => rfl
  | pair | carriageReturn | nextLine | lineSeparator | paragraphSeparator => cases h

/-- A text that starts with a line feed is cut there first. -/
theorem Cut.ne_lineFeed (h : Cut cs ls bs) (hhead : cs.head? ≠ some '\n')
    (hempty : ls[0]? = some []) : bs[0]? ≠ some .lineFeed := by
  intro hfeed
  cases h with
  | none => cases hempty
  | last => cases hfeed
  | next =>
      obtain rfl := Option.some.inj hempty
      obtain rfl := Option.some.inj hfeed
      exact hhead rfl

theorem Cut.isCut (h : Cut cs ls bs) : IsCut cs ls bs := by
  induction h with
  | none => exact ⟨by simp, rfl, by simp, by simp, by simp⟩
  | @last l plain hne =>
      refine ⟨?_, ?_, by simp, by simp, ?_⟩
      · simpa [isBreak_eq_false_iff] using plain
      · simp [laidOut]
      · simp [hne, not_endsWithBreak plain]
  | @next l cs b ls bs plain alone h ih =>
      refine ⟨?_, ?_, ?_, ?_, ?_⟩
      · exact List.forall_mem_cons.mpr
          ⟨fun c hc => isBreak_eq_false_iff.mp (plain c hc), ih.unbroken⟩
      · rw [laidOut, ← ih.joined]
      · intro i hreturn hempty
        cases i with
        | zero => exact h.ne_lineFeed (alone (Option.some.inj hreturn)) hempty
        | succ i => exact ih.paired i hreturn hempty
      · have := ih.counts
        simp only [List.length_cons]
        omega
      · rw [List.length_cons, List.length_cons, Nat.add_lt_add_iff_right, ih.last,
          endsWithBreak_next, not_or]
        by_cases hcs : cs = []
        · obtain ⟨rfl, -⟩ := Cut.eq_nil (hcs ▸ h)
          simp [hcs]
        · -- the last line is one of the others
          have hlast : (l :: ls).getLast? = ls.getLast? :=
            List.getLast?_append_of_ne_nil [l] (h.ne_nil hcs)
          simp only [hlast, hcs, not_false_eq_true, true_and]

theorem mem_laidOut (h : l ∈ ls) (hc : c ∈ l) : c ∈ laidOut ls bs := by
  induction ls generalizing bs with
  | nil => cases h
  | cons m ls ih =>
      cases bs with
      | nil =>
          rcases List.mem_cons.mp h with rfl | h
          · exact List.mem_append_left _ hc
          · exact List.mem_append_right _ (ih h)
      | cons b bs =>
          rcases List.mem_cons.mp h with rfl | h
          · exact List.mem_append_left _ hc
          · exact List.mem_append_right _ (List.mem_append_right _ (ih h))

namespace IsCut

/-- What follows the first break is cut as well. -/
theorem tail (h : IsCut cs (l :: ls) (b :: bs)) : IsCut (laidOut ls bs) ls bs := by
  have hcounts := h.counts
  rw [List.length_cons, List.length_cons] at hcounts
  refine ⟨(List.forall_mem_cons.mp h.unbroken).2, rfl, fun i => h.paired (i + 1), by omega, ?_⟩
  have hlast := h.last
  rw [List.length_cons, List.length_cons, Nat.add_lt_add_iff_right, h.joined, laidOut,
    endsWithBreak_next, not_or] at hlast
  by_cases hls : ls = []
  · subst hls
    simp
  · rw [show (l :: ls).getLast? = ls.getLast? from List.getLast?_append_of_ne_nil [l] hls] at hlast
    by_cases hrest : laidOut ls bs = []
    · -- nothing is left of the text, so the last line is empty
      have hempty : ¬ ∃ m, ls.getLast? = some m ∧ m ≠ [] := by
        rintro ⟨m, hm, hne⟩
        obtain ⟨c, hc⟩ := List.exists_mem_of_ne_nil m hne
        have hmem : c ∈ laidOut ls bs := mem_laidOut (List.mem_of_getLast? hm) hc
        rw [hrest] at hmem
        cases hmem
      exact hlast.trans ⟨fun h => absurd h.1 hempty, fun h => absurd h.1 hempty⟩
    · simpa only [hrest, not_false_eq_true, true_and] using hlast

/-- No line feed stands behind a carriage return that is a break of its own. -/
theorem alone (h : IsCut cs (l :: ls) (b :: bs)) (hb : b = .carriageReturn) :
    (laidOut ls bs).head? ≠ some '\n' := by
  intro hfeed
  cases ls with
  | nil => cases hfeed
  | cons m ls =>
      by_cases hm : m = []
      · subst hm
        cases bs with
        | nil =>
            have hcounts := h.counts.2
            obtain rfl : ls = [] := by simpa using hcounts
            cases hfeed
        | cons b' bs =>
            have hnext : b' = .lineFeed := eq_lineFeed_of_head? hfeed
            exact h.paired 0 (congrArg some hb) rfl (congrArg some hnext)
      · obtain ⟨rest, hrest⟩ : ∃ rest, laidOut (m :: ls) bs = m ++ rest := by
          cases bs <;> exact ⟨_, rfl⟩
        rw [hrest, List.head?_append_of_ne_nil _ hm] at hfeed
        exact h.unbroken m (by simp) '\n' (List.mem_of_head? hfeed) (by decide)

theorem cut (h : IsCut cs ls bs) : Cut cs ls bs := by
  induction ls generalizing cs bs with
  | nil =>
      obtain rfl : bs = [] := List.eq_nil_of_length_eq_zero (Nat.le_zero.mp h.counts.1)
      rw [h.joined]
      exact .none
  | cons l ls ih =>
      cases bs with
      | nil =>
          have hl := (List.forall_mem_cons.mp h.unbroken).1
          obtain rfl : ls = [] := by simpa using h.counts.2
          obtain ⟨⟨m, hm, hne⟩, -⟩ := h.last.mp Nat.zero_lt_one
          obtain rfl : l = m := Option.some.inj hm
          rw [h.joined, laidOut, laidOut, List.append_nil]
          exact .last (fun c hc => isBreak_eq_false_iff.mpr (hl c hc)) hne
      | cons b bs =>
          have hl := (List.forall_mem_cons.mp h.unbroken).1
          rw [h.joined]
          exact .next (fun c hc => isBreak_eq_false_iff.mpr (hl c hc)) h.alone (ih h.tail)

end IsCut

/-- A text is cut into its lines at its breaks, and in no other way. -/
theorem isCut_iff : IsCut cs ls bs ↔ ls = splitLineChars cs ∧ bs = breaksOf cs := by
  constructor
  · exact fun h => h.cut.eq_splitLineChars
  · rintro ⟨rfl, rfl⟩
    exact (cut_splitLineChars cs).isCut

theorem Cut.length_eq (h : Cut cs ls bs) :
    ls.length = bs.length + if cs ≠ [] ∧ ¬ EndsWithBreak cs then 1 else 0 := by
  induction h with
  | none => simp
  | last plain hne => simp [hne, not_endsWithBreak plain]
  | @next l cs b ls bs plain alone h ih =>
      have hsame : l ++ (b.chars ++ cs) ≠ [] ∧ ¬ EndsWithBreak (l ++ (b.chars ++ cs)) ↔
          cs ≠ [] ∧ ¬ EndsWithBreak cs := by
        rw [endsWithBreak_next, not_or]
        simp [b.chars_ne_nil]
      rw [List.length_cons, List.length_cons, ih, if_congr hsame rfl rfl, Nat.add_right_comm]

/-- A text is its lines and its breaks in turn, and there are no other lines and breaks that it is
made of in the sense of `IsCut`. It has as many lines as breaks, and one more if there is something
behind the last break. -/
theorem splitLines_unique_cut (text : String) :
    (∀ (lines : List String) (breaks : List Break),
      IsCut text.toList (lines.map String.toList) breaks ↔
        lines = splitLines text ∧ breaks = breaksOf text.toList) ∧
    (splitLines text).length = (breaksOf text.toList).length +
      if text ≠ "" ∧ ¬ EndsWithBreak text.toList then 1 else 0 := by
  constructor
  · intro lines breaks
    have hlines : lines.map String.toList = splitLineChars text.toList ↔
        lines = splitLines text := by
      rw [splitLines]
      constructor
      · intro h
        simp [← h]
      · rintro rfl
        simp
    rw [isCut_iff, hlines]
  · have hempty : text ≠ "" ↔ text.toList ≠ [] := by simp
    rw [splitLines, List.length_map, (cut_splitLineChars text.toList).length_eq,
      if_congr (and_congr_left' hempty) rfl rfl]

end TemplateAudit.Text
