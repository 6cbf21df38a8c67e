import Mathlib.Data.List.Chain
import TemplateAudit.Json.Printer
import TemplateAudit.Json.Reader

/-!
# TemplateAudit.Proofs.Json

What `Json.indented` writes, `Json.parse?` reads back, and all of it is ASCII.

A text is written unit by unit, so that the two halves of a pair, side by side, could not be told
from the character that they make. `Text.IsWhole` leaves such texts out and no others: every
`String` is whole, and halves that stand alone are as well.

* `readText?_whole`: a whole text is read back, whatever escapes it takes.
* `Plain.readsBack`: a document without doubles is read back at any level, up to what follows it.
  The induction is over the document; fuel for twice the number of characters is enough.
* `Plain.parse?_indented` and `Plain.isAscii`: the two together for a whole document.
-/

namespace TemplateAudit

/-- No first half of a pair stands right before a second half, where the two would be taken for
the character that they make. -/
def Text.IsWhole (t : Text) : Prop := t.IsChain fun p q => Json.isPair p.code q.code = false

namespace Json

open TemplateAudit.Text (Point hexDigit? hexPadded isAsciiDigit)

/-! ### Units -/

theorem hexDigit?_digitChar {d : Nat} (h : d < 16) : hexDigit? d.digitChar = some d := by
  have hall : ∀ d < 16, hexDigit? d.digitChar = some d := by decide
  exact hall d h

theorem hexPadded_one {n : Nat} (h : n < 16) : hexPadded 1 n = [n.digitChar] := by
  simp [hexPadded, Text.digits, Nat.toDigits_of_lt_base h]

/-- The last digit apart, a number is padded like its quotient. -/
theorem hexPadded_succ (width n : Nat) :
    hexPadded (width + 2) n = hexPadded (width + 1) (n / 16) ++ [(n % 16).digitChar] := by
  by_cases hn : n < 16
  · have hdiv : n / 16 = 0 := Nat.div_eq_of_lt hn
    rw [hdiv, Nat.mod_eq_of_lt hn, hexPadded, hexPadded, Text.digits, Text.digits,
      Nat.toDigits_of_lt_base hn, Nat.toDigits_zero]
    simp [List.replicate_succ']
  · rw [hexPadded, hexPadded, Text.digits, Text.digits,
      Nat.toDigits_of_base_le (by decide) (Nat.le_of_not_lt hn)]
    simp

/-- The four digits of a unit read back as the unit. -/
theorem exists_hexPadded_four {n : Nat} (h : n < 0x10000) :
    ∃ a b c d, hexPadded 4 n = [a, b, c, d] ∧ readUnit? a b c d = some n := by
  refine ⟨(n / 16 / 16 / 16).digitChar, (n / 16 / 16 % 16).digitChar, (n / 16 % 16).digitChar,
    (n % 16).digitChar, ?_, ?_⟩
  · rw [hexPadded_succ, hexPadded_succ, hexPadded_succ, hexPadded_one (by omega)]
    rfl
  · have hmod : ∀ m : Nat, m % 16 < 16 := fun m => Nat.mod_lt m (by decide)
    simp only [readUnit?, hexDigit?_digitChar (hmod _),
      hexDigit?_digitChar (show n / 16 / 16 / 16 < 16 by omega), Option.bind_eq_bind,
      Option.bind_some, Option.pure_def, Option.some.injEq]
    omega

/-! ### Texts -/

/-- What is read with one more code point before it. -/
def withPoint (p : Point) (read : Option (Text × List Char)) : Option (Text × List Char) :=
  read.map fun r => (p :: r.1, r.2)

theorem bind_eq_withPoint (p : Point) (read : Option (Text × List Char)) :
    (read.bind fun (t, rest) => some (p :: t, rest)) = withPoint p read := by
  cases read <;> rfl

/-- An escaped unit stands at the start of a text. -/
def LeadsUnit (cs : List Char) (n : Nat) : Prop :=
  ∃ a b c d rest, cs = '\\' :: 'u' :: a :: b :: c :: d :: rest ∧ readUnit? a b c d = some n

theorem leadsUnit_escapeUnit {n m : Nat} (hn : n < 0x10000) {cs : List Char} :
    LeadsUnit (escapeUnit n ++ cs) m ↔ m = n := by
  obtain ⟨a, b, c, d, hdigits, hunit⟩ := exists_hexPadded_four hn
  rw [escapeUnit, hdigits]
  constructor
  · rintro ⟨a', b', c', d', rest, heq, hm⟩
    simp only [List.cons_append, List.cons.injEq] at heq
    obtain ⟨-, -, rfl, rfl, rfl, rfl, -⟩ := heq
    exact Option.some.inj (hm.symm.trans hunit)
  · rintro rfl
    exact ⟨a, b, c, d, cs, rfl, hunit⟩

theorem readText?_eq_none_of_unit {a b c d : Char} (h : readUnit? a b c d = none)
    (cs : List Char) : readText? ('\\' :: 'u' :: a :: b :: c :: d :: cs) = none := by
  by_cases hnext : ∃ a' b' c' d' rest, cs = '\\' :: 'u' :: a' :: b' :: c' :: d' :: rest
  · obtain ⟨a', b', c', d', rest, rfl⟩ := hnext
    rw [readText?.eq_3, h]
    rfl
  · rw [readText?.eq_4 a b c d cs fun a' b' c' d' rest heq => hnext ⟨a', b', c', d', rest, heq⟩, h]
    rfl

/-- A unit that is not the first half of a pair is a code point of its own. -/
theorem readText?_escapeUnit {n : Nat} (hn : n < 0x10000) {cs : List Char}
    (h : ∀ m, LeadsUnit cs m → isPair n m = false) :
    readText? (escapeUnit n ++ cs) = withPoint (.ofCode n) (readText? cs) := by
  obtain ⟨a, b, c, d, hdigits, hunit⟩ := exists_hexPadded_four hn
  rw [escapeUnit, hdigits]
  show readText? ('\\' :: 'u' :: a :: b :: c :: d :: cs) = _
  by_cases hnext : ∃ a' b' c' d' rest, cs = '\\' :: 'u' :: a' :: b' :: c' :: d' :: rest
  · obtain ⟨a', b', c', d', rest, rfl⟩ := hnext
    rw [readText?.eq_3, hunit]
    cases hlow : readUnit? a' b' c' d' with
    | none =>
        rw [readText?_eq_none_of_unit hlow]
        rfl
    | some m =>
        have hpair := h m ⟨a', b', c', d', rest, rfl, hlow⟩
        simp only [hpair, Option.bind_eq_bind, Option.bind_some, Bool.false_eq_true, if_false]
        exact bind_eq_withPoint _ _
  · rw [readText?.eq_4 a b c d cs fun a' b' c' d' rest heq => hnext ⟨a', b', c', d', rest, heq⟩,
      hunit]
    exact bind_eq_withPoint _ _

/-- A pair of units is one character. -/
theorem readText?_pair {high low : Nat} (h : isPair high low = true) (cs : List Char) :
    readText? (escapeUnit high ++ (escapeUnit low ++ cs)) =
      withPoint (.char (pairChar high low)) (readText? cs) := by
  have hbounds := h
  simp only [isPair, Bool.and_eq_true, decide_eq_true_eq] at hbounds
  obtain ⟨a, b, c, d, hdigits, hunit⟩ := exists_hexPadded_four (n := high) (by omega)
  obtain ⟨a', b', c', d', hdigits', hunit'⟩ := exists_hexPadded_four (n := low) (by omega)
  rw [escapeUnit, escapeUnit, hdigits, hdigits']
  show readText? ('\\' :: 'u' :: a :: b :: c :: d :: '\\' :: 'u' :: a' :: b' :: c' :: d' :: cs) = _
  rw [readText?.eq_3, hunit, hunit']
  simp only [h, Option.bind_eq_bind, Option.bind_some, if_true]
  exact bind_eq_withPoint _ _

theorem readText?_plain {c : Char} (hlow : 0x20 ≤ c.toNat) (hquote : c ≠ '"') (hslash : c ≠ '\\')
    (cs : List Char) : readText? (c :: cs) = withPoint (.char c) (readText? cs) := by
  rw [readText?.eq_14 c cs hquote (fun _ _ _ _ _ _ _ _ _ h _ => hslash h)
    (fun _ _ _ _ _ h _ => hslash h) (fun _ _ h _ => hslash h), if_neg (by omega)]
  exact bind_eq_withPoint _ _

/-! ### Characters -/

/-- The numbers of characters are no surrogates. -/
theorem toNat_char (c : Char) : c.toNat < 0xD800 ∨ 0xDFFF < c.toNat ∧ c.toNat < 0x110000 := c.valid

theorem ofCode_toNat (c : Char) : Point.ofCode c.toNat = .char c := by
  have hc := toNat_char c
  rw [Point.ofCode, dif_neg (by omega), Char.ofNat_toNat]

theorem isPair_of_char (c : Char) (m : Nat) : isPair c.toNat m = false := by
  have hc := toNat_char c
  simp only [isPair, Bool.and_eq_false_iff, decide_eq_false_iff_not]
  omega

/-- The ways in which a character is written inside a text. -/
inductive Escaped (c : Char) : List Char → Prop
  /-- By a letter of its own. -/
  | letter {l : Char} (hl : l ≠ 'u') (hascii : l.toNat < 0x80)
      (hread : ∀ cs, readText? ('\\' :: l :: cs) = withPoint (.char c) (readText? cs)) :
      Escaped c ['\\', l]
  /-- As it is. -/
  | plain (hlow : 0x20 ≤ c.toNat) (hascii : c.toNat < 0x80) (hquote : c ≠ '"') (hslash : c ≠ '\\') :
      Escaped c [c]
  | unit (h : c.toNat < 0x10000) : Escaped c (escapeUnit c.toNat)
  | pair {high low : Nat} (h : isPair high low = true) (hc : pairChar high low = c) :
      Escaped c (escapeUnit high ++ escapeUnit low)

theorem escaped_letter {c l : Char} (hl : l ≠ 'u' ∧ l.toNat < 0x80)
    (hread : ∀ cs, readText? ('\\' :: l :: cs) =
      (some c).bind fun e => (readText? cs).bind fun (t, rest) => some (.char e :: t, rest)) :
    Escaped c ['\\', l] :=
  .letter hl.1 hl.2 fun cs => (hread cs).trans (bind_eq_withPoint _ _)

theorem escaped_units (c : Char) : Escaped c ((utf16Units c).flatMap escapeUnit) := by
  have hc := toNat_char c
  unfold utf16Units
  by_cases hn : c.toNat < 0x10000
  · simp only [hn, if_true, List.flatMap_cons, List.flatMap_nil, List.append_nil]
    exact .unit hn
  · simp only [hn, if_false, List.flatMap_cons, List.flatMap_nil, List.append_nil]
    refine .pair ?_ ?_
    · simp only [isPair, Bool.and_eq_true, decide_eq_true_eq]
      omega
    · have hcode : 0x10000 + (0xD800 + (c.toNat - 0x10000) / 0x400 - 0xD800) * 0x400 +
          (0xDC00 + (c.toNat - 0x10000) % 0x400 - 0xDC00) = c.toNat := by omega
      rw [pairChar, hcode, Char.ofNat_toNat]

theorem escaped_escapeChar (c : Char) : Escaped c (escapeChar c) := by
  unfold escapeChar
  simp only [beq_iff_eq, Bool.and_eq_true, decide_eq_true_eq]
  split
  case isTrue h =>
      subst h
      exact escaped_letter (by decide) readText?.eq_5
  split
  case isTrue h =>
      subst h
      exact escaped_letter (by decide) readText?.eq_6
  split
  case isTrue h =>
      subst h
      exact escaped_letter (by decide) readText?.eq_10
  split
  case isTrue h =>
      subst h
      exact escaped_letter (by decide) readText?.eq_11
  split
  case isTrue h =>
      subst h
      exact escaped_letter (by decide) readText?.eq_12
  split
  case isTrue h =>
      obtain rfl : c = Char.ofNat 0x08 := by rw [← h, Char.ofNat_toNat]
      exact escaped_letter (by decide) readText?.eq_8
  split
  case isTrue h =>
      obtain rfl : c = Char.ofNat 0x0C := by rw [← h, Char.ofNat_toNat]
      exact escaped_letter (by decide) readText?.eq_9
  split
  case isTrue h => exact .plain h.1 (by omega) ‹_› ‹_›
  case isFalse => exact escaped_units c

namespace Escaped

variable {c : Char} {written : List Char}

theorem readText? (h : Escaped c written) (cs : List Char) :
    Json.readText? (written ++ cs) = withPoint (.char c) (Json.readText? cs) := by
  cases h with
  | letter _ _ hread => exact hread cs
  | plain hlow _ hquote hslash => exact readText?_plain hlow hquote hslash cs
  | unit hc =>
      rw [readText?_escapeUnit hc fun m _ => isPair_of_char c m, ofCode_toNat]
  | pair hpair hc => rw [List.append_assoc, readText?_pair hpair, hc]

/-- A unit that leads is the character itself or the first half of a pair. -/
theorem leadsUnit (h : Escaped c written) {cs : List Char} {m : Nat}
    (hm : LeadsUnit (written ++ cs) m) : m < 0xDC00 ∨ m = c.toNat := by
  cases h with
  | letter hl _ _ =>
      obtain ⟨a, b, c', d, rest, heq, -⟩ := hm
      simp only [List.cons_append, List.cons.injEq] at heq
      exact absurd heq.2.1 hl
  | plain _ _ _ hslash =>
      obtain ⟨a, b, c', d, rest, heq, -⟩ := hm
      simp only [List.cons_append, List.cons.injEq] at heq
      exact absurd heq.1 hslash
  | unit hc => exact Or.inr ((leadsUnit_escapeUnit hc).mp hm)
  | pair hpair _ =>
      simp only [isPair, Bool.and_eq_true, decide_eq_true_eq] at hpair
      rw [List.append_assoc, leadsUnit_escapeUnit (by omega)] at hm
      omega

end Escaped

/-! ### Code points -/

theorem isWhole_ofString (s : String) : (Text.ofString s).IsWhole := by
  have hpair : s.toList.Pairwise fun c d =>
      isPair (Point.char c).code (Point.char d).code = false :=
    List.pairwise_of_forall fun c d => isPair_of_char c d.toNat
  exact (List.pairwise_map.mpr hpair).isChain

theorem ofCode_code (p : Point) : Point.ofCode p.code = p := by
  cases p with
  | char c => exact ofCode_toNat c
  | surrogate offset =>
      have hoffset := offset.isLt
      rw [Point.ofCode, dif_pos (by simp only [Point.code]; omega)]
      simp [Point.code]

theorem leadsUnit_escapePoint {p : Point} {cs : List Char} {m : Nat}
    (h : LeadsUnit (escapePoint p ++ cs) m) : m < 0xDC00 ∨ m = p.code := by
  cases p with
  | char c => exact (escaped_escapeChar c).leadsUnit h
  | surrogate offset =>
      have hoffset := offset.isLt
      refine Or.inr ((leadsUnit_escapeUnit ?_).mp h)
      simp only [Point.code]
      omega

/-- A code point is read back unless it could be taken for half of the next one. -/
theorem readText?_escapePoint {p : Point} {cs : List Char}
    (h : ∀ m, LeadsUnit cs m → isPair p.code m = false) :
    readText? (escapePoint p ++ cs) = withPoint p (readText? cs) := by
  cases p with
  | char c => exact (escaped_escapeChar c).readText? cs
  | surrogate offset =>
      have hoffset := offset.isLt
      have hcode : (Point.surrogate offset).code < 0x10000 := by
        simp only [Point.code]
        omega
      have hread := readText?_escapeUnit hcode h
      rwa [ofCode_code] at hread

/-- Up to its closing quote, a whole text is read back. -/
theorem readText?_whole {t : Text} (h : t.IsWhole) (rest : List Char) :
    readText? (t.flatMap escapePoint ++ '"' :: rest) = some (t, rest) := by
  induction t with
  | nil => exact readText?.eq_2 rest
  | cons p t ih =>
      have hnext : ∀ m, LeadsUnit (t.flatMap escapePoint ++ '"' :: rest) m →
          isPair p.code m = false := by
        intro m hm
        cases t with
        | nil =>
            obtain ⟨a, b, c, d, rest', heq, -⟩ := hm
            exact absurd (List.cons.inj heq).1 (by decide)
        | cons q t =>
            rw [List.flatMap_cons, List.append_assoc] at hm
            rcases leadsUnit_escapePoint hm with hlow | rfl
            · simp only [isPair, Bool.and_eq_false_iff, decide_eq_false_iff_not]
              omega
            · exact (List.isChain_cons_cons.mp h).1
      rw [List.flatMap_cons, List.append_assoc, readText?_escapePoint hnext, ih h.tail]
      rfl

/-! ### Numbers -/

/-- What follows a number and is no part of it. -/
def Stops (rest : List Char) : Prop :=
  ∀ c ∈ rest.head?, isAsciiDigit c = false ∧ c ≠ '.' ∧ c ≠ 'e' ∧ c ≠ 'E'

theorem isAsciiDigit_of_mem {n : Nat} {c : Char} (h : c ∈ Nat.toDigits 10 n) :
    isAsciiDigit c = true := by
  have hdigit := Nat.isDigit_of_mem_toDigits (by decide) (by decide) h
  simpa [Char.isDigit, isAsciiDigit, Char.le_def] using hdigit

theorem takeDigits_toDigits (n : Nat) {rest : List Char} (h : Stops rest) :
    takeDigits (Nat.toDigits 10 n ++ rest) = (Nat.toDigits 10 n, rest) := by
  have hall : ∀ c ∈ Nat.toDigits 10 n, isAsciiDigit c = true := fun c hc => isAsciiDigit_of_mem hc
  have hrest : rest.takeWhile isAsciiDigit = [] ∧ rest.dropWhile isAsciiDigit = rest := by
    cases rest with
    | nil => exact ⟨rfl, rfl⟩
    | cons c rest =>
        have hc := (h c rfl).1
        simp [hc]
  rw [takeDigits, List.takeWhile_append_of_pos hall, List.dropWhile_append_of_pos hall, hrest.1,
    hrest.2, List.append_nil]

/-- A decimal starts with a zero only if it is zero. -/
theorem eq_zero_of_toDigits {n : Nat} {ds : List Char} (h : Nat.toDigits 10 n = '0' :: ds) :
    n = 0 := by
  induction n using Nat.strongRecOn generalizing ds with
  | ind n ih =>
      by_cases hn : n < 10
      · rw [Nat.toDigits_of_lt_base hn] at h
        have hall : ∀ d < 10, d.digitChar = '0' → d = 0 := by decide
        exact hall n hn (List.cons.inj h).1
      · -- the first digit is that of the quotient, which is not zero
        rw [Nat.toDigits_of_base_le (by decide) (Nat.le_of_not_lt hn)] at h
        obtain ⟨d, rest, hd⟩ :=
          List.exists_cons_of_ne_nil (Nat.toDigits_ne_nil (n := n / 10) (b := 10))
        rw [hd, List.cons_append] at h
        have hzero := ih (n / 10) (by omega) (hd.trans (by rw [(List.cons.inj h).1]))
        omega

theorem readWhole?_toDigits (n : Nat) {rest : List Char} (h : Stops rest) :
    readWhole? (Nat.toDigits 10 n ++ rest) = some (Nat.toDigits 10 n, rest) := by
  rw [readWhole?, takeDigits_toDigits n h]
  split
  case h_1 heq => exact absurd (congrArg Prod.fst heq) Nat.toDigits_ne_nil
  case h_2 heq => rw [heq]
  case h_3 hne heq =>
      obtain ⟨hds, rfl⟩ := Prod.mk.inj heq
      obtain rfl := eq_zero_of_toDigits hds
      rw [Nat.toDigits_zero] at hds
      exact absurd (List.cons.inj hds).2.symm hne
  case h_4 heq => rw [heq]

theorem readFraction?_of_stops {rest : List Char} (h : Stops rest) :
    readFraction? rest = some ([], rest) := by
  cases rest with
  | nil => rfl
  | cons c rest =>
      have hc := (h c rfl).2.1
      rw [readFraction?]
      intro cs heq
      exact hc (List.cons.inj heq).1

theorem readPower?_of_stops {rest : List Char} (h : Stops rest) :
    readPower? rest = some (none, rest) := by
  cases rest with
  | nil => rfl
  | cons c rest =>
      obtain ⟨-, -, he, hE⟩ := h c rfl
      simp [readPower?, he, hE]

theorem ofDigits_toDigits (n : Nat) :
    Number.ofDigits 10 ((Nat.toDigits 10 n).map (·.toNat - '0'.toNat)) = n := by
  conv => rhs; rw [← Nat.ofDigitChars_ten_toDigits (n := n), Nat.ofDigitChars_eq_foldl]
  simp only [Number.ofDigits, List.foldl_map, Nat.mul_comm]

theorem readUnsigned?_toDigits (neg : Bool) (n : Nat) {rest : List Char} (h : Stops rest) :
    readUnsigned? neg (Nat.toDigits 10 n ++ rest) =
      some (.int (if neg then -Int.ofNat n else Int.ofNat n), rest) := by
  simp only [readUnsigned?, readWhole?_toDigits n h, readFraction?_of_stops h,
    readPower?_of_stops h, Option.bind_eq_bind, Option.bind_some, List.append_nil,
    ofDigits_toDigits]
  rfl

theorem exists_toDigits (n : Nat) :
    ∃ d ds, Nat.toDigits 10 n = d :: ds ∧ isAsciiDigit d = true := by
  obtain ⟨d, ds, hd⟩ := List.exists_cons_of_ne_nil (Nat.toDigits_ne_nil (n := n) (b := 10))
  exact ⟨d, ds, hd, isAsciiDigit_of_mem (hd ▸ List.mem_cons_self)⟩

theorem ne_of_isAsciiDigit {d c : Char} (hd : isAsciiDigit d = true) (hc : isAsciiDigit c = false) :
    d ≠ c := by
  rintro rfl
  rw [hc] at hd
  cases hd

theorem afterWord?_digit {w d : Char} {word cs : List Char} (hw : isAsciiDigit w = false)
    (hd : isAsciiDigit d = true) : afterWord? (w :: word) (d :: cs) = none := by
  have hne := (ne_of_isAsciiDigit hd hw).symm
  simp [afterWord?, hne]

theorem readMagnitude?_toDigits (neg : Bool) (n : Nat) {rest : List Char} (h : Stops rest) :
    readMagnitude? neg (Nat.toDigits 10 n ++ rest) =
      some (.int (if neg then -Int.ofNat n else Int.ofNat n), rest) := by
  obtain ⟨d, ds, hds, hd⟩ := exists_toDigits n
  have hword : afterWord? "Infinity".toList (Nat.toDigits 10 n ++ rest) = none := by
    rw [hds]
    exact afterWord?_digit (by decide) hd
  rw [readMagnitude?, hword]
  exact readUnsigned?_toDigits neg n h

/-- An integer is read back. -/
theorem readNumber?_intChars (n : Int) {rest : List Char} (h : Stops rest) :
    readNumber? (intChars n ++ rest) = some (.int n, rest) := by
  unfold intChars
  split
  case isTrue hn =>
      rw [List.append_assoc]
      show readMagnitude? true (Nat.toDigits 10 n.natAbs ++ rest) = _
      have hneg : (if true then -Int.ofNat n.natAbs else Int.ofNat n.natAbs) = n := by
        show -(n.natAbs : Int) = n
        omega
      rw [readMagnitude?_toDigits true n.natAbs h, hneg]
  case isFalse hn =>
      obtain ⟨d, ds, hds, hd⟩ := exists_toDigits n.natAbs
      have hread : readNumber? (Nat.toDigits 10 n.natAbs ++ rest) =
          readMagnitude? false (Nat.toDigits 10 n.natAbs ++ rest) := by
        have hword : afterWord? "NaN".toList (Nat.toDigits 10 n.natAbs ++ rest) = none := by
          rw [hds]
          exact afterWord?_digit (by decide) hd
        rw [readNumber?, hword]
        intro cs heq
        rw [hds] at heq
        exact ne_of_isAsciiDigit hd (by decide) (List.cons.inj heq).1
      have hpos : (if false then -Int.ofNat n.natAbs else Int.ofNat n.natAbs) = n := by
        show (n.natAbs : Int) = n
        omega
      rw [List.nil_append, hread, readMagnitude?_toDigits false n.natAbs h, hpos]

theorem exists_intChars (n : Int) :
    ∃ c cs, intChars n = c :: cs ∧ (c = '-' ∨ isAsciiDigit c = true) := by
  obtain ⟨d, ds, hds, hd⟩ := exists_toDigits n.natAbs
  unfold intChars
  split
  case isTrue => exact ⟨_, _, rfl, Or.inl rfl⟩
  case isFalse => exact ⟨d, ds, hds, Or.inr hd⟩

/-! ### Blanks -/

theorem skipSpaces_newLine (level : Nat) (cs : List Char) :
    skipSpaces (newLine level ++ cs) = skipSpaces cs := by
  have hall : ∀ c ∈ newLine level, isSpace c = true := by
    intro c hc
    rcases List.mem_cons.mp hc with rfl | hc
    · rfl
    · rw [List.eq_of_mem_replicate hc]
      rfl
  exact List.dropWhile_append_of_pos hall

theorem skipSpaces_cons {c : Char} (h : isSpace c = false) (cs : List Char) :
    skipSpaces (c :: cs) = c :: cs := by
  simp [skipSpaces, h]

theorem skipSpaces_skipSpaces (cs : List Char) : skipSpaces (skipSpaces cs) = skipSpaces cs := by
  induction cs with
  | nil => rfl
  | cons c cs ih =>
      cases hc : isSpace c with
      | true => simpa [skipSpaces, hc] using ih
      | false => simp [skipSpaces, hc]

theorem readJson?_skipSpaces (fuel : Nat) (cs : List Char) :
    readJson? fuel (skipSpaces cs) = readJson? fuel cs := by
  cases fuel with
  | zero => rfl
  | succ fuel => rw [readJson?, readJson?, skipSpaces_skipSpaces]

theorem readItems?_skipSpaces (fuel : Nat) (cs : List Char) :
    readItems? fuel (skipSpaces cs) = readItems? fuel cs := by
  cases fuel with
  | zero => rfl
  | succ fuel => rw [readItems?, readItems?, readJson?_skipSpaces]

theorem readMembers?_skipSpaces (fuel : Nat) (cs : List Char) :
    readMembers? fuel (skipSpaces cs) = readMembers? fuel cs := by
  cases fuel with
  | zero => rfl
  | succ fuel => rw [readMembers?, readMembers?, skipSpaces_skipSpaces]

/-! ### Documents -/

/-- A document without doubles, all of whose texts are whole. -/
inductive Plain : Json → Prop
  | null : Plain .null
  | bool (b : Bool) : Plain (.bool b)
  | int (n : Int) : Plain (.int n)
  | text {t : Text} (h : t.IsWhole) : Plain (.text t)
  | list {items : List Json} (h : ∀ j ∈ items, Plain j) : Plain (.list items)
  | object {members : List (Text × Json)} (hnames : ∀ m ∈ members, m.1.IsWhole)
      (h : ∀ m ∈ members, Plain m.2) : Plain (.object members)

/-- Written at any level, a document is read back up to what follows it. Twice the number of its
characters is fuel enough. -/
def ReadsBack (j : Json) : Prop :=
  ∀ level fuel rest, 2 * (indentedChars level j).length ≤ fuel → Stops rest →
    readJson? fuel (indentedChars level j ++ rest) = some (j, rest)

/-- What a document can start with: no blank and no closing bracket. -/
def opens (c : Char) : Bool := !isSpace c && c != ']' && c != '\x7d'

theorem opens_of_isAsciiDigit {c : Char} (h : isAsciiDigit c = true) : opens c = true := by
  have hne : ∀ d, isAsciiDigit d = false → c ≠ d := fun d hd => ne_of_isAsciiDigit h hd
  simp [opens, isSpace, hne ' ' rfl, hne '\n' rfl, hne '\r' rfl, hne '\t' rfl, hne ']' rfl,
    hne '\x7d' rfl]

theorem exists_opens {j : Json} (h : Plain j) (level : Nat) :
    ∃ c cs, indentedChars level j = c :: cs ∧ opens c = true := by
  cases h with
  | null => exact ⟨'n', _, rfl, rfl⟩
  | bool b =>
      cases b with
      | false => exact ⟨'f', _, rfl, rfl⟩
      | true => exact ⟨'t', _, rfl, rfl⟩
  | int n =>
      obtain ⟨c, cs, hcs, hc⟩ := exists_intChars n
      refine ⟨c, cs, hcs, ?_⟩
      rcases hc with rfl | hc
      · rfl
      · exact opens_of_isAsciiDigit hc
  | text _ => exact ⟨_, _, rfl, rfl⟩
  | @list items _ =>
      by_cases hitems : items = []
      · subst hitems
        exact ⟨_, _, rfl, rfl⟩
      · exact ⟨_, _, indentedChars.eq_2 level items hitems, rfl⟩
  | @object members _ _ =>
      by_cases hmembers : members = []
      · subst hmembers
        exact ⟨_, _, rfl, rfl⟩
      · exact ⟨_, _, indentedChars.eq_4 level members hmembers, rfl⟩

theorem stops_newLine (level : Nat) (rest : List Char) : Stops (newLine level ++ rest) := by
  intro c hc
  obtain rfl : '\n' = c := Option.some.inj hc
  decide

theorem stops_comma (rest : List Char) : Stops (',' :: rest) := by
  intro c hc
  obtain rfl : ',' = c := Option.some.inj hc
  decide

theorem skipSpaces_closing {c : Char} (h : isSpace c = false) (level : Nat) (rest : List Char) :
    skipSpaces (newLine level ++ c :: rest) = c :: rest := by
  rw [skipSpaces_newLine, skipSpaces_cons h]

theorem readJson?_newLine (fuel level : Nat) (cs : List Char) :
    readJson? fuel (newLine level ++ cs) = readJson? fuel cs := by
  rw [← readJson?_skipSpaces, skipSpaces_newLine, readJson?_skipSpaces]

theorem readItems?_indentedItems {items : List Json} (h : ∀ j ∈ items, ReadsBack j)
    (hsome : items ≠ []) {level outer fuel : Nat} {rest : List Char}
    (hfuel : 2 * (indentedItems level items).length ≤ fuel) :
    readItems? fuel (indentedItems level items ++ (newLine outer ++ ']' :: rest)) =
      some (items, rest) := by
  induction items generalizing fuel with
  | nil => exact absurd rfl hsome
  | cons j items ih =>
      have hj := h j List.mem_cons_self
      cases items with
      | nil =>
          rw [indentedItems, List.length_append, newLine, List.length_cons] at hfuel
          obtain ⟨fuel, rfl⟩ : ∃ k, fuel = k + 1 := ⟨fuel - 1, by omega⟩
          have hread := hj level fuel (newLine outer ++ ']' :: rest) (by omega) (stops_newLine _ _)
          rw [indentedItems, List.append_assoc, readItems?, readJson?_newLine, hread]
          simp [skipSpaces_closing (show isSpace ']' = false by decide)]
      | cons j' items =>
          rw [indentedItems.eq_3 _ _ _ (by simp)] at hfuel ⊢
          simp only [List.length_append, newLine, List.length_cons] at hfuel
          obtain ⟨fuel, rfl⟩ : ∃ k, fuel = k + 1 := ⟨fuel - 1, by omega⟩
          have hmore := ih (fun i hi => h i (List.mem_cons_of_mem j hi)) (by simp)
            (show 2 * (indentedItems level (j' :: items)).length ≤ fuel by omega)
          have hread := hj level fuel
            (',' :: (indentedItems level (j' :: items) ++ (newLine outer ++ ']' :: rest)))
            (by omega) (stops_comma _)
          rw [List.append_assoc, List.append_assoc, readItems?, readJson?_newLine, List.cons_append,
            hread]
          simp [skipSpaces_cons (show isSpace ',' = false by decide), hmore]

theorem skipSpaces_name (level : Nat) (name : Text) (cs : List Char) :
    skipSpaces (newLine level ++ (textChars name ++ cs)) =
      '"' :: (name.flatMap escapePoint ++ '"' :: cs) := by
  rw [skipSpaces_newLine, textChars, List.cons_append, List.cons_append, List.append_assoc,
    skipSpaces_cons (by decide)]
  rfl

theorem readJson?_space (fuel : Nat) (cs : List Char) :
    readJson? fuel (' ' :: cs) = readJson? fuel cs := by
  rw [← readJson?_skipSpaces, ← readJson?_skipSpaces fuel cs]
  rfl

/-- A member before the end of its object. -/
theorem readMembers?_last {name : Text} (h : name.IsWhole) {fuel level outer : Nat}
    {cs rest : List Char} {j : Json}
    (hread : readJson? fuel cs = some (j, newLine outer ++ '\x7d' :: rest)) :
    readMembers? (fuel + 1) (newLine level ++ (textChars name ++ ':' :: ' ' :: cs)) =
      some ([(name, j)], rest) := by
  rw [readMembers?, skipSpaces_name]
  simp [readText?_whole h, skipSpaces_cons (show isSpace ':' = false by decide), readJson?_space,
    hread, skipSpaces_closing (show isSpace '\x7d' = false by decide)]

/-- A member before others. -/
theorem readMembers?_more {name : Text} (h : name.IsWhole) {fuel level : Nat}
    {cs rest after : List Char} {j : Json} {members : List (Text × Json)}
    (hread : readJson? fuel cs = some (j, ',' :: rest))
    (hmore : readMembers? fuel rest = some (members, after)) :
    readMembers? (fuel + 1) (newLine level ++ (textChars name ++ ':' :: ' ' :: cs)) =
      some ((name, j) :: members, after) := by
  rw [readMembers?, skipSpaces_name]
  simp [readText?_whole h, skipSpaces_cons (show isSpace ':' = false by decide), readJson?_space,
    hread, skipSpaces_cons (show isSpace ',' = false by decide), hmore]

theorem readMembers?_indentedMembers {members : List (Text × Json)}
    (hnames : ∀ m ∈ members, m.1.IsWhole) (h : ∀ m ∈ members, ReadsBack m.2)
    (hsome : members ≠ []) {level outer fuel : Nat} {rest : List Char}
    (hfuel : 2 * (indentedMembers level members).length ≤ fuel) :
    readMembers? fuel (indentedMembers level members ++ (newLine outer ++ '\x7d' :: rest)) =
      some (members, rest) := by
  induction members generalizing fuel with
  | nil => exact absurd rfl hsome
  | cons m members ih =>
      obtain ⟨name, j⟩ := m
      have hname : name.IsWhole := hnames (name, j) List.mem_cons_self
      have hj : ReadsBack j := h (name, j) List.mem_cons_self
      cases members with
      | nil =>
          rw [indentedMembers] at hfuel ⊢
          simp only [List.length_append, newLine, List.length_cons] at hfuel
          obtain ⟨fuel, rfl⟩ : ∃ k, fuel = k + 1 := ⟨fuel - 1, by omega⟩
          simp only [List.append_assoc, List.cons_append]
          exact readMembers?_last hname (hj level fuel _ (by omega) (stops_newLine _ _))
      | cons m' members =>
          rw [indentedMembers.eq_3 _ _ _ _ (by simp)] at hfuel ⊢
          simp only [List.length_append, newLine, List.length_cons] at hfuel
          obtain ⟨fuel, rfl⟩ : ∃ k, fuel = k + 1 := ⟨fuel - 1, by omega⟩
          have hmore := ih (fun i hi => hnames i (List.mem_cons_of_mem _ hi))
            (fun i hi => h i (List.mem_cons_of_mem _ hi)) (by simp)
            (show 2 * (indentedMembers level (m' :: members)).length ≤ fuel by omega)
          simp only [List.append_assoc, List.cons_append]
          exact readMembers?_more hname (hj level fuel _ (by omega) (stops_comma _)) hmore

/-- Brackets that do not close at once hold items. -/
theorem readJson?_list {cs : List Char} (fuel : Nat)
    (h : ∀ rest, skipSpaces cs ≠ ']' :: rest) :
    readJson? (fuel + 1) ('[' :: cs) = (readItems? fuel cs).map fun r => (.list r.1, r.2) := by
  rw [readJson?, skipSpaces_cons (by decide), ← readItems?_skipSpaces fuel cs]
  -- the empty list is the other case of the match, which `h` leaves out
  simp only

/-- Braces that do not close at once hold members. -/
theorem readJson?_object {cs : List Char} (fuel : Nat)
    (h : ∀ rest, skipSpaces cs ≠ '\x7d' :: rest) :
    readJson? (fuel + 1) ('\x7b' :: cs) =
      (readMembers? fuel cs).map fun r => (.object r.1, r.2) := by
  rw [readJson?, skipSpaces_cons (by decide), ← readMembers?_skipSpaces fuel cs]
  simp only

theorem not_closing_indentedItems {j : Json} {items : List Json} (h : Plain j) (level : Nat)
    (after rest : List Char) :
    skipSpaces (indentedItems level (j :: items) ++ after) ≠ ']' :: rest := by
  obtain ⟨c, cs, hcs, hc⟩ := exists_opens h level
  simp only [opens, Bool.and_eq_true, Bool.not_eq_true', bne_iff_ne] at hc
  have hhead : ∃ more, indentedItems level (j :: items) ++ after = newLine level ++ c :: more := by
    cases items with
    | nil =>
        rw [indentedItems, hcs, List.append_assoc]
        exact ⟨_, rfl⟩
    | cons j' items =>
        rw [indentedItems.eq_3 _ _ _ (by simp), hcs]
        simp only [List.append_assoc]
        exact ⟨_, rfl⟩
  obtain ⟨more, hmore⟩ := hhead
  rw [hmore, skipSpaces_closing hc.1.1]
  intro heq
  exact hc.1.2 (List.cons.inj heq).1

theorem not_closing_indentedMembers (m : Text × Json) (members : List (Text × Json)) (level : Nat)
    (after rest : List Char) :
    skipSpaces (indentedMembers level (m :: members) ++ after) ≠ '\x7d' :: rest := by
  obtain ⟨name, j⟩ := m
  have hhead : ∃ more, indentedMembers level ((name, j) :: members) ++ after =
      newLine level ++ '"' :: more := by
    cases members with
    | nil =>
        rw [indentedMembers, List.append_assoc, List.append_assoc]
        exact ⟨_, rfl⟩
    | cons m' members =>
        rw [indentedMembers.eq_3 _ _ _ _ (by simp)]
        simp only [List.append_assoc]
        exact ⟨_, rfl⟩
  obtain ⟨more, hmore⟩ := hhead
  rw [hmore, skipSpaces_closing (by decide)]
  intro heq
  exact absurd (List.cons.inj heq).1 (by decide)

theorem readJson?_int (n : Int) (fuel : Nat) (rest : List Char) :
    readJson? (fuel + 1) (intChars n ++ rest) = readNumber? (intChars n ++ rest) := by
  obtain ⟨c, cs, hcs, hc⟩ := exists_intChars n
  rw [hcs, List.cons_append, readJson?]
  rcases hc with rfl | hc
  · rfl
  · have hne : ∀ d, isAsciiDigit d = false → c ≠ d := fun d hd => ne_of_isAsciiDigit hc hd
    have hspace : isSpace c = false := by
      simp [isSpace, hne ' ' rfl, hne '\n' rfl, hne '\r' rfl, hne '\t' rfl]
    rw [skipSpaces_cons hspace]
    split
    case h_7 => rfl
    all_goals
      rename_i heq
      exact absurd (List.cons.inj heq).1 (hne _ rfl)

/-- A document costs at least a unit of fuel. -/
theorem ReadsBack.of_succ {j : Json} (hj : Plain j)
    (h : ∀ level fuel rest, 2 * (indentedChars level j).length ≤ fuel + 1 → Stops rest →
      readJson? (fuel + 1) (indentedChars level j ++ rest) = some (j, rest)) : ReadsBack j := by
  intro level fuel rest hfuel hstops
  obtain ⟨c, cs, hcs, -⟩ := exists_opens hj level
  have hpos : 0 < (indentedChars level j).length := by simp [hcs]
  obtain ⟨fuel, rfl⟩ : ∃ k, fuel = k + 1 := ⟨fuel - 1, by omega⟩
  exact h level fuel rest hfuel hstops

theorem Plain.readsBack {j : Json} (h : Plain j) : ReadsBack j := by
  induction h with
  | null => exact .of_succ .null fun level fuel rest _ _ => rfl
  | bool b => exact .of_succ (.bool b) fun level fuel rest _ _ => by cases b <;> rfl
  | int n =>
      refine .of_succ (.int n) fun level fuel rest _ hstops => ?_
      show readJson? (fuel + 1) (intChars n ++ rest) = _
      rw [readJson?_int, readNumber?_intChars n hstops]
  | @text t ht =>
      refine .of_succ (.text ht) fun level fuel rest _ _ => ?_
      show readJson? (fuel + 1) ('"' :: (t.flatMap escapePoint ++ ['"']) ++ rest) = _
      rw [List.cons_append, List.append_assoc, readJson?, skipSpaces_cons (by decide)]
      simp [readText?_whole ht]
  | @list items hitems ih =>
      refine .of_succ (.list hitems) fun level fuel rest hfuel _ => ?_
      cases items with
      | nil => rfl
      | cons j items =>
          rw [indentedChars.eq_2 _ _ (by simp)] at hfuel ⊢
          simp only [List.length_append, List.length_cons] at hfuel
          simp only [List.cons_append, List.append_assoc, List.nil_append]
          rw [readJson?_list fuel (not_closing_indentedItems (hitems j List.mem_cons_self) _ _),
            readItems?_indentedItems ih (by simp) (by omega)]
          rfl
  | @object members hnames hmembers ih =>
      refine .of_succ (.object hnames hmembers) fun level fuel rest hfuel _ => ?_
      cases members with
      | nil => rfl
      | cons m members =>
          rw [indentedChars.eq_4 _ _ (by simp)] at hfuel ⊢
          simp only [List.length_append, List.length_cons] at hfuel
          simp only [List.cons_append, List.append_assoc, List.nil_append]
          rw [readJson?_object fuel (not_closing_indentedMembers m members _ _),
            readMembers?_indentedMembers hnames ih (by simp) (by omega)]
          rfl

/-- A plain document is read back from what is written for it. -/
theorem Plain.parse?_indented {j : Json} (h : Plain j) : parse? j.indented = some j := by
  have hread := h.readsBack 0 (2 * (indentedChars 0 j).length + 2) [] (by omega)
    (fun c hc => by cases hc)
  rw [List.append_nil] at hread
  rw [parse?, indented, String.toList_ofList, parseChars?, hread]
  rfl

/-! ### ASCII -/

/-- All characters are ASCII. -/
def IsAscii (cs : List Char) : Prop := ∀ c ∈ cs, c.toNat < 0x80

theorem isAscii_of_all {cs : List Char} (h : (cs.all fun c => c.toNat < 0x80) = true) :
    IsAscii cs := by
  simpa [IsAscii] using h

theorem isAscii_append {as bs : List Char} : IsAscii (as ++ bs) ↔ IsAscii as ∧ IsAscii bs :=
  List.forall_mem_append

theorem isAscii_cons {c : Char} {cs : List Char} :
    IsAscii (c :: cs) ↔ c.toNat < 0x80 ∧ IsAscii cs :=
  List.forall_mem_cons

theorem isAscii_nil : IsAscii [] := fun _ hc => nomatch hc

theorem isAscii_toDigits {base : Nat} (hbase : 1 < base ∧ base ≤ 16) (n : Nat) :
    IsAscii (Nat.toDigits base n) := by
  have hdigit : ∀ d < 16, d.digitChar.toNat < 0x80 := by decide
  induction n using Nat.strongRecOn with
  | ind n ih =>
      by_cases hn : n < base
      · rw [Nat.toDigits_of_lt_base hn]
        exact isAscii_cons.mpr ⟨hdigit n (by omega), isAscii_nil⟩
      · rw [Nat.toDigits_of_base_le hbase.1 (Nat.le_of_not_lt hn), isAscii_append, isAscii_cons]
        have hmod : n % base < base := Nat.mod_lt n (by omega)
        exact ⟨ih _ (Nat.div_lt_self (by omega) hbase.1), hdigit _ (by omega), isAscii_nil⟩

theorem isAscii_escapeUnit (n : Nat) : IsAscii (escapeUnit n) := by
  rw [escapeUnit, isAscii_cons, isAscii_cons, hexPadded, isAscii_append]
  refine ⟨by decide, by decide, ?_, isAscii_toDigits (by decide) n⟩
  intro c hc
  rw [List.eq_of_mem_replicate hc]
  decide

theorem isAscii_escapePoint (p : Point) : IsAscii (escapePoint p) := by
  cases p with
  | char c =>
      show IsAscii (escapeChar c)
      generalize hwritten : escapeChar c = written
      cases hwritten ▸ escaped_escapeChar c with
      | letter _ hascii _ =>
          exact isAscii_cons.mpr ⟨by decide, isAscii_cons.mpr ⟨hascii, isAscii_nil⟩⟩
      | plain _ hascii _ _ => exact isAscii_cons.mpr ⟨hascii, isAscii_nil⟩
      | unit _ => exact isAscii_escapeUnit _
      | pair _ _ => exact isAscii_append.mpr ⟨isAscii_escapeUnit _, isAscii_escapeUnit _⟩
  | surrogate offset => exact isAscii_escapeUnit _

theorem isAscii_textChars (t : Text) : IsAscii (textChars t) := by
  have hpoints : IsAscii (t.flatMap escapePoint) := by
    intro c hc
    obtain ⟨p, -, hc⟩ := List.mem_flatMap.mp hc
    exact isAscii_escapePoint p c hc
  rw [textChars, List.cons_append, isAscii_cons, isAscii_append, isAscii_cons]
  exact ⟨by decide, hpoints, by decide, isAscii_nil⟩

theorem isAscii_newLine (level : Nat) : IsAscii (newLine level) := by
  rw [newLine, isAscii_cons]
  refine ⟨by decide, fun c hc => ?_⟩
  rw [List.eq_of_mem_replicate hc]
  decide

theorem isAscii_indentedItems {items : List Json} {level : Nat}
    (h : ∀ j ∈ items, IsAscii (indentedChars level j)) : IsAscii (indentedItems level items) := by
  induction items with
  | nil => exact isAscii_nil
  | cons j items ih =>
      have hj := h j List.mem_cons_self
      have ih := ih fun i hi => h i (List.mem_cons_of_mem _ hi)
      by_cases hitems : items = []
      · subst hitems
        exact isAscii_append.mpr ⟨isAscii_newLine level, hj⟩
      · rw [indentedItems.eq_3 _ _ _ hitems]
        simp only [isAscii_append, isAscii_cons]
        exact ⟨⟨isAscii_newLine level, hj⟩, by decide, ih⟩

theorem isAscii_indentedMembers {members : List (Text × Json)} {level : Nat}
    (h : ∀ m ∈ members, IsAscii (indentedChars level m.2)) :
    IsAscii (indentedMembers level members) := by
  induction members with
  | nil => exact isAscii_nil
  | cons m members ih =>
      obtain ⟨name, j⟩ := m
      have hj : IsAscii (indentedChars level j) := h (name, j) List.mem_cons_self
      have ih := ih fun i hi => h i (List.mem_cons_of_mem _ hi)
      have hname : IsAscii (newLine level ++ textChars name) :=
        isAscii_append.mpr ⟨isAscii_newLine level, isAscii_textChars name⟩
      by_cases hmembers : members = []
      · subst hmembers
        rw [indentedMembers, isAscii_append, isAscii_cons, isAscii_cons]
        exact ⟨hname, by decide, by decide, hj⟩
      · rw [indentedMembers.eq_3 _ _ _ _ hmembers]
        simp only [isAscii_append, isAscii_cons]
        exact ⟨⟨isAscii_append.mp hname, by decide, by decide, hj⟩, by decide, ih⟩

theorem Plain.isAscii {j : Json} (h : Plain j) (level : Nat) : IsAscii (indentedChars level j) := by
  induction h generalizing level with
  | null => exact isAscii_of_all rfl
  | bool b =>
      cases b with
      | false => exact isAscii_of_all rfl
      | true => exact isAscii_of_all rfl
  | int n =>
      show IsAscii ((if n < 0 then ['-'] else []) ++ Nat.toDigits 10 n.natAbs)
      rw [isAscii_append]
      refine ⟨?_, isAscii_toDigits (by decide) _⟩
      split <;> exact isAscii_of_all rfl
  | text _ => exact isAscii_textChars _
  | @list items _ ih =>
      by_cases hitems : items = []
      · subst hitems
        exact isAscii_of_all rfl
      · rw [indentedChars.eq_2 _ _ hitems]
        simp only [List.cons_append, isAscii_cons, isAscii_append]
        exact ⟨by decide, ⟨isAscii_indentedItems fun j hj => ih j hj _, isAscii_newLine level⟩,
          by decide, isAscii_nil⟩
  | @object members _ _ ih =>
      by_cases hmembers : members = []
      · subst hmembers
        exact isAscii_of_all rfl
      · rw [indentedChars.eq_4 _ _ hmembers]
        simp only [List.cons_append, isAscii_cons, isAscii_append]
        exact ⟨by decide, ⟨isAscii_indentedMembers fun m hm => ih m hm _, isAscii_newLine level⟩,
          by decide, isAscii_nil⟩

end Json

end TemplateAudit
