import TemplateAudit.Proofs.Lines
import TemplateAudit.Proofs.Utf8

/-!
# TemplateAudit.Proofs.StrayOctets

Octets that are no UTF-8 **stay by themselves** (`stray_octets_contained`).

An octet below 0x80 is a character of its own, and the machine never waits for one: whatever it
still takes as part of a character is 0x80 or more (`State.Guarded`). So such an octet ends what was
begun before it just as the end of the octets would, and the machine starts afresh behind it
(`step_ascii`). This carries over a whole run (`decode_append_ascii`): the octets before and the
octets behind are read as if there were nothing else.

In the other direction, such a character comes from nothing but its own octet, as the pieces of the
octets make up the octets. So a text has the breaks of ASCII that its octets have, and those cut it
as they cut the octets (`splitOnP_decode`).
-/

namespace TemplateAudit

namespace Text

namespace Utf8

/-! ### Starting afresh -/

/-- The character that an octet below 0x80 is. -/
def ofAscii (b : UInt8) : Char := Char.ofNat b.toNat

theorem toNat_ofAscii {b : UInt8} (h : b < 0x80) : (ofAscii b).toNat = b.toNat := by
  have hlt : b.toNat < 0x80 := UInt8.lt_iff_toNat_lt.mp h
  exact toNat_ofNat (by unfold Nat.isValidChar; omega)

/-- What the machine still takes as part of a character is no character of its own. -/
def State.Guarded : State → Prop
  | .lead => True
  | .inside _ _ low _ _ => 0x80 ≤ low

theorem guarded_start (b : UInt8) : (State.start b).2.Guarded := by
  rcases start_cases b with ⟨-, hstart⟩ | hstart | ⟨value, owed, hleads⟩
  · rw [hstart]
    trivial
  · rw [hstart]
    trivial
  · rw [start_of_leads hleads, State.Guarded, lowest]
    repeat' split
    all_goals decide

theorem guarded_step {s : State} (h : s.Guarded) (b : UInt8) : (s.step b).2.Guarded := by
  cases s with
  | lead => exact guarded_start b
  | inside value owed low high seen =>
      by_cases hb : low ≤ b ∧ b ≤ high
      · cases owed with
        | zero =>
            rw [step_last hb]
            trivial
        | succ owed =>
            rw [step_more hb]
            exact UInt8.le_refl 0x80
      · rw [step_afresh hb]
        exact guarded_start b

/-- An octet below 0x80 leaves broken what the end of the octets would, and is read by itself. -/
theorem step_ascii {s : State} (h : s.Guarded) {c : UInt8} (hc : c < 0x80) :
    (s.step c).1.map Piece.toChar = s.finish.map Piece.toChar ++ [ofAscii c] ∧
      (s.step c).2 = .lead := by
  have hstart : State.start c = ([.char (ofAscii c)], .lead) := if_pos hc
  cases s with
  | lead =>
      rw [State.step, hstart]
      exact ⟨rfl, rfl⟩
  | inside value owed low high seen =>
      -- the fault is another one than at the end, but a fault does not show in the character
      have hafresh : ¬ (low ≤ c ∧ c ≤ high) := fun hb =>
        absurd (UInt8.le_trans h hb.1) (UInt8.not_le.mpr hc)
      rw [step_afresh hafresh, hstart]
      exact ⟨rfl, rfl⟩

theorem map_toChar_run_ascii {s : State} (h : s.Guarded) (a : List UInt8) {c : UInt8}
    (hc : c < 0x80) (b : List UInt8) :
    (s.run (a ++ c :: b)).map Piece.toChar =
      (s.run a).map Piece.toChar ++ ofAscii c :: decode b := by
  induction a generalizing s with
  | nil =>
      have hrun : s.run (c :: b) = (s.step c).1 ++ (s.step c).2.run b := rfl
      obtain ⟨hpieces, hlead⟩ := step_ascii h hc
      rw [List.nil_append, hrun, List.map_append, hpieces, hlead, List.append_assoc]
      rfl
  | cons d a ih =>
      rw [List.cons_append, State.run, List.map_append, ih (guarded_step h d), State.run,
        List.map_append, List.append_assoc]

/-- What stands before and behind an octet below 0x80 is read as if it stood alone. -/
theorem decode_append_ascii (a : List UInt8) {c : UInt8} (hc : c < 0x80) (b : List UInt8) :
    decode (a ++ c :: b) = decode a ++ ofAscii c :: decode b :=
  map_toChar_run_ascii (s := .lead) trivial a hc b

/-! ### Where characters of ASCII come from -/

theorem octets_of_toChar_ascii {p : Piece} (h : p.toChar.toNat < 0x80) :
    p.octets = [UInt8.ofNat p.toChar.toNat] := by
  cases p with
  | char c => exact encodeChar_ascii h
  | broken seen fault =>
      have hnot : ¬ replacement.toNat < 0x80 := by decide
      exact absurd h hnot

theorem mem_of_mem_decode {bs : List UInt8} {c : Char} (h : c ∈ decode bs) (hc : c.toNat < 0x80) :
    UInt8.ofNat c.toNat ∈ bs := by
  obtain ⟨p, hp, rfl⟩ := List.mem_map.mp h
  rw [← octets_pieces bs]
  refine List.mem_flatMap.mpr ⟨p, hp, ?_⟩
  rw [octets_of_toChar_ascii hc]
  exact List.mem_singleton_self _

theorem head?_of_head?_decode {bs : List UInt8} {c : Char} (h : (decode bs).head? = some c)
    (hc : c.toNat < 0x80) : bs.head? = some (UInt8.ofNat c.toNat) := by
  have hoctets := octets_pieces bs
  rw [decode] at h
  cases hpieces : pieces bs with
  | nil => simp [hpieces] at h
  | cons p ps =>
      rw [hpieces] at h hoctets
      obtain rfl : p.toChar = c := Option.some.inj h
      rw [← hoctets, List.flatMap_cons, octets_of_toChar_ascii hc]
      rfl

/-! ### Cutting octets -/

/-- Induction over octets that are cut at those of some kind. -/
theorem cut_induction {P : List UInt8 → Prop} (p : UInt8 → Bool)
    (whole : ∀ bs, (∀ b ∈ bs, p b = false) → P bs)
    (cut : ∀ a c b, p c = true → P a → P b → P (a ++ c :: b)) (bs : List UInt8) : P bs := by
  induction hlength : bs.length using Nat.strongRecOn generalizing bs with
  | ind n ih =>
      by_cases h : ∃ c ∈ bs, p c = true
      · obtain ⟨c, hmem, hc⟩ := h
        obtain ⟨a, b, rfl⟩ := List.append_of_mem hmem
        rw [List.length_append, List.length_cons] at hlength
        exact cut a c b hc (ih a.length (by omega) a rfl) (ih b.length (by omega) b rfl)
      · exact whole bs fun b hb => Bool.eq_false_iff.mpr fun hp => h ⟨b, hb, hp⟩

/-- The characters of ASCII in a text are the octets of ASCII in what it was read from. -/
theorem filter_decode (bs : List UInt8) :
    (decode bs).filter (·.toNat < 0x80) = (bs.filter (· < 0x80)).map ofAscii := by
  induction bs using cut_induction (· < 0x80) with
  | whole bs h =>
      have hnone : ∀ c ∈ decode bs, ¬ c.toNat < 0x80 := by
        intro c hmem hc
        have hplain := h _ (mem_of_mem_decode hmem hc)
        rw [decide_eq_false_iff_not, UInt8.lt_iff_toNat_lt, toNat_octet (by omega)] at hplain
        exact hplain hc
      rw [List.filter_eq_nil_iff.mpr (by simpa using hnone),
        List.filter_eq_nil_iff.mpr (by simpa using h)]
      rfl
  | cut a c b hc iha ihb =>
      have hlt : c < 0x80 := of_decide_eq_true hc
      have hchar : (ofAscii c).toNat < 0x80 := by
        rw [toNat_ofAscii hlt]
        exact UInt8.lt_iff_toNat_lt.mp hlt
      rw [decode_append_ascii a hlt, List.filter_append, iha, List.filter_append, List.map_append,
        List.filter_cons_of_pos (by simpa using hchar), ihb,
        List.filter_cons_of_pos (by simpa using hlt), List.map_cons]

/-- Whether a character is a line feed or a carriage return. -/
def isFeedOrReturn (c : Char) : Bool := c == '\n' || c == '\r'

/-- Whether an octet is a line feed or a carriage return. -/
def isFeedOrReturnOctet (b : UInt8) : Bool := b == 0x0A || b == 0x0D

/-- Line feeds and carriage returns cut a text into what is read from the octets between them. -/
theorem splitOnP_decode (bs : List UInt8) :
    (decode bs).splitOnP isFeedOrReturn = (bs.splitOnP isFeedOrReturnOctet).map decode := by
  induction bs using cut_induction isFeedOrReturnOctet with
  | whole bs h =>
      have hnone : ∀ c ∈ decode bs, isFeedOrReturn c = false := by
        intro c hmem
        refine Bool.eq_false_iff.mpr fun hc => ?_
        rw [isFeedOrReturn, Bool.or_eq_true, beq_iff_eq, beq_iff_eq] at hc
        rcases hc with rfl | rfl
        · cases h _ (mem_of_mem_decode hmem (by decide))
        · cases h _ (mem_of_mem_decode hmem (by decide))
      rw [List.splitOnP_eq_singleton hnone, List.splitOnP_eq_singleton h]
      rfl
  | cut a c b hc iha ihb =>
      have hascii : c < 0x80 ∧ isFeedOrReturn (ofAscii c) = true := by
        rw [isFeedOrReturnOctet, Bool.or_eq_true, beq_iff_eq, beq_iff_eq] at hc
        rcases hc with rfl | rfl <;> decide
      rw [decode_append_ascii a hascii.1, List.splitOnP_append_cons _ _ hascii.2,
        List.splitOnP_append_cons _ _ hc, List.map_append, iha, ihb]

/-! ### The byte-order mark -/

theorem filter_markOctets : markOctets.filter (· < 0x80) = [] := rfl

/-- An octet below 0x80 is no part of a mark. -/
theorem dropMarkOctets_append_ascii (a : List UInt8) {c : UInt8} (hc : c < 0x80)
    (b : List UInt8) : dropMarkOctets (a ++ c :: b) = dropMarkOctets a ++ c :: b := by
  by_cases hmark : markOctets <+: a
  · obtain ⟨rest, rfl⟩ := hmark
    rw [List.append_assoc, dropMarkOctets_mark, dropMarkOctets_mark]
  · have hnot : ¬ markOctets <+: a ++ c :: b := by
      intro h
      have ha : a ++ [c] <+: a ++ c :: b := ⟨b, by rw [List.append_assoc, List.singleton_append]⟩
      -- the mark would hold the octet or end before it
      rcases Nat.lt_or_ge a.length markOctets.length with hlt | hle
      · have hcut : a ++ [c] <+: markOctets :=
          List.prefix_of_prefix_length_le ha h (by rw [List.length_append]; exact hlt)
        have hmem : c ∈ markOctets := hcut.subset (by simp)
        exact List.filter_eq_nil_iff.mp filter_markOctets c hmem (decide_eq_true hc)
      · exact hmark (List.prefix_of_prefix_length_le h (List.prefix_append a _) hle)
    rw [dropMarkOctets_of_not hmark, dropMarkOctets_of_not hnot]

theorem filter_dropMarkOctets (bs : List UInt8) :
    (dropMarkOctets bs).filter (· < 0x80) = bs.filter (· < 0x80) := by
  by_cases hmark : markOctets <+: bs
  · obtain ⟨rest, rfl⟩ := hmark
    rw [dropMarkOctets_mark, List.filter_append, filter_markOctets, List.nil_append]
  · rw [dropMarkOctets_of_not hmark]

end Utf8

/-! ### Texts and their lines -/

open TemplateAudit.Yaml.Cursor (endsLine)
open Utf8

theorem toList_ofOctets_ascii (a : List UInt8) {c : UInt8} (hc : c < 0x80) (b : List UInt8) :
    (ofOctets (a ++ c :: b)).toList = (ofOctets a).toList ++ ofAscii c :: decode b := by
  rw [ofOctets, ofOctets, String.toList_ofList, String.toList_ofList,
    dropMarkOctets_append_ascii a hc, decode_append_ascii _ hc]

/-- The octets that end a line, as they are followed. -/
theorem endsLine_ofAscii {c : UInt8} {b : List UInt8}
    (h : c = 0x0A ∨ c = 0x0D ∧ b.head? ≠ some 0x0A) :
    endsLine (ofAscii c) (decode b).head? = true := by
  rcases h with rfl | ⟨rfl, hnext⟩
  · exact endsLine_iff_char.mpr (.inl rfl)
  · refine endsLine_iff.mpr ⟨rfl, ?_⟩
    rintro ⟨-, hfeed⟩
    exact hnext (head?_of_head?_decode hfeed (by decide))

theorem splitLines_ofOctets_append (a : List UInt8) {c : UInt8} {b : List UInt8}
    (h : c = 0x0A ∨ c = 0x0D ∧ b.head? ≠ some 0x0A) :
    splitLines (ofOctets (a ++ c :: b)) =
      splitLines (ofOctets (a ++ [c])) ++ splitLines (String.ofList (decode b)) := by
  have hc : c < 0x80 := by rcases h with rfl | ⟨rfl, -⟩ <;> decide
  rw [splitLines, splitLines, splitLines, toList_ofOctets_ascii a hc, toList_ofOctets_ascii a hc,
    splitLineChars_append_cons _ (endsLine_ofAscii h), List.map_append, String.toList_ofList]
  rfl

end Text

open Text.Utf8

/-- Octets of ASCII stand for themselves, whatever is around them. A text read from octets is, at
any such octet, the text of the octets before it, its own character, and what is read from the
octets behind it, where no mark is dropped. So

* the characters of ASCII in the text are the octets of ASCII, in their order;
* line feeds and carriage returns cut the text into what is read from the octets between them;
* at a line feed, and at a carriage return with no line feed behind it, a line of the document ends:
  the lines up to there are those of the octets up to there, and the others are those of the octets
  behind, numbered on. -/
theorem stray_octets_contained (bs : List UInt8) (token : Text) :
    let text := Text.ofOctets bs
    (∀ a c b, bs = a ++ c :: b → c < 0x80 →
      text = Text.ofOctets a ++ String.singleton (Char.ofNat c.toNat) ++
        String.ofList (decode b)) ∧
    text.toList.filter (·.toNat < 0x80) =
      (bs.filter (· < 0x80)).map (fun c => Char.ofNat c.toNat) ∧
    text.toList.splitOnP isFeedOrReturn =
      ((dropMarkOctets bs).splitOnP isFeedOrReturnOctet).map decode ∧
    ∀ a c b, bs = a ++ c :: b → c = 0x0A ∨ c = 0x0D ∧ b.head? ≠ some 0x0A →
      let d := Document.ofOctets (a ++ [c]) token
      (Document.ofOctets bs token).lines =
        d.lines ++ numberFrom (d.lineCount + 1) (Text.splitLines (String.ofList (decode b))) := by
  intro text
  have htext : text.toList = decode (dropMarkOctets bs) := String.toList_ofList
  refine ⟨?_, ?_, ?_, ?_⟩
  · rintro a c b rfl hc
    rw [← String.toList_inj, String.toList_append, String.toList_append, String.toList_singleton,
      String.toList_ofList, List.append_assoc]
    exact Text.toList_ofOctets_ascii a hc b
  · rw [htext, filter_decode, filter_dropMarkOctets]
    rfl
  · rw [htext, splitOnP_decode]
  · rintro a c b rfl hc
    intro d
    have hlines : d.lines = numberFrom 1 (Text.splitLines (Text.ofOctets (a ++ [c]))) := rfl
    have hcount : (d.lineCount : Int) = (Text.splitLines (Text.ofOctets (a ++ [c]))).length := by
      rw [Document.lineCount, hlines, length_numberFrom]
    rw [hcount, Int.add_comm, hlines, ← numberFrom_append, ← Text.splitLines_ofOctets_append a hc]
    rfl

/-- A mark that a letter cuts short, a character that a line feed cuts short, and an octet that
continues nothing. -/
def cutShort : List UInt8 := [0xEF, 0xBB, 0x41, 0xE2, 0x80, 0x0A, 0x80, 0x62]

theorem stray_octets_contained_cutShort :
    cutShort = [0xEF, 0xBB, 0x41, 0xE2, 0x80] ++ 0x0A :: [0x80, 0x62] ∧ (0x0A : UInt8) < 0x80 ∧
      Text.ofOctets cutShort = "\uFFFDA\uFFFD" ++ "\n" ++ "\uFFFDb" := by
  have hcut : cutShort = [0xEF, 0xBB, 0x41, 0xE2, 0x80] ++ 0x0A :: [0x80, 0x62] := rfl
  have hfeed : (0x0A : UInt8) < 0x80 := by decide
  have htext := (stray_octets_contained cutShort defaultToken).1 _ _ _ hcut hfeed
  exact ⟨hcut, hfeed, htext.trans (by decide)⟩

end TemplateAudit
