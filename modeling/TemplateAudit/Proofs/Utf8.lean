import TemplateAudit.Text.Lines

/-!
# TemplateAudit.Proofs.Utf8

The octet machine undoes the encoding of text, and loses no octet of anything else.

A character of more than one octet is a leading octet and the octets that it owes. Both directions
go through that view: `Leads b value owed` is what the machine makes of a leading octet `b`, and
`Completes owed low high rest` says that `rest` is what is owed.

* `leads_encodeChar` cuts the encoding of a character that way, and `run_of_completes` runs the
  machine over it. So `pieces_encode`: the pieces of an encoded text are its characters.
* `encodeChar_of_leads` goes back: whatever completes a leading octet is the encoding of the
  character read. `State.Sound` carries this along a run, and `octets_pieces` follows: the pieces
  of any row of octets, put together again, are the row.

The second direction is needed for the byte-order mark. Only its own three octets are ever read
as one, so it makes no difference whether it is taken off before or after decoding
(`dropMarkChars_decode`).
-/

namespace TemplateAudit.Text.Utf8

/-! ### Leading octets -/

theorem start_toNat (b : UInt8) : State.start b =
    if b.toNat < 0x80 then ([.char (Char.ofNat b.toNat)], .lead)
    else if b.toNat < 0xC2 then ([.broken [b] .start], .lead)
    else if b.toNat < 0xE0 then ([], .inside (b.toNat - 0xC0) 0 0x80 0xBF [b])
    else if b.toNat = 0xE0 then ([], .inside 0 1 0xA0 0xBF [b])
    else if b.toNat = 0xED then ([], .inside 0xD 1 0x80 0x9F [b])
    else if b.toNat < 0xF0 then ([], .inside (b.toNat - 0xE0) 1 0x80 0xBF [b])
    else if b.toNat = 0xF0 then ([], .inside 0 2 0x90 0xBF [b])
    else if b.toNat < 0xF4 then ([], .inside (b.toNat - 0xF0) 2 0x80 0xBF [b])
    else if b.toNat = 0xF4 then ([], .inside 4 2 0x80 0x8F [b])
    else ([.broken [b] .start], .lead) := by
  unfold State.start
  simp only [UInt8.lt_iff_toNat_lt, beq_iff_eq, ← UInt8.toNat_inj, UInt8.reduceToNat]

/-- The least octet that may come after a leading one. -/
def lowest (b : UInt8) : UInt8 :=
  if b.toNat = 0xE0 then 0xA0 else if b.toNat = 0xF0 then 0x90 else 0x80

/-- The greatest octet that may come after a leading one. -/
def highest (b : UInt8) : UInt8 :=
  if b.toNat = 0xED then 0x9F else if b.toNat = 0xF4 then 0x8F else 0xBF

/-- `b` starts a character of `owed + 2` octets, and `value` is the part of its number in `b`. -/
inductive Leads (b : UInt8) : (value owed : Nat) → Prop
  | two (low : 0xC2 ≤ b.toNat) (high : b.toNat < 0xE0) : Leads b (b.toNat - 0xC0) 0
  | three (low : 0xE0 ≤ b.toNat) (high : b.toNat < 0xF0) : Leads b (b.toNat - 0xE0) 1
  | four (low : 0xF0 ≤ b.toNat) (high : b.toNat < 0xF5) : Leads b (b.toNat - 0xF0) 2

theorem start_of_leads {b : UInt8} {value owed : Nat} (h : Leads b value owed) :
    State.start b = ([], .inside value owed (lowest b) (highest b) [b]) := by
  rw [start_toNat, lowest, highest]
  cases h with
  | two low high => simp (disch := omega) only [if_neg, if_pos]
  | three low high =>
      by_cases hE0 : b.toNat = 0xE0
      · simp [hE0]
      by_cases hED : b.toNat = 0xED
      · simp [hED]
      simp (disch := omega) only [if_neg, if_pos]
  | four low high =>
      by_cases hF0 : b.toNat = 0xF0
      · simp [hF0]
      by_cases hF4 : b.toNat = 0xF4
      · simp [hF4]
      simp (disch := omega) only [if_neg, if_pos]

/-- An octet is a character, or starts none, or leads. -/
theorem start_cases (b : UInt8) :
    (b.toNat < 0x80 ∧ State.start b = ([.char (Char.ofNat b.toNat)], .lead)) ∨
    State.start b = ([.broken [b] .start], .lead) ∨
    ∃ value owed, Leads b value owed := by
  by_cases h80 : b.toNat < 0x80
  · exact Or.inl ⟨h80, by rw [start_toNat, if_pos h80]⟩
  by_cases hC2 : b.toNat < 0xC2
  · exact Or.inr (Or.inl (by rw [start_toNat, if_neg h80, if_pos hC2]))
  by_cases hE0 : b.toNat < 0xE0
  · exact Or.inr (Or.inr ⟨_, _, .two (by omega) hE0⟩)
  by_cases hF0 : b.toNat < 0xF0
  · exact Or.inr (Or.inr ⟨_, _, .three (by omega) hF0⟩)
  by_cases hF5 : b.toNat < 0xF5
  · exact Or.inr (Or.inr ⟨_, _, .four (by omega) hF5⟩)
  refine Or.inr (Or.inl ?_)
  rw [start_toNat]
  simp (disch := omega) only [if_neg]

/-! ### What is owed -/

/-- `rest` is what the machine waits for: `owed + 1` octets, the first of them limited. -/
def Completes : (owed : Nat) → (low high : UInt8) → (rest : List UInt8) → Prop
  | 0, low, high, rest => ∃ b, rest = [b] ∧ low ≤ b ∧ b ≤ high
  | owed + 1, low, high, rest =>
    ∃ b bs, rest = b :: bs ∧ (low ≤ b ∧ b ≤ high) ∧ Completes owed 0x80 0xBF bs

/-- The number of a character, from the part of it that is known and the octets to come. -/
def valueFrom (value : Nat) (rest : List UInt8) : Nat :=
  rest.foldl (fun value b => value * 64 + b.toNat % 64) value

@[simp] theorem valueFrom_nil (value : Nat) : valueFrom value [] = value := rfl

@[simp] theorem valueFrom_cons (value : Nat) (b : UInt8) (rest : List UInt8) :
    valueFrom value (b :: rest) = valueFrom (value * 64 + b.toNat % 64) rest := rfl

theorem step_last {value : Nat} {low high b : UInt8} {seen : List UInt8}
    (h : low ≤ b ∧ b ≤ high) :
    (State.inside value 0 low high seen).step b =
      ([.char (Char.ofNat (value * 64 + b.toNat % 64))], .lead) := by
  simp [State.step, h]

theorem step_more {value owed : Nat} {low high b : UInt8} {seen : List UInt8}
    (h : low ≤ b ∧ b ≤ high) :
    (State.inside value (owed + 1) low high seen).step b =
      ([], .inside (value * 64 + b.toNat % 64) owed 0x80 0xBF (b :: seen)) := by
  simp [State.step, h]

theorem step_afresh {value owed : Nat} {low high b : UInt8} {seen : List UInt8}
    (h : ¬ (low ≤ b ∧ b ≤ high)) :
    (State.inside value owed low high seen).step b =
      (.broken seen.reverse .continuation :: (State.start b).1, (State.start b).2) := by
  simp only [State.step, Bool.and_eq_true, decide_eq_true_eq, if_neg h]

/-- The machine reads what it waits for as one character. -/
theorem run_of_completes {value owed : Nat} {low high : UInt8} {seen rest : List UInt8}
    (h : Completes owed low high rest) (bs : List UInt8) :
    (State.inside value owed low high seen).run (rest ++ bs) =
      .char (Char.ofNat (valueFrom value rest)) :: State.lead.run bs := by
  induction owed generalizing value low high seen rest with
  | zero =>
      obtain ⟨b, rfl, hb⟩ := h
      simp [State.run, step_last hb]
  | succ owed ih =>
      obtain ⟨b, rest, rfl, hb, hrest⟩ := h
      simp [State.run, step_more hb, ih hrest]

/-! ### Octets as numbers -/

/-- The bound is a numeral, as `omega` wants it. -/
theorem toNat_octet {n : Nat} (h : n < 256) : (UInt8.ofNat n).toNat = n :=
  UInt8.toNat_ofNat_of_lt' h

theorem toNat_tail (n : Nat) : (UInt8.ofNat (n % 0x40 + 0x80)).toNat = n % 0x40 + 0x80 :=
  toNat_octet (by omega)

theorem mem_tail_iff {b : UInt8} :
    (0x80 : UInt8) ≤ b ∧ b ≤ 0xBF ↔ 0x80 ≤ b.toNat ∧ b.toNat ≤ 0xBF := by
  simp only [UInt8.le_iff_toNat_le, UInt8.reduceToNat]

theorem mem_tail (n : Nat) :
    (0x80 : UInt8) ≤ UInt8.ofNat (n % 0x40 + 0x80) ∧ UInt8.ofNat (n % 0x40 + 0x80) ≤ 0xBF := by
  rw [mem_tail_iff, toNat_tail]
  omega

/-- The octets that may come after a leading one, in numbers. -/
theorem mem_second_iff {b d : UInt8} :
    lowest b ≤ d ∧ d ≤ highest b ↔
      0x80 ≤ d.toNat ∧ d.toNat ≤ 0xBF ∧
      (b.toNat = 0xE0 → 0xA0 ≤ d.toNat) ∧ (b.toNat = 0xED → d.toNat ≤ 0x9F) ∧
      (b.toNat = 0xF0 → 0x90 ≤ d.toNat) ∧ (b.toNat = 0xF4 → d.toNat ≤ 0x8F) := by
  rw [lowest, highest, UInt8.le_iff_toNat_le, UInt8.le_iff_toNat_le]
  repeat' split
  all_goals
    simp only [UInt8.reduceToNat]
    omega

theorem toNat_ofNat {n : Nat} (h : n.isValidChar) : (Char.ofNat n).toNat = n := by
  rw [Char.ofNat, dif_pos h]
  rfl

/-! ### From characters to octets and back -/

/-- The encoding of a character beyond ASCII is a leading octet and what that owes. -/
theorem leads_encodeChar {c : Char} (h : 0x80 ≤ c.toNat) :
    ∃ b rest value owed, String.utf8EncodeChar c = b :: rest ∧ Leads b value owed ∧
      Completes owed (lowest b) (highest b) rest ∧ valueFrom value rest = c.toNat := by
  have hval : c.val.toNat = c.toNat := rfl
  have hvalid := c.valid
  rw [UInt32.isValidChar, Nat.isValidChar, hval] at hvalid
  -- one case for each length; `v` is the number of the character
  fun_cases String.utf8EncodeChar with
  | case1 v hle => omega
  | case2 v _ hle =>
      have hb : (UInt8.ofNat (v / 64 % 0x20 + 0xC0)).toNat = v / 64 + 0xC0 := by
        rw [toNat_octet] <;> omega
      refine ⟨_, _, _, _, rfl, .two (by omega) (by omega), ⟨_, rfl, ?_⟩, ?_⟩
      · rw [mem_second_iff, hb, toNat_tail]
        omega
      · simp only [valueFrom_cons, valueFrom_nil]
        rw [hb, toNat_tail]
        omega
  | case3 v _ _ hle =>
      have hb : (UInt8.ofNat (v / 4096 % 0x10 + 0xE0)).toNat = v / 4096 + 0xE0 := by
        rw [toNat_octet] <;> omega
      refine ⟨_, _, _, _, rfl, .three (by omega) (by omega),
        ⟨_, _, rfl, ?_, _, rfl, mem_tail _⟩, ?_⟩
      · rw [mem_second_iff, hb, toNat_tail]
        omega
      · simp only [valueFrom_cons, valueFrom_nil]
        rw [hb, toNat_tail, toNat_tail]
        omega
  | case4 v _ _ hgt =>
      have hb : (UInt8.ofNat (v / 262144 % 0x08 + 0xF0)).toNat = v / 262144 + 0xF0 := by
        rw [toNat_octet] <;> omega
      refine ⟨_, _, _, _, rfl, .four (by omega) (by omega),
        ⟨_, _, rfl, ?_, _, _, rfl, mem_tail _, _, rfl, mem_tail _⟩, ?_⟩
      · rw [mem_second_iff, hb, toNat_tail]
        omega
      · simp only [valueFrom_cons, valueFrom_nil]
        rw [hb, toNat_tail, toNat_tail, toNat_tail]
        omega

theorem encodeChar_ascii {c : Char} (h : c.toNat < 0x80) :
    String.utf8EncodeChar c = [UInt8.ofNat c.toNat] := by
  have hle : c.val.toNat ≤ 0x7F := Nat.le_of_lt_succ h
  rw [String.utf8EncodeChar, if_pos hle]
  rfl

/-- A leading octet and what it owes are the encoding of the character they are read as. -/
theorem encodeChar_of_leads {b : UInt8} {value owed : Nat} {rest : List UInt8}
    (h : Leads b value owed) (hrest : Completes owed (lowest b) (highest b) rest) :
    String.utf8EncodeChar (Char.ofNat (valueFrom value rest)) = b :: rest := by
  -- in each case the number is small enough for its length, and too large for a shorter one
  cases h with
  | two low high =>
      obtain ⟨d, rfl, hd⟩ := hrest
      rw [mem_second_iff] at hd
      simp only [valueFrom_cons, valueFrom_nil]
      generalize hv : (b.toNat - 0xC0) * 64 + d.toNat % 64 = v
      have hval : (Char.ofNat v).val.toNat = v := toNat_ofNat (by unfold Nat.isValidChar; omega)
      rw [String.utf8EncodeChar, hval]
      simp (disch := omega) only [if_neg, if_pos, List.cons.injEq, ← UInt8.toNat_inj, toNat_octet,
        and_true]
      omega
  | three low high =>
      obtain ⟨d, _, rfl, hd, e, rfl, he⟩ := hrest
      rw [mem_second_iff] at hd
      rw [mem_tail_iff] at he
      simp only [valueFrom_cons, valueFrom_nil]
      generalize hv : ((b.toNat - 0xE0) * 64 + d.toNat % 64) * 64 + e.toNat % 64 = v
      have hval : (Char.ofNat v).val.toNat = v := toNat_ofNat (by unfold Nat.isValidChar; omega)
      rw [String.utf8EncodeChar, hval]
      simp (disch := omega) only [if_neg, if_pos, List.cons.injEq, ← UInt8.toNat_inj, toNat_octet,
        and_true]
      omega
  | four low high =>
      obtain ⟨d, _, rfl, hd, e, _, rfl, he, f, rfl, hf⟩ := hrest
      rw [mem_second_iff] at hd
      rw [mem_tail_iff] at he hf
      simp only [valueFrom_cons, valueFrom_nil]
      generalize hv :
        (((b.toNat - 0xF0) * 64 + d.toNat % 64) * 64 + e.toNat % 64) * 64 + f.toNat % 64 = v
      have hval : (Char.ofNat v).val.toNat = v := toNat_ofNat (by unfold Nat.isValidChar; omega)
      rw [String.utf8EncodeChar, hval]
      simp (disch := omega) only [if_neg, List.cons.injEq, ← UInt8.toNat_inj, toNat_octet,
        and_true]
      omega

/-! ### Encoded texts -/

theorem run_encodeChar (c : Char) (bs : List UInt8) :
    State.lead.run (String.utf8EncodeChar c ++ bs) = .char c :: State.lead.run bs := by
  by_cases h : c.toNat < 0x80
  · have hb : (UInt8.ofNat c.toNat).toNat = c.toNat := toNat_octet (by omega)
    rw [encodeChar_ascii h, List.singleton_append, State.run, State.step, start_toNat, hb, if_pos h,
      Char.ofNat_toNat]
    rfl
  · obtain ⟨b, rest, value, owed, hencode, hleads, hrest, hvalue⟩ :=
      leads_encodeChar (Nat.le_of_not_lt h)
    rw [hencode, List.cons_append, State.run, State.step, start_of_leads hleads, List.nil_append,
      run_of_completes hrest, hvalue, Char.ofNat_toNat]

/-- The pieces of an encoded text are its characters. -/
theorem pieces_encode (cs : List Char) : pieces (encode cs) = cs.map .char := by
  induction cs with
  | nil => rfl
  | cons c cs ih =>
      have hstep := run_encodeChar c (encode cs)
      rw [pieces] at ih
      rw [pieces, encode, List.flatMap_cons, ← encode, hstep, ih, List.map_cons]

theorem decode_encode (cs : List Char) : decode (encode cs) = cs := by
  simp [decode, pieces_encode, Piece.toChar, Function.comp_def]

theorem collect_map_char (position : Nat) (cs : List Char) :
    collect position (cs.map .char) = .ok cs := by
  induction cs generalizing position with
  | nil => rfl
  | cons c cs ih =>
      rw [List.map_cons, collect, ih]
      rfl

theorem decodeStrict_encode (cs : List Char) : decodeStrict (encode cs) = .ok cs := by
  rw [decodeStrict, pieces_encode, collect_map_char]

/-- The octets of a string are the encoding of its characters. -/
theorem octets_toUTF8 (s : String) : s.toUTF8.data.toList = encode s.toList := by
  conv => lhs; rw [← String.ofList_toList (s := s)]
  rw [String.toUTF8_eq_toByteArray, String.toByteArray_ofList, List.utf8Encode,
    List.data_toByteArray, encode]

/-! ### No octet is lost -/

/-- The octets of a character that is not complete. -/
def State.pending : State → List UInt8
  | .lead => []
  | .inside _ _ _ _ seen => seen.reverse

/-- Whatever completes the character that is being read, its encoding is the octets read. -/
def State.Sound : State → Prop
  | .lead => True
  | .inside value owed low high seen =>
    ∀ rest, Completes owed low high rest →
      String.utf8EncodeChar (Char.ofNat (valueFrom value rest)) = seen.reverse ++ rest

theorem sound_start (b : UInt8) :
    (State.start b).2.Sound ∧
      (State.start b).1.flatMap Piece.octets ++ (State.start b).2.pending = [b] := by
  rcases start_cases b with ⟨hascii, hstart⟩ | hstart | ⟨value, owed, hleads⟩
  · have hvalid : (Char.ofNat b.toNat).toNat = b.toNat :=
      toNat_ofNat (by unfold Nat.isValidChar; omega)
    have hencode := encodeChar_ascii (hvalid ▸ hascii)
    rw [hvalid, UInt8.ofNat_toNat] at hencode
    rw [hstart]
    exact ⟨trivial, by simp [Piece.octets, State.pending, hencode]⟩
  · rw [hstart]
    exact ⟨trivial, rfl⟩
  · rw [start_of_leads hleads]
    exact ⟨fun rest hrest => encodeChar_of_leads hleads hrest, rfl⟩

theorem sound_step {s : State} (h : s.Sound) (b : UInt8) :
    (s.step b).2.Sound ∧
      (s.step b).1.flatMap Piece.octets ++ (s.step b).2.pending = s.pending ++ [b] := by
  cases s with
  | lead => exact sound_start b
  | inside value owed low high seen =>
      by_cases hb : low ≤ b ∧ b ≤ high
      · cases owed with
        | zero =>
            have hencode := h [b] ⟨b, rfl, hb⟩
            rw [step_last hb]
            refine ⟨trivial, ?_⟩
            simpa [Piece.octets, State.pending] using hencode
        | succ owed =>
            rw [step_more hb]
            refine ⟨fun rest hrest => ?_, by simp [State.pending]⟩
            simpa using h (b :: rest) ⟨b, rest, rfl, hb, hrest⟩
      · obtain ⟨hsound, hoctets⟩ := sound_start b
        rw [step_afresh hb]
        exact ⟨hsound, by simp [Piece.octets, State.pending, ← hoctets]⟩

theorem octets_run {s : State} (h : s.Sound) (bs : List UInt8) :
    (s.run bs).flatMap Piece.octets = s.pending ++ bs := by
  induction bs generalizing s with
  | nil => cases s <;> simp [State.run, State.finish, State.pending, Piece.octets]
  | cons b bs ih =>
      obtain ⟨hsound, hoctets⟩ := sound_step h b
      rw [State.run, List.flatMap_append, ih hsound, ← List.append_assoc, hoctets,
        List.append_assoc, List.singleton_append]

/-- The pieces of a row of octets, put together again, are the row. -/
theorem octets_pieces (bs : List UInt8) : (pieces bs).flatMap Piece.octets = bs :=
  octets_run (s := .lead) trivial bs

/-! ### The byte-order mark -/

theorem encodeChar_mark : String.utf8EncodeChar byteOrderMark = markOctets := by decide

theorem decode_mark (bs : List UInt8) : decode (markOctets ++ bs) = byteOrderMark :: decode bs := by
  have hrun := run_encodeChar byteOrderMark bs
  rw [encodeChar_mark] at hrun
  rw [decode, pieces, hrun]
  rfl

/-- Only the octets of the mark are read as the mark. -/
theorem markOctets_of_decode {bs : List UInt8} {cs : List Char}
    (h : decode bs = byteOrderMark :: cs) : markOctets <+: bs := by
  have hoctets := octets_pieces bs
  rw [decode] at h
  cases hpieces : pieces bs with
  | nil => simp [hpieces] at h
  | cons p ps =>
      rw [hpieces, List.map_cons, List.cons.injEq] at h
      rw [hpieces, List.flatMap_cons] at hoctets
      cases p with
      | char c =>
          obtain rfl : c = byteOrderMark := h.1
          rw [Piece.octets, encodeChar_mark] at hoctets
          exact ⟨_, hoctets⟩
      | broken seen fault =>
          have hne : replacement ≠ byteOrderMark := by decide
          exact absurd h.1 hne

theorem dropMarkOctets_mark (bs : List UInt8) : dropMarkOctets (markOctets ++ bs) = bs := rfl

theorem dropMarkOctets_of_not {bs : List UInt8} (h : ¬ markOctets <+: bs) :
    dropMarkOctets bs = bs := by
  unfold dropMarkOctets
  split
  · exact absurd ⟨_, rfl⟩ h
  · rfl

theorem dropMarkChars_of_ne {c : Char} (h : c ≠ byteOrderMark) (cs : List Char) :
    dropMarkChars (c :: cs) = c :: cs := by
  simp [dropMarkChars, h]

/-- The mark may be taken off before or after decoding. -/
theorem dropMarkChars_decode (bs : List UInt8) :
    dropMarkChars (decode bs) = decode (dropMarkOctets bs) := by
  by_cases hmark : markOctets <+: bs
  · obtain ⟨rest, rfl⟩ := hmark
    rw [decode_mark, dropMarkOctets_mark]
    rfl
  · rw [dropMarkOctets_of_not hmark]
    cases hdecode : decode bs with
    | nil => rfl
    | cons c cs =>
        have hc : c ≠ byteOrderMark := fun hc => hmark (markOctets_of_decode (hc ▸ hdecode))
        exact dropMarkChars_of_ne hc cs

end TemplateAudit.Text.Utf8
