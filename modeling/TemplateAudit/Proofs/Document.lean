import TemplateAudit.Annotate

/-!
# TemplateAudit.Proofs.Document

Which lines are silenced, in terms of the lines of the text.

A document keeps numbered lines and a list of numbers that directives silence. Both are made from
the lines of the text, so nothing but these lines and the token decides what is silenced:
`followsDirective` asks for the line before. Numbers start at one, so the line before the one
numbered `n` stands at place `n - 2`.
-/

namespace TemplateAudit

/-! ### Inputs as lines -/

/-- The text of an input, decoded and without a byte-order mark. -/
def Input.plainText : Input → String
  | .text s => Text.dropMark s
  | .octets bs => Text.ofOctets bs

/-- The lines of an input. -/
def Input.lines (input : Input) : List String := Text.splitLines input.plainText

theorem Input.document_eq (input : Input) (token : Text) :
    input.document token = .ofPlainText input.plainText token := by
  cases input <;> rfl

/-! ### Numbered lines -/

theorem getElem?_numberFrom (n : Int) (ss : List String) (i : Nat) :
    (numberFrom n ss)[i]? = ss[i]?.map fun s => { number := n + i, text := s } := by
  induction ss generalizing n i with
  | nil => rfl
  | cons s ss ih =>
      cases i with
      | zero => simp [numberFrom]
      | succ i =>
          rw [numberFrom, List.getElem?_cons_succ, List.getElem?_cons_succ, ih]
          simp only [Int.natCast_add, Int.natCast_one, Int.add_assoc, Int.add_comm 1]

@[simp] theorem length_numberFrom (n : Int) (ss : List String) :
    (numberFrom n ss).length = ss.length := by
  induction ss generalizing n with
  | nil => rfl
  | cons s ss ih => rw [numberFrom, List.length_cons, ih, List.length_cons]

theorem numberFrom_append (n : Int) (ss ss' : List String) :
    numberFrom n (ss ++ ss') = numberFrom n ss ++ numberFrom (n + ss.length) ss' := by
  induction ss generalizing n with
  | nil => simp [numberFrom]
  | cons s ss ih =>
      rw [List.cons_append, numberFrom, ih, numberFrom, List.cons_append, List.length_cons,
        Int.natCast_add, Int.natCast_one, Int.add_assoc, Int.add_comm 1]

theorem mem_numberFrom {n : Int} {ss : List String} {l : Line} :
    l ∈ numberFrom n ss ↔
      ∃ (i : Nat) (s : String), ss[i]? = some s ∧ l = { number := n + i, text := s } := by
  rw [List.mem_iff_getElem?]
  constructor
  · rintro ⟨i, hi⟩
    rw [getElem?_numberFrom, Option.map_eq_some_iff] at hi
    obtain ⟨s, hs, rfl⟩ := hi
    exact ⟨i, s, hs, rfl⟩
  · rintro ⟨i, s, hs, rfl⟩
    exact ⟨i, by rw [getElem?_numberFrom, hs]; rfl⟩

@[simp] theorem Input.lineCount_document (input : Input) (token : Text) :
    (input.document token).lineCount = input.lines.length := by
  rw [document_eq]
  exact length_numberFrom 1 _

/-! ### Directives -/

/-- Whether the line before the one with a number is a directive. -/
def followsDirective (token : Text) (lines : List String) (number : Int) : Bool :=
  decide (2 ≤ number) &&
    lines[(number - 2).toNat]?.any fun s => token == Text.ofString (Text.strip s)

theorem followsDirective_iff {token : Text} {lines : List String} {number : Int} :
    followsDirective token lines number = true ↔
      ∃ (i : Nat) (s : String),
        lines[i]? = some s ∧ Text.ofString (Text.strip s) = token ∧ number = i + 2 := by
  rw [followsDirective, Bool.and_eq_true, decide_eq_true_eq, Option.any_eq_true]
  constructor
  · rintro ⟨hnumber, s, hs, htoken⟩
    exact ⟨_, s, hs, (eq_of_beq htoken).symm, by omega⟩
  · rintro ⟨i, s, hs, rfl, rfl⟩
    refine ⟨by omega, s, ?_, beq_self_eq_true _⟩
    rw [show ((i : Int) + 2 - 2).toNat = i by omega]
    exact hs

/-- The silenced lines are those after a directive, as far as there are such. -/
theorem mem_suppressed_iff {input : Input} {token : Text} {number : Int} :
    number ∈ (input.document token).suppressed ↔
      followsDirective token input.lines number = true ∧ number ≤ input.lines.length := by
  rw [Input.document_eq, followsDirective_iff, Input.lines]
  simp only [Document.ofPlainText, silencedLines, List.mem_eraseDups, List.mem_map, List.mem_filter,
    mem_numberFrom, length_numberFrom, Line.isDirective, Bool.and_eq_true, decide_eq_true_eq,
    beq_iff_eq]
  -- the line at place `i` has the number `i + 1` and silences the one after it
  constructor
  · rintro ⟨l, ⟨⟨i, s, hs, rfl⟩, htoken, hle⟩, rfl⟩
    exact ⟨⟨i, s, hs, htoken.symm, by simp only; omega⟩, hle⟩
  · rintro ⟨⟨i, s, hs, htoken, rfl⟩, hle⟩
    exact ⟨_, ⟨⟨i, s, hs, rfl⟩, htoken.symm, by simp only; omega⟩, by simp only; omega⟩

end TemplateAudit
