/-!
# TemplateAudit.Text.Point

Texts as rows of code points.

A `String` holds characters only. An escape may also name a surrogate, one of the two halves that
a character beyond the first plane is written with in UTF-16. Such a half can stand alone, and
two halves side by side are still two code points, not the character they would make. A `Text`
can hold them: its `Point`s are characters and surrogates. Every `String` is a text by
`Text.ofString`, and a text without surrogates is a `String` again.
-/

namespace TemplateAudit

namespace Text

/-- A code point: a character, or a surrogate by its distance to the first of them. -/
inductive Point
  | char (c : Char)
  | surrogate (offset : Fin 0x800)
  deriving DecidableEq, Repr

namespace Point

/-- The number of a code point. -/
def code : Point → Nat
  | .char c => c.toNat
  | .surrogate offset => 0xD800 + offset.val

/-- The code point with a number below 0x110000. -/
def ofCode (n : Nat) : Point :=
  if h : 0xD800 ≤ n ∧ n < 0xE000 then .surrogate ⟨n - 0xD800, by omega⟩ else .char (Char.ofNat n)

/-- What stands for a surrogate among characters. No notation gives it a meaning. -/
def standIn : Char := Char.ofNat 0xFFFD

/-- A code point as a character. -/
def toChar : Point → Char
  | .char c => c
  | .surrogate _ => standIn

/-- The character that a code point is. -/
def char? : Point → Option Char
  | .char c => some c
  | .surrogate _ => none

/-- Whether a code point is a surrogate. -/
def isSurrogate : Point → Bool
  | .char _ => false
  | .surrogate _ => true

end Point

end Text

/-- A row of code points. -/
abbrev Text := List Text.Point

namespace Text

/-- Characters as a text. -/
def ofChars (cs : List Char) : Text := cs.map .char

/-- A string as a text. -/
def ofString (s : String) : Text := ofChars s.toList

instance : Coe String Text := ⟨ofString⟩

/-- The characters of a text, the stand-in for each surrogate. -/
def chars (t : Text) : List Char := t.map Point.toChar

/-- A text as a string, the stand-in for each surrogate. -/
def string (t : Text) : String := String.ofList (chars t)

/-- The string that a text is, if it holds no surrogate. -/
def string? (t : Text) : Option String := (t.mapM Point.char?).map String.ofList

/-- Texts with another one between them. -/
def join (between : Text) (ts : List Text) : Text := List.intercalate between ts

/-- Whether a text comes before another one or is the same, by the numbers of their code
points. -/
def notAfter : Text → Text → Bool
  | [], _ => true
  | _ :: _, [] => false
  | p :: ps, q :: qs => p.code < q.code || (p.code == q.code && notAfter ps qs)

end Text

end TemplateAudit
