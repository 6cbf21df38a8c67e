/-!
# TemplateAudit.Text.Utf8

UTF-8 as a machine over octets.

A character is one to four octets: a leading octet, which says how many more are owed, and
the octets owed, of which the first is limited to the range `low … high` so that no character
has two spellings and none is a surrogate or too large. `State` is what the machine still
waits for. The machine never looks back: it cuts any row of octets into `Piece`s, each a
character or the longest broken beginning of one, and an octet that does not continue a
character starts afresh.

* `pieces` cuts a row of octets; `Piece.octets` gives the octets of a piece back.
* `decode` reads every broken piece as one replacement character.
* `decodeStrict` fails at the first broken piece and says where and why.
-/

namespace TemplateAudit.Text.Utf8

/-- The character that stands for a broken piece. -/
def replacement : Char := Char.ofNat 0xFFFD

/-- The byte-order mark. -/
def byteOrderMark : Char := Char.ofNat 0xFEFF

/-- Why a piece is broken. -/
inductive Fault
  /-- No character starts with this octet. -/
  | start
  /-- The next octet does not continue the character. -/
  | continuation
  /-- The octets end inside the character. -/
  | ending
  deriving DecidableEq, Repr

/-- The wording of a fault. -/
def Fault.message : Fault → String
  | .start => "invalid start byte"
  | .continuation => "invalid continuation byte"
  | .ending => "unexpected end of data"

/-- A character, or the longest beginning of one that nothing completes. -/
inductive Piece
  | char (c : Char)
  | broken (octets : List UInt8) (fault : Fault)
  deriving DecidableEq, Repr

/-- The octets of a piece. -/
def Piece.octets : Piece → List UInt8
  | .char c => String.utf8EncodeChar c
  | .broken bs _ => bs

/-- The character that a piece is read as when nothing may fail. -/
def Piece.toChar : Piece → Char
  | .char c => c
  | .broken _ _ => replacement

/-- What the machine waits for. -/
inductive State
  /-- The leading octet of the next character. -/
  | lead
  /-- `owed + 1` more octets, the first of them from `low` to `high`; `value` holds the bits
  read so far and `seen` the octets, last first. -/
  | inside (value owed : Nat) (low high : UInt8) (seen : List UInt8)
  deriving DecidableEq, Repr

/-- The step on a leading octet. -/
def State.start (b : UInt8) : List Piece × State :=
  if b < 0x80 then ([.char (Char.ofNat b.toNat)], .lead)
  else if b < 0xC2 then ([.broken [b] .start], .lead)
  else if b < 0xE0 then ([], .inside (b.toNat - 0xC0) 0 0x80 0xBF [b])
  else if b == 0xE0 then ([], .inside 0 1 0xA0 0xBF [b])
  else if b == 0xED then ([], .inside 0xD 1 0x80 0x9F [b])
  else if b < 0xF0 then ([], .inside (b.toNat - 0xE0) 1 0x80 0xBF [b])
  else if b == 0xF0 then ([], .inside 0 2 0x90 0xBF [b])
  else if b < 0xF4 then ([], .inside (b.toNat - 0xF0) 2 0x80 0xBF [b])
  else if b == 0xF4 then ([], .inside 4 2 0x80 0x8F [b])
  else ([.broken [b] .start], .lead)

/-- The step on any octet: the pieces it completes, and what is waited for next. -/
def State.step (b : UInt8) : State → List Piece × State
  | .lead => State.start b
  | .inside value owed low high seen =>
    if low ≤ b && b ≤ high then
      let value := value * 64 + b.toNat % 64
      match owed with
      | 0 => ([.char (Char.ofNat value)], .lead)
      | owed + 1 => ([], .inside value owed 0x80 0xBF (b :: seen))
    else
      let (ps, s) := State.start b
      (.broken seen.reverse .continuation :: ps, s)

/-- The piece that the end of the octets leaves broken. -/
def State.finish : State → List Piece
  | .lead => []
  | .inside _ _ _ _ seen => [.broken seen.reverse .ending]

/-- The pieces of a row of octets, read from a given state. -/
def State.run : State → List UInt8 → List Piece
  | s, [] => s.finish
  | s, b :: bs => (s.step b).1 ++ (s.step b).2.run bs

/-- The pieces of a row of octets. -/
def pieces (bs : List UInt8) : List Piece := State.lead.run bs

/-- The octets as text; each broken piece costs one character. -/
def decode (bs : List UInt8) : List Char := (pieces bs).map Piece.toChar

/-- Where and why a row of octets is not UTF-8. -/
structure Error where
  /-- The position of the first octet of the broken piece. -/
  position : Nat
  octets : List UInt8
  fault : Fault
  deriving DecidableEq, Repr

/-- The characters of the pieces, if none is broken; `position` counts the octets before them. -/
def collect (position : Nat) : List Piece → Except Error (List Char)
  | [] => .ok []
  | .char c :: ps => do
    let cs ← collect (position + (String.utf8EncodeChar c).length) ps
    return c :: cs
  | .broken octets fault :: _ => .error { position, octets, fault }

/-- The octets as text, if they are UTF-8. -/
def decodeStrict (bs : List UInt8) : Except Error (List Char) := collect 0 (pieces bs)

/-- The octets of a text. -/
def encode (cs : List Char) : List UInt8 := cs.flatMap String.utf8EncodeChar

/-- The octets of the byte-order mark. -/
def markOctets : List UInt8 := [0xEF, 0xBB, 0xBF]

/-- The octets after a byte-order mark at their start. -/
def dropMarkOctets : List UInt8 → List UInt8
  | 0xEF :: 0xBB :: 0xBF :: bs => bs
  | bs => bs

end TemplateAudit.Text.Utf8
