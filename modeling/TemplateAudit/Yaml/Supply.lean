import TemplateAudit.Yaml.Node.Reader

/-!
# TemplateAudit.Yaml.Supply

Documents from files.

The text of a file comes in blocks, and what is wrong with it is noticed when its block comes:
octets are decoded 8192 at a time, characters are handed on 4096 at a time, and the first two
blocks of characters come at once. A block of characters is handed on only when it is full or
the file is at its end. A fault of the text before that point is told first.
-/

namespace TemplateAudit.Yaml

/-- How many octets are decoded at a time. -/
def octetBlock : Nat := 8192

/-- How many characters are handed on at a time. -/
def charBlock : Nat := 4096

/-- How many characters are there before the block that holds a position comes. -/
def noticedAt (position : Nat) : Nat :=
  if position < 2 * charBlock then 0 else position / charBlock * charBlock

/-- The shortage that an unacceptable character is. -/
def shortageOf? (cs : List Char) : Option Shortage :=
  match findUnacceptable 0 cs with
  | some (.unacceptable code position) =>
    some { limit := noticedAt position, fault := .unacceptable code position }
  | _ => none

/-- How many octets are decoded before an error is noticed: the whole blocks before the octet that
shows it, but nothing of the broken piece. That octet is the broken one itself, or the one after
the piece, or the end of the file. -/
def decodedBefore (e : Text.Utf8.Error) : Nat :=
  match e.fault with
  | .start => e.position / octetBlock * octetBlock
  | .continuation =>
    min e.position ((e.position + e.octets.length) / octetBlock * octetBlock)
  | .ending => e.position

/-- The characters of some octets up to the last one that is complete. -/
def completeChars (octets : List UInt8) : List Char :=
  (Text.Utf8.pieces octets).filterMap fun
    | .char c => some c
    | .broken _ _ => none

/-- Characters without a carriage return at their end, which waits for what follows it. -/
def withoutPendingReturn (cs : List Char) : List Char :=
  if cs.getLast? == some '\r' then cs.dropLast else cs

/-- The text of a file as far as it can be read, and where that ends. -/
def supply (octets : List UInt8) : List Char × Option Shortage :=
  match Text.Utf8.decodeStrict octets with
  | .ok cs =>
    let cs := Text.unifyBreaks cs
    (cs, shortageOf? cs)
  | .error e =>
    let readable := completeChars (octets.take (decodedBefore e))
    let cs := Text.unifyBreaks (withoutPendingReturn readable)
    let undecodable : Shortage := { limit := noticedAt cs.length, fault := .undecodable }
    match shortageOf? cs with
    | some s => (cs, some (if s.limit < undecodable.limit then s else undecodable))
    | none => (cs, some undecodable)

/-- The root of the only document of a file, or none if it is empty. -/
def composeFile (octets : List UInt8) : Except Fault (Option Node) :=
  let (cs, shortage) := supply octets
  NodeReader.read (tokenizeSupplied cs shortage)

end TemplateAudit.Yaml
