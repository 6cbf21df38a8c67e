import TemplateAudit.Data.Value
import TemplateAudit.Number.Literal
import TemplateAudit.Text.Case
import TemplateAudit.Yaml.Error
import TemplateAudit.Yaml.Tag

/-!
# TemplateAudit.Yaml.Value.Scalar

The values that scalars stand for, by their tag.

A text that does not fit its tag is a fault of the scalar, not an error of the document.
-/

namespace TemplateAudit.Yaml

open TemplateAudit.Data
open TemplateAudit.Number
open TemplateAudit.Text (Point quotedText lowerText isAsciiDigit)

/-- Why a scalar has no value. -/
inductive ScalarFault
  /-- There is nothing to read. -/
  | empty
  | notInt (base : Nat) (text : Text)
  | tooManyDigits (count : Nat)
  | notFloat (text : Text)
  /-- A part of a number to base sixty counts for more than a double can hold. -/
  | tooLarge
  | notBool (word : Text)
  | notTime
  /-- A mapping with a default is no date and no time, whatever its default says. -/
  | timeOfMapping
  | noSuchTime (fault : CalendarFault)
  /-- The text of the scalar is that of a mapping inside itself. -/
  | endless
  deriving DecidableEq, Repr

/-- The wording of a fault. -/
def ScalarFault.message : ScalarFault → String
  | .empty => "string index out of range"
  | .notInt base text =>
    let shown := String.ofList ((quotedText text).toList.take 200)
    s!"invalid literal for int() with base {base}: {shown}"
  | .tooManyDigits n => tooLongMessage (some n)
  | .notFloat text => s!"could not convert string to float: {quotedText text}"
  | .tooLarge => "int too large to convert to float"
  | .notBool word => quotedText word
  | .notTime => "no date and no time"
  | .timeOfMapping => "a mapping is no date and no time"
  | .noSuchTime fault => fault.message
  | .endless => "a mapping that is its own text"

/-- Why a document has no value. -/
inductive ValueFault
  /-- Something is wrong with the document. -/
  | document (fault : Fault)
  /-- Something is wrong with what a scalar says. -/
  | scalar (fault : ScalarFault)
  deriving DecidableEq, Repr

namespace Scalar

/-- A scalar that says something impossible. -/
def fail {α : Type} (fault : ScalarFault) : Except ValueFault α := .error (.scalar fault)

/-- An integer to a base. -/
def intOf (base : Nat) (t : Text) : Except ValueFault Int :=
  match readInt base t.chars with
  | .ok n => .ok n
  | .error .malformed => fail (.notInt base t)
  | .error (.tooLong n) => fail (.tooManyDigits n)

/-- A double. -/
def floatOf (t : Text) : Except ValueFault Binary64 :=
  match readFloat? t.chars with
  | some d => .ok d
  | none => fail (.notFloat t)

/-- The parts of a text between colons. -/
def colonParts (t : Text) : List Text :=
  t.foldr
    (fun p parts =>
      match p == .char ':', parts with
      | true, parts => [] :: parts
      | false, part :: parts => (p :: part) :: parts
      | false, [] => [[p]])
    [[]]

/-- A text without low lines. -/
def withoutLines (t : Text) : Text := t.filter (· != .char '_')

/-- An optional sign, and what follows it. -/
def splitSignText : Text → Bool × Text
  | .char '-' :: ps => (true, ps)
  | .char '+' :: ps => (false, ps)
  | ps => (false, ps)

/-- A text without low lines, split into its sign and the rest, which may be empty only after
a sign. -/
def signed (t : Text) : Except ValueFault (Bool × Text) :=
  match withoutLines t with
  | [] => fail .empty
  | t => .ok (splitSignText t)

/-- An integer, in any of its notations. -/
def int (t : Text) : Except ValueFault Int := do
  let (neg, t) ← signed t
  let n ← match t with
    | [] => fail .empty
    | [.char '0'] => .ok 0
    | .char '0' :: .char 'b' :: digits => intOf 2 digits
    | .char '0' :: .char 'x' :: digits => intOf 16 digits
    | .char '0' :: _ => intOf 8 t
    | _ =>
      if t.contains (.char ':') then do
        let parts ← (colonParts t).mapM (intOf 10)
        pure (parts.foldl (fun n part => n * 60 + part) 0)
      else intOf 10 t
  return if neg then -n else n

/-- Parts to base sixty, the last one first, each times its power. -/
def addSixtieths (total : Binary64) (power : Nat) : List Binary64 → Except ValueFault Binary64
  | [] => .ok total
  | part :: parts =>
    match Binary64.ofInt? power with
    | some p => addSixtieths (total.add (part.mul p)) (power * 60) parts
    | none => fail .tooLarge

/-- A double, in any of its notations. -/
def float (t : Text) : Except ValueFault Binary64 := do
  let (neg, t) ← signed (lowerText (withoutLines t))
  let d ←
    if t == ".inf" then .ok (.infinite false)
    else if t == ".nan" then .ok .nan
    else if t.contains (.char ':') then do
      let parts ← (colonParts t).mapM floatOf
      addSixtieths (.zero false) 1 parts.reverse
    else floatOf t
  return if neg then d.negate else d

/-- Whether a text names not-a-number, in any case and with any sign. -/
def namesNan (t : Text) : Bool := (splitSignText (lowerText (withoutLines t))).2 == ".nan"

/-- A truth value. -/
def bool (t : Text) : Except ValueFault Bool :=
  let word := lowerText t
  if word == "yes" || word == "true" || word == "on" then .ok true
  else if word == "no" || word == "false" || word == "off" then .ok false
  else fail (.notBool word)

/-! ## Octets -/

/-- The six bits that a character of base 64 stands for. -/
def sextet? (c : Char) : Option Nat :=
  let n := c.toNat
  if Text.isAsciiUpper c then some (n - 'A'.toNat)
  else if Text.isAsciiLower c then some (n - 'a'.toNat + 26)
  else if isAsciiDigit c then some (n - '0'.toNat + 52)
  else if c == '+' then some 62
  else if c == '/' then some 63
  else none

/-- The octets of sextets in groups of four, the last of which may be short. -/
def packSextets : List Nat → List UInt8
  | a :: b :: c :: d :: rest =>
    (a * 4 + b / 16).toUInt8 :: (b % 16 * 16 + c / 4).toUInt8 :: (c % 4 * 64 + d).toUInt8 ::
      packSextets rest
  | [a, b, c] => [(a * 4 + b / 16).toUInt8, (b % 16 * 16 + c / 4).toUInt8]
  | [a, b] => [(a * 4 + b / 16).toUInt8]
  | _ => []

/-- The sextets of a text to its end, or to the padding that completes a group; and whether it
ends so. Any other character is skipped. `pads` counts the padding since the last sextet. -/
def sextets (count pads : Nat) : List Char → List Nat × Bool
  | [] => ([], count % 4 == 0)
  | '=' :: cs =>
    let place := count % 4
    if 2 ≤ place && 4 ≤ place + (pads + 1) then ([], true)
    else sextets count (if 2 ≤ place then pads + 1 else pads) cs
  | c :: cs =>
    match sextet? c with
    | some n =>
      let (more, complete) := sextets (count + 1) 0 cs
      (n :: more, complete)
    | none => sextets count pads cs

/-- Octets in base 64. -/
def octets (t : Text) (mark : Mark) : Except ValueFault (List UInt8) :=
  let error (problem : Problem) : ValueFault :=
    .document (.marked { stage := .values, activity := none, since := none, problem, mark })
  let plain (p : Point) : Bool := p.code < 128
  match t.dropWhile plain with
  | [] =>
    match sextets 0 0 t.chars with
    | (ns, true) => .ok (packSextets ns)
    | (ns, false) => .error (error (.notBase64 ns.length))
  | rest =>
    .error (error (.notAscii (rest.takeWhile (!plain ·)) (t.takeWhile plain).length))

/-! ## Times -/

/-- A number of so many digits, and what follows it. -/
def digits? (atLeast atMost : Nat) (cs : List Char) : Option (Nat × List Char) :=
  let ds := (cs.take atMost).takeWhile isAsciiDigit
  if ds.length < atLeast then none
  else some (ofDigits 10 (ds.map fun c => c.toNat - '0'.toNat), cs.drop ds.length)

/-- What follows a given character. -/
def after? (c : Char) : List Char → Option (List Char)
  | [] => none
  | d :: cs => if d == c then some cs else none

/-- The microseconds of a fraction: its first six digits. -/
def micros (ds : List Char) : Nat :=
  let ds := ds.take 6
  ofDigits 10 (ds.map fun c => c.toNat - '0'.toNat) * tenTo (6 - ds.length)

/-- The offset from universal time at the end of a text, in minutes: none if there is nothing,
and nothing at all if it is something else. -/
def offset? (cs : List Char) : Option (Option Int) :=
  match cs.dropWhile fun c => c == ' ' || c == '\t' with
  | [] => if cs.isEmpty then some none else none
  | ['Z'] => some (some 0)
  | c :: rest =>
    if c == '+' || c == '-' then do
      let (hours, rest) ← digits? 1 2 rest
      let minutes ←
        match rest with
        | [] => some 0
        | _ => do
          let (minutes, rest) ← digits? 2 2 (← after? ':' rest)
          if rest.isEmpty then some minutes else none
      let total := Int.ofNat (hours * 60 + minutes)
      return some (if c == '-' then -total else total)
    else none

/-- A date or a moment, before its fields are checked. -/
structure TimeFields where
  year : Nat
  month : Nat
  day : Nat
  time : Option (Nat × Nat × Nat × Nat × Option Int)

/-- The time of day after a date. -/
def timeOfDay? (cs : List Char) : Option (Nat × Nat × Nat × Nat × Option Int) := do
  let cs ← match cs with
    | 'T' :: rest => some rest
    | 't' :: rest => some rest
    | c :: rest =>
      if c == ' ' || c == '\t' then some (rest.dropWhile fun c => c == ' ' || c == '\t') else none
    | [] => none
  let (hour, cs) ← digits? 1 2 cs
  let (minute, cs) ← digits? 2 2 (← after? ':' cs)
  let (second, cs) ← digits? 2 2 (← after? ':' cs)
  let (fraction, cs) := match cs with
    | '.' :: rest => (micros (rest.takeWhile isAsciiDigit), rest.dropWhile isAsciiDigit)
    | _ => (0, cs)
  return (hour, minute, second, fraction, ← offset? cs)

/-- The fields of a date or a moment. -/
def timeFields? (cs : List Char) : Option TimeFields := do
  let (year, cs) ← digits? 4 4 cs
  let (month, cs) ← digits? 1 2 (← after? '-' cs)
  let (day, cs) ← digits? 1 2 (← after? '-' cs)
  let time ← if cs.isEmpty then some none else (timeOfDay? cs).map some
  return { year, month, day, time }

/-- A date or a moment. -/
def timestamp (cs : List Char) : Except ValueFault Value :=
  match timeFields? (Plain.withoutLineFeed cs) with
  | none => fail .notTime
  | some t =>
    let made : Except CalendarFault Value :=
      match t.time with
      | none => (Date.make t.year t.month t.day).map .date
      | some (hour, minute, second, micro, offset) =>
        (Moment.make t.year t.month t.day hour minute second micro offset).map .moment
    match made with
    | .ok v => .ok v
    | .error fault => fail (.noSuchTime fault)

/-- The tags of scalars. -/
def tags : List String :=
  [Tag.text, Tag.null, Tag.bool, Tag.int, Tag.float, Tag.octets, Tag.timestamp]

/-- Whether a tag is that of a scalar. -/
def isTag (tag : String) : Bool := tags.contains tag

/-- The value of a scalar by its tag. -/
def value (tag : String) (t : Text) (mark : Mark) : Except ValueFault Value :=
  if tag == Tag.bool then (bool t).map .bool
  else if tag == Tag.int then (int t).map .int
  else if tag == Tag.float then (float t).map .float
  else if tag == Tag.octets then (octets t mark).map .octets
  else if tag == Tag.timestamp then timestamp t.chars
  else if tag == Tag.null then .ok .null
  else .ok (.text t)

end Scalar

end TemplateAudit.Yaml
