import TemplateAudit.Number.Shortest
import TemplateAudit.Text.Blank
import TemplateAudit.Text.Digit

/-!
# TemplateAudit.Number.Literal

Reading numbers from text.

Blanks around a number are ignored, the separators of fields excepted, and digits of every
script count as the ASCII ones. A single underscore may stand between two digits. `readInt`
takes a base; to base 2, 8 and 16 the letter of the base may stand before the digits.
`readFloat?` takes a decimal with an optional point and exponent, or a word for infinity or
not-a-number in any case.
-/

namespace TemplateAudit.Number

open TemplateAudit.Text

/-- Digits of every script as ASCII digits; what is neither a digit nor ASCII is no part of any
number. -/
def plainChar (c : Char) : Char :=
  if c.toNat < 0x80 then c
  else
    match digit? c with
    | some d => Char.ofNat ('0'.toNat + d)
    | none => '?'

/-- The four controls that separate fields. They are blanks in a text, but not around a
number. -/
def isFieldSeparator (c : Char) : Bool := 0x1C ≤ c.toNat && c.toNat ≤ 0x1F

/-- A character as it stands around a number: a separator of fields is no part of any number. -/
def aroundNumber (c : Char) : Char := if isFieldSeparator c then '?' else c

/-- A numeral without the blanks around it, its digits in ASCII. -/
def plainNumeral (cs : List Char) : List Char :=
  (stripChars (cs.map aroundNumber)).map plainChar

/-- An optional sign, and what follows it. -/
def splitSign : List Char → Bool × List Char
  | '-' :: cs => (true, cs)
  | '+' :: cs => (false, cs)
  | cs => (false, cs)

/-- The value of a digit to a base. -/
def digitTo? (base : Nat) (c : Char) : Option Nat :=
  (hexDigit? c).bind fun d => if d < base then some d else none

/-- The digits at the start of a numeral to a base, and what follows them. One underscore may
stand between two digits, and nowhere else. `afterDigit` says whether a digit has just been
read. -/
def readDigits? (base : Nat) (afterDigit : Bool) : List Char → Option (List Nat × List Char)
  | [] => some ([], [])
  | '_' :: cs =>
    match cs with
    | c :: rest =>
      match digitTo? base c with
      | some d =>
        if afterDigit then (readDigits? base true rest).map fun r => (d :: r.1, r.2) else none
      | none => none
    | [] => none
  | c :: cs =>
    match digitTo? base c with
    | some d => (readDigits? base true cs).map fun r => (d :: r.1, r.2)
    | none => some ([], c :: cs)

/-- The value of digits to a base. -/
def ofDigits (base : Nat) (ds : List Nat) : Nat := ds.foldl (fun n d => n * base + d) 0

/-- What stands before the digits to base 2, 8 or 16 and may be left out. -/
def dropBaseMark (base : Nat) : List Char → List Char
  | '0' :: c :: cs =>
    let letter := if base == 2 then 'b' else if base == 8 then 'o' else 'x'
    if (base == 2 || base == 8 || base == 16) && (c == letter || c == letter.toUpper) then
      match cs with
      | '_' :: rest => rest
      | rest => rest
    else '0' :: c :: cs
  | cs => cs

/-- The most digits of an integer to base ten that is read or written. -/
def maxDigits : Nat := 4300

/-- Whether an integer has too many digits to base ten to be written. -/
def isTooLong (n : Int) : Bool := tenTo maxDigits ≤ n.natAbs

/-- What is said of an integer with too many digits, `count` of them when it is read. -/
def tooLongMessage (count : Option Nat) : String :=
  let found := match count with
    | some n => s!": value has {n} digits"
    | none => ""
  s!"Exceeds the limit ({maxDigits} digits) for integer string conversion{found}; " ++
    "use sys.set_int_max_str_digits() to increase the limit"

/-- Why a text is no integer. -/
inductive IntFault
  | malformed
  | tooLong (digits : Nat)
  deriving DecidableEq, Repr

/-- The integer that a text denotes to a base. The digits are counted before what follows them is
looked at. -/
def readInt (base : Nat) (cs : List Char) : Except IntFault Int :=
  let (neg, body) := splitSign (plainNumeral cs)
  match readDigits? base false (dropBaseMark base body) with
  | none => .error .malformed
  | some (ds, rest) =>
    if base == 10 && maxDigits < ds.length then .error (.tooLong ds.length)
    else if ds.isEmpty || !rest.isEmpty then .error .malformed
    else
      let n := Int.ofNat (ofDigits base ds)
      .ok (if neg then -n else n)

/-- A row of digits with single underscores between them, and what follows it. -/
def spanDigits : List Char → List Nat × List Char
  | [] => ([], [])
  | c :: cs =>
    if isAsciiDigit c then
      let (ds, rest) := spanDigits cs
      ((c.toNat - '0'.toNat) :: ds, rest)
    else ([], c :: cs)

/-- The text without underscores, if each of them stands between two digits. -/
def dropUnderscores? (previous : Char) : List Char → Option (List Char)
  | [] => if previous == '_' then none else some []
  | c :: cs =>
    if c == '_' then
      if isAsciiDigit previous then dropUnderscores? c cs else none
    else if previous == '_' && !isAsciiDigit c then none
    else (dropUnderscores? c cs).map (c :: ·)

/-- An exponent: nothing, or the letter `e`, an optional sign and digits up to the end. -/
def readExponent? : List Char → Option Int
  | [] => some 0
  | c :: cs =>
    if c == 'e' || c == 'E' then
      let (neg, body) := splitSign cs
      match spanDigits body with
      | (d :: ds, []) =>
        let n := Int.ofNat (ofDigits 10 (d :: ds))
        some (if neg then -n else n)
      | _ => none
    else none

/-- A decimal without a sign. -/
def readDecimal? (neg : Bool) (cs : List Char) : Option Binary64 :=
  let (whole, rest) := spanDigits cs
  let (part, rest) := match rest with
    | '.' :: more => spanDigits more
    | _ => ([], rest)
  if whole.isEmpty && part.isEmpty then none
  else
    (readExponent? rest).map fun exponent =>
      Binary64.ofDecimal neg (ofDigits 10 (whole ++ part)) (exponent - Int.ofNat part.length)

/-- The double that a numeral in ASCII denotes, without blanks around it. -/
def readPlainFloat? (cs : List Char) : Option Binary64 :=
  let (neg, body) := splitSign cs
  match String.ofList (body.map Char.toLower) with
  | "inf" => some (.infinite neg)
  | "infinity" => some (.infinite neg)
  | "nan" => some .nan
  | _ => (dropUnderscores? ' ' body).bind (readDecimal? neg)

/-- The double that a text denotes. -/
def readFloat? (cs : List Char) : Option Binary64 := readPlainFloat? (plainNumeral cs)

/-- The octets of a numeral as characters; what is not ASCII is no part of any number. -/
def octetChar (b : UInt8) : Char :=
  if 0x80 ≤ b then '?' else aroundNumber (Char.ofNat b.toNat)

/-- The double that a row of ASCII octets denotes. -/
def readFloatOctets? (bs : List UInt8) : Option Binary64 :=
  readPlainFloat? (stripChars (bs.map octetChar))

end TemplateAudit.Number
