import TemplateAudit.Json.Basic
import TemplateAudit.Number.Literal

/-!
# TemplateAudit.Json.Reader

Reading JSON: the grammar of the format, with blanks allowed around every token. A text may
escape any UTF-16 unit; a pair of surrogate units is one character and a lone surrogate stays
one. The doubles that no decimal writes have names: `NaN`, `Infinity` and `-Infinity`.
`Json.parse?` reads a whole document and refuses what follows it.

The functions return what they read and the characters after it. A document costs a unit of
fuel, and so does an item or a member around it; each of them has a character of its own, so
twice the length of the text is enough.
-/

namespace TemplateAudit.Json

open TemplateAudit.Number (Binary64)
open TemplateAudit.Text (Point hexDigit? isAsciiDigit)

/-- The blanks of JSON. -/
def isSpace (c : Char) : Bool := c == ' ' || c == '\n' || c == '\r' || c == '\t'

/-- The characters after the blanks at the start. -/
def skipSpaces (cs : List Char) : List Char := cs.dropWhile isSpace

/-- The number that four digits to base sixteen write. -/
def readUnit? (a b c d : Char) : Option Nat := do
  let a ← hexDigit? a
  let b ← hexDigit? b
  let c ← hexDigit? c
  let d ← hexDigit? d
  return ((a * 16 + b) * 16 + c) * 16 + d

/-- The character of a surrogate pair. -/
def pairChar (high low : Nat) : Char :=
  Char.ofNat (0x10000 + (high - 0xD800) * 0x400 + (low - 0xDC00))

/-- Whether two units are the halves of one character, the first half first. -/
def isPair (high low : Nat) : Bool :=
  0xD800 ≤ high && high < 0xDC00 && 0xDC00 ≤ low && low < 0xE000

/-- The code points of a text up to its closing quote, and what follows the quote. -/
def readText? : List Char → Option (Text × List Char)
  | [] => none
  | '"' :: cs => some ([], cs)
  | '\\' :: 'u' :: a :: b :: c :: d :: '\\' :: 'u' :: a' :: b' :: c' :: d' :: cs => do
    let high ← readUnit? a b c d
    let low ← readUnit? a' b' c' d'
    if isPair high low then
      let (t, rest) ← readText? cs
      return (.char (pairChar high low) :: t, rest)
    else
      let (t, rest) ← readText? ('\\' :: 'u' :: a' :: b' :: c' :: d' :: cs)
      return (Point.ofCode high :: t, rest)
  | '\\' :: 'u' :: a :: b :: c :: d :: cs => do
    let n ← readUnit? a b c d
    let (t, rest) ← readText? cs
    return (Point.ofCode n :: t, rest)
  | '\\' :: c :: cs => do
    let e ← match c with
      | '"' => some '"'
      | '\\' => some '\\'
      | '/' => some '/'
      | 'b' => some (Char.ofNat 0x08)
      | 'f' => some (Char.ofNat 0x0C)
      | 'n' => some '\n'
      | 'r' => some '\r'
      | 't' => some '\t'
      | _ => none
    let (t, rest) ← readText? cs
    return (.char e :: t, rest)
  | c :: cs =>
    if c.toNat < 0x20 then none
    else do
      let (t, rest) ← readText? cs
      return (.char c :: t, rest)

/-- Digits at the start, and what follows them. -/
def takeDigits (cs : List Char) : List Char × List Char :=
  (cs.takeWhile isAsciiDigit, cs.dropWhile isAsciiDigit)

/-- The whole part of a number: a zero alone, or digits that do not start with one. -/
def readWhole? (cs : List Char) : Option (List Char × List Char) :=
  match takeDigits cs with
  | ([], _) => none
  | (['0'], rest) => some (['0'], rest)
  | ('0' :: _, _) => none
  | (ds, rest) => some (ds, rest)

/-- The part of a number after a point, if there is a point. -/
def readFraction? : List Char → Option (List Char × List Char)
  | '.' :: cs =>
    match takeDigits cs with
    | ([], _) => none
    | (ds, rest) => some (ds, rest)
  | cs => some ([], cs)

/-- The exponent of a number, if there is one. -/
def readPower? : List Char → Option (Option Int × List Char)
  | c :: cs =>
    if c == 'e' || c == 'E' then
      let (neg, body) := Number.splitSign cs
      match takeDigits body with
      | ([], _) => none
      | (ds, rest) =>
        let n := Int.ofNat (Number.ofDigits 10 (ds.map (·.toNat - '0'.toNat)))
        some (some (if neg then -n else n), rest)
    else some (none, c :: cs)
  | [] => some (none, [])

/-- A number without its sign. -/
def readUnsigned? (neg : Bool) (cs : List Char) : Option (Json × List Char) := do
  let (whole, rest) ← readWhole? cs
  let (part, rest) ← readFraction? rest
  let (power, rest) ← readPower? rest
  let value := Number.ofDigits 10 ((whole ++ part).map (·.toNat - '0'.toNat))
  if part.isEmpty && power.isNone then
    return (.int (if neg then -Int.ofNat value else Int.ofNat value), rest)
  else
    let exponent := power.getD 0 - Int.ofNat part.length
    return (.float (Binary64.ofDecimal neg value exponent), rest)

/-- What follows a word at the start. -/
def afterWord? : (word : List Char) → List Char → Option (List Char)
  | [], cs => some cs
  | w :: word, c :: cs => if w == c then afterWord? word cs else none
  | _ :: _, [] => none

/-- A number after its sign, which may be without bound. -/
def readMagnitude? (neg : Bool) (cs : List Char) : Option (Json × List Char) :=
  match afterWord? "Infinity".toList cs with
  | some rest => some (.float (.infinite neg), rest)
  | none => readUnsigned? neg cs

/-- A number. -/
def readNumber? : List Char → Option (Json × List Char)
  | '-' :: cs => readMagnitude? true cs
  | cs =>
    match afterWord? "NaN".toList cs with
    | some rest => some (.float .nan, rest)
    | none => readMagnitude? false cs

mutual

/-- A document, after the blanks before it. -/
def readJson? : (fuel : Nat) → List Char → Option (Json × List Char)
  | 0, _ => none
  | fuel + 1, cs =>
    match skipSpaces cs with
    | 'n' :: 'u' :: 'l' :: 'l' :: rest => some (.null, rest)
    | 't' :: 'r' :: 'u' :: 'e' :: rest => some (.bool true, rest)
    | 'f' :: 'a' :: 'l' :: 's' :: 'e' :: rest => some (.bool false, rest)
    | '"' :: rest => (readText? rest).map fun (t, rest) => (.text t, rest)
    | '[' :: rest =>
      match skipSpaces rest with
      | ']' :: rest => some (.list [], rest)
      | rest => (readItems? fuel rest).map fun (js, rest) => (.list js, rest)
    | '{' :: rest =>
      match skipSpaces rest with
      | '}' :: rest => some (.object [], rest)
      | rest => (readMembers? fuel rest).map fun (ms, rest) => (.object ms, rest)
    | rest => readNumber? rest

/-- The items of a list up to its closing bracket. -/
def readItems? : (fuel : Nat) → List Char → Option (List Json × List Char)
  | 0, _ => none
  | fuel + 1, cs => do
    let (j, rest) ← readJson? fuel cs
    match skipSpaces rest with
    | ',' :: rest =>
      let (js, rest) ← readItems? fuel rest
      return (j :: js, rest)
    | ']' :: rest => return ([j], rest)
    | _ => none

/-- The members of an object up to its closing bracket. -/
def readMembers? : (fuel : Nat) → List Char → Option (List (Text × Json) × List Char)
  | 0, _ => none
  | fuel + 1, cs =>
    match skipSpaces cs with
    | '"' :: rest => do
      let (name, rest) ← readText? rest
      match skipSpaces rest with
      | ':' :: rest =>
        let (j, rest) ← readJson? fuel rest
        match skipSpaces rest with
        | ',' :: rest =>
          let (ms, rest) ← readMembers? fuel rest
          return ((name, j) :: ms, rest)
        | '}' :: rest => return ([(name, j)], rest)
        | _ => none
      | _ => none
    | _ => none

end

/-- A whole document. -/
def parseChars? (cs : List Char) : Option Json :=
  match readJson? (2 * cs.length + 2) cs with
  | some (j, rest) => if (skipSpaces rest).isEmpty then some j else none
  | none => none

/-- A whole document. -/
def parse? (s : String) : Option Json := parseChars? s.toList

end TemplateAudit.Json
