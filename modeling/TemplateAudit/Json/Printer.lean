import TemplateAudit.Json.Basic

/-!
# TemplateAudit.Json.Printer

JSON in ASCII. Texts escape every code point outside ASCII by its UTF-16 units, four small
digits to base sixteen each; line feed, carriage return, tab, backspace, form feed, the double
quote and the backslash have short escapes; the other controls, the delete character among
them, are escaped by number.

`Json.compact` puts a document on one line. `Json.indented` gives each item and each member a
line of its own, two blanks further in than the bracket around them; empty brackets close on
the same line. Integers are written with all their digits, however many these are: the limit
`Number.maxDigits` is one of settings.
-/

namespace TemplateAudit.Json

open TemplateAudit.Text (hexPadded)

/-- One UTF-16 unit, escaped. -/
def escapeUnit (n : Nat) : List Char := '\\' :: 'u' :: hexPadded 4 n

/-- The UTF-16 units of a character. -/
def utf16Units (c : Char) : List Nat :=
  let n := c.toNat
  if n < 0x10000 then [n]
  else [0xD800 + (n - 0x10000) / 0x400, 0xDC00 + (n - 0x10000) % 0x400]

/-- One character inside a text. -/
def escapeChar (c : Char) : List Char :=
  if c == '"' then ['\\', '"']
  else if c == '\\' then ['\\', '\\']
  else if c == '\n' then ['\\', 'n']
  else if c == '\r' then ['\\', 'r']
  else if c == '\t' then ['\\', 't']
  else if c.toNat == 0x08 then ['\\', 'b']
  else if c.toNat == 0x0C then ['\\', 'f']
  else if 0x20 ≤ c.toNat && c.toNat < 0x7F then [c]
  else (utf16Units c).flatMap escapeUnit

/-- One code point inside a text. -/
def escapePoint : Text.Point → List Char
  | .char c => escapeChar c
  | p => escapeUnit p.code

/-- A text between quotes. -/
def textChars (t : Text) : List Char := '"' :: t.flatMap escapePoint ++ ['"']

/-- An integer in decimal. -/
def intChars (n : Int) : List Char :=
  (if n < 0 then ['-'] else []) ++ Nat.toDigits 10 n.natAbs

/-- A double in decimal, or by its name where no decimal writes it. -/
def floatChars : Number.Binary64 → List Char
  | .nan => "NaN".toList
  | .infinite false => "Infinity".toList
  | .infinite true => "-Infinity".toList
  | d => d.text.toList

/-- A null, a truth value, a number or a text. -/
def atomChars : Json → List Char
  | .null => "null".toList
  | .bool true => "true".toList
  | .bool false => "false".toList
  | .int n => intChars n
  | .float d => floatChars d
  | .text t => textChars t
  | .list _ => []
  | .object _ => []

mutual

/-- A document on one line. -/
def compactChars : Json → List Char
  | .list items => '[' :: compactItems items ++ [']']
  | .object members => '{' :: compactMembers members ++ ['}']
  | j => atomChars j

/-- Items on one line, divided by commas. -/
def compactItems : List Json → List Char
  | [] => []
  | [j] => compactChars j
  | j :: js => compactChars j ++ ',' :: compactItems js

/-- Members on one line, divided by commas. -/
def compactMembers : List (Text × Json) → List Char
  | [] => []
  | [(name, j)] => textChars name ++ ':' :: compactChars j
  | (name, j) :: ms => textChars name ++ ':' :: compactChars j ++ ',' :: compactMembers ms

end

/-- A line feed and the blanks of a level. -/
def newLine (level : Nat) : List Char := '\n' :: List.replicate (2 * level) ' '

mutual

/-- A document at a level of indentation. -/
def indentedChars (level : Nat) : Json → List Char
  | .list [] => ['[', ']']
  | .list items => '[' :: indentedItems (level + 1) items ++ newLine level ++ [']']
  | .object [] => ['{', '}']
  | .object members => '{' :: indentedMembers (level + 1) members ++ newLine level ++ ['}']
  | j => atomChars j

/-- Items, each on a line of its own. -/
def indentedItems (level : Nat) : List Json → List Char
  | [] => []
  | [j] => newLine level ++ indentedChars level j
  | j :: js => newLine level ++ indentedChars level j ++ ',' :: indentedItems level js

/-- Members, each on a line of its own. -/
def indentedMembers (level : Nat) : List (Text × Json) → List Char
  | [] => []
  | [(name, j)] => newLine level ++ textChars name ++ ':' :: ' ' :: indentedChars level j
  | (name, j) :: ms =>
    newLine level ++ textChars name ++ ':' :: ' ' :: indentedChars level j ++
      ',' :: indentedMembers level ms

end

/-- A document on one line. -/
def compact (j : Json) : String := String.ofList (compactChars j)

/-- A document with a line for each item and member. -/
def indented (j : Json) : String := String.ofList (indentedChars 0 j)

end TemplateAudit.Json
