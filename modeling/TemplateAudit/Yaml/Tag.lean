import TemplateAudit.Text.Pattern
import TemplateAudit.Text.Point

/-!
# TemplateAudit.Yaml.Tag

Tags, which say what kind of value a node stands for, and the tag that a plain scalar has by the
way it is written.
-/

namespace TemplateAudit.Yaml

open TemplateAudit.Text

namespace Tag

/-- What the tags of the standard kinds of values start with. -/
def standard : String := "tag:yaml.org,2002:"

/-! The tags of the standard kinds of values. -/

def null : String := standard ++ "null"
def bool : String := standard ++ "bool"
def int : String := standard ++ "int"
def float : String := standard ++ "float"
def text : String := standard ++ "str"
def octets : String := standard ++ "binary"
def timestamp : String := standard ++ "timestamp"
def sequence : String := standard ++ "seq"
def mapping : String := standard ++ "map"
def orderedMapping : String := standard ++ "omap"
def pairs : String := standard ++ "pairs"
def set : String := standard ++ "set"
def merge : String := standard ++ "merge"
def value : String := standard ++ "value"
def indicator : String := standard ++ "yaml"

/-- The tag that asks for the kind to be read off the text. -/
def unspecific : String := "!"

end Tag

namespace Plain

open Pattern

/-- An optional sign. -/
def sign : Pattern := .optional (.anyOf "+-")

/-- A decimal digit. -/
def digit : Pattern := .one isAsciiDigit

/-- Decimal digits and low lines. -/
def digitsAndLines : Pattern := .star (.one fun c => isAsciiDigit c || c == '_')

/-- Groups of minutes and seconds, each after a colon. -/
def sixtieths : Pattern :=
  .repeated (.row [.word ":", .optional (.anyOf "012345"), digit])

/-- A power of ten, with its sign. -/
def exponent : Pattern := .optional (.row [.anyOf "eE", .anyOf "+-", .repeated digit])

/-- The ways to write a truth value. -/
def bool : Pattern :=
  .anyWord ["yes", "Yes", "YES", "no", "No", "NO", "true", "True", "TRUE", "false", "False",
    "FALSE", "on", "On", "ON", "off", "Off", "OFF"]

/-- The ways to write a number with a point. -/
def float : Pattern :=
  .choice [
    .row [sign, digit, digitsAndLines, .word ".", digitsAndLines, exponent],
    .row [.word ".", digit, digitsAndLines, exponent],
    .row [sign, digit, digitsAndLines, sixtieths, .word ".", digitsAndLines],
    .row [sign, .word ".", .anyWord ["inf", "Inf", "INF"]],
    .row [.word ".", .anyWord ["nan", "NaN", "NAN"]]]

/-- The ways to write a whole number. -/
def int : Pattern :=
  .choice [
    .row [sign, .word "0b", .repeated (.anyOf "01_")],
    .row [sign, .word "0", .repeated (.anyOf "01234567_")],
    .row [sign, .alt (.word "0") (.row [.anyOf "123456789", digitsAndLines])],
    .row [sign, .word "0x", .repeated (.one fun c => (hexDigit? c).isSome || c == '_')],
    .row [sign, .anyOf "123456789", digitsAndLines, sixtieths]]

/-- The ways to write no value. -/
def null : Pattern := .anyWord ["~", "null", "Null", "NULL", ""]

/-- One or two digits. -/
def shortNumber : Pattern := .row [digit, .optional digit]

/-- Blanks within a line. -/
def gap : Pattern := .star (.anyOf " \t")

/-- The offset of a time from universal time. -/
def offset : Pattern :=
  .alt (.word "Z") (.row [.anyOf "+-", shortNumber, .optional (.row [.word ":", digit, digit])])

/-- A time of day, with what divides it from the date. -/
def timeOfDay : Pattern :=
  .row [.alt (.anyOf "Tt") (.repeated (.anyOf " \t")), shortNumber, .word ":", digit, digit,
    .word ":", digit, digit, .optional (.row [.word ".", .star digit]),
    .optional (.row [gap, offset])]

/-- The ways to write a date, or a date and a time. -/
def timestamp : Pattern :=
  .choice [
    .row [digit, digit, digit, digit, .word "-", digit, digit, .word "-", digit, digit],
    .row [digit, digit, digit, digit, .word "-", shortNumber, .word "-", shortNumber, timeOfDay]]

/-- The ways to write the kinds of values, in the order in which they are tried. -/
def kinds : List (Pattern × String) :=
  [(bool, Tag.bool), (float, Tag.float), (int, Tag.int), (.word "<<", Tag.merge),
    (null, Tag.null), (timestamp, Tag.timestamp), (.word "=", Tag.value),
    (.anyOf "!&*", Tag.indicator)]

/-- A text without a line feed at its end. -/
def withoutLineFeed (cs : List Char) : List Char :=
  if cs.length ≠ 1 && cs.getLast? == some '\n' then cs.dropLast else cs

end Plain

/-- The tag of a scalar that is written plainly. A line feed at the end makes no difference. -/
def plainTag (text : Text) : String :=
  let cs := Plain.withoutLineFeed text.chars
  match Plain.kinds.find? fun kind => kind.1.accepts cs with
  | some (_, tag) => tag
  | none => Tag.text

end TemplateAudit.Yaml
