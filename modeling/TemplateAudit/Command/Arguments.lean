import TemplateAudit.Command.Usage
import TemplateAudit.Number.Literal
import TemplateAudit.Text.Quoted

/-!
# TemplateAudit.Command.Arguments

The arguments of the command line.

The words are first sorted into options, arguments and the mark that ends the options
(`classify`), then read from left to right (`readWords`). An option may be cut short as long as only
one option starts so; its value follows as the next word or after an equals sign. Options of
one letter may be joined. There is one argument; further ones are left over and make an error
in the end.

The mark is no value, and where a value can be nothing else, after an equals sign, the option
counts as given without one.
-/

namespace TemplateAudit.Command

open TemplateAudit.Text (quoted)

/-- The options. -/
inductive Flag
  | help
  | config
  | maxAnnotations
  | disable
  | format
  | output
  | listRules
  | verbose
  deriving DecidableEq, Repr

/-- The names of options, in order. -/
def flagNames : List (String × Flag) :=
  [("-h", .help), ("--help", .help), ("--config", .config),
    ("--max-annotations", .maxAnnotations), ("--disable", .disable), ("--format", .format),
    ("--out", .output), ("--output", .output), ("--list-rules", .listRules), ("-v", .verbose),
    ("--verbose", .verbose)]

/-- All names of an option. -/
def Flag.names (f : Flag) : String :=
  "/".intercalate ((flagNames.filter fun entry => entry.2 == f).map Prod.fst)

/-- Whether an option has a value. -/
def Flag.hasValue : Flag → Bool
  | .config => true
  | .maxAnnotations => true
  | .disable => true
  | .format => true
  | .output => true
  | _ => false

/-- What the command line asks for. -/
structure Arguments where
  template : Option String
  config : Option String
  /-- The number of annotations, if it is given, and if it has a value. -/
  maxAnnotations : Option (Option Int)
  /-- The rules that are to be off, those without a value among them. -/
  disabled : List (Option String)
  /-- The format of the report, none if it was given without a value. -/
  format : Option String
  output : Option String
  listRules : Bool
  verbosity : Nat
  deriving DecidableEq, Repr

/-- What an empty command line asks for. -/
def Arguments.empty : Arguments :=
  { template := none, config := none, maxAnnotations := none, disabled := [], format := some "text",
    output := none, listRules := false, verbosity := 0 }

/-- Why the program does not run. -/
inductive Stop
  /-- The help was asked for. -/
  | help
  /-- Something is wrong with the command line. -/
  | misuse (message : String)
  deriving DecidableEq, Repr

/-- An error of an option. -/
def Flag.misuse {α : Type} (f : Flag) (message : String) : Except Stop α :=
  .error (.misuse ("argument " ++ f.names ++ ": " ++ message))

/-! ## Sorting words -/

/-- What a word is. -/
inductive Word
  /-- An option, with what comes right with it: a value after an equals sign, or more letters. -/
  | option (flag : Flag) (isShort : Bool) (attached : Option (List Char))
  /-- Something that looks like an option and is none. -/
  | unknown (text : String)
  | argument (text : String)
  /-- The mark after which no option follows. -/
  | separator
  deriving DecidableEq, Repr

/-- Whether a text is a negative number. -/
def isNegativeNumber (cs : List Char) : Bool :=
  let isDigit (c : Char) : Bool := (Text.digit? c).isSome
  match cs with
  | '-' :: rest =>
    let rest := if rest.getLast? == some '\n' then rest.dropLast else rest
    let whole := rest.takeWhile isDigit
    match rest.dropWhile isDigit with
    | [] => !whole.isEmpty
    | '.' :: part => !part.isEmpty && part.all isDigit
    | _ => false
  | _ => false

/-- The text before an equals sign, and the text after it. -/
def splitEquals (cs : List Char) : List Char × Option (List Char) :=
  match cs.dropWhile (· != '=') with
  | [] => (cs, none)
  | _ :: rest => (cs.takeWhile (· != '='), some rest)

/-- The options that a long word may be short for. -/
def longMatches (cs : List Char) : List (String × Word) :=
  let (name, attached) := splitEquals cs
  (flagNames.filter fun entry => name.isPrefixOf entry.1.toList).map fun (full, flag) =>
    (full, .option flag false attached)

/-- The options that a word of letters may start with. -/
def shortMatches (cs : List Char) : List (String × Word) :=
  (flagNames.filter fun entry => entry.1.toList == cs.take 2).map fun (full, flag) =>
    (full, .option flag true (some (cs.drop 2)))

/-- What a word is that is not a mark for the end of the options. -/
def classifyWord (s : String) : Except Stop Word :=
  let cs := s.toList
  let isShort := cs.drop 1 |>.head?.any (· != '-')
  match flagNames.lookup s, cs with
  | some flag, _ => .ok (.option flag isShort none)
  | none, '-' :: _ :: _ =>
    let (name, attached) := splitEquals cs
    match attached, flagNames.lookup (String.ofList name) with
    | some _, some flag => .ok (.option flag isShort attached)
    | _, _ =>
      match if isShort then shortMatches cs else longMatches cs with
      | [] =>
        if isNegativeNumber cs || cs.contains ' ' then .ok (.argument s) else .ok (.unknown s)
      | [(_, word)] => .ok word
      | several =>
        let names := ", ".intercalate (several.map Prod.fst)
        .error (.misuse s!"ambiguous option: {s} could match {names}")
  | none, _ => .ok (.argument s)

/-- What the words of a command line are. -/
def classify : List String → Except Stop (List Word)
  | [] => .ok []
  | s :: ss =>
    if s == "--" then .ok (.separator :: ss.map .argument)
    else do
      let word ← classifyWord s
      return word :: (← classify ss)

/-! ## Reading words -/

/-- What was read so far. -/
structure Reading where
  arguments : Arguments
  /-- Whether the one argument was read. -/
  complete : Bool
  /-- The words that mean nothing. -/
  leftOver : List String

/-- The arguments with an option that is to have a value and has none. -/
def setNoValue (a : Arguments) : Flag → Arguments
  | .config => { a with config := none }
  | .maxAnnotations => { a with maxAnnotations := some none }
  | .disable => { a with disabled := a.disabled ++ [none] }
  | .format => { a with format := none }
  | .output => { a with output := none }
  | _ => a

/-- The arguments with the value of an option. -/
def setValue (a : Arguments) (f : Flag) (value : String) : Except Stop Arguments :=
  match f with
  | .config => .ok { a with config := some value }
  | .maxAnnotations =>
    match Number.readInt 10 value.toList with
    | .ok n => .ok { a with maxAnnotations := some (some n) }
    | .error _ => f.misuse ("invalid int value: " ++ quoted value)
  | .disable => .ok { a with disabled := a.disabled ++ [some value] }
  | .format =>
    if formatNames.contains value then .ok { a with format := some value }
    else
      let choices := ", ".intercalate (formatNames.map quoted)
      f.misuse s!"invalid choice: {quoted value} (choose from {choices})"
  | .output => .ok { a with output := some value }
  | _ => .ok a

/-- The arguments with an option that has no value. -/
def setFlag (a : Arguments) (f : Flag) : Except Stop Arguments :=
  match f with
  | .help => .error .help
  | .listRules => .ok { a with listRules := true }
  | .verbose => .ok { a with verbosity := a.verbosity + 1 }
  | _ => .ok a

/-- An error of an option that has no use for what is attached to it. -/
def Flag.ignored {α : Type} (f : Flag) (attached : List Char) : Except Stop α :=
  f.misuse ("ignored explicit argument " ++ quoted (String.ofList attached))

/-- The options of one letter that are joined in a word: the first, and those of the letters
attached to it. No such option has a value. -/
def joinedFlags (f : Flag) : List Char → Except Stop (List Flag)
  | [] => f.ignored []
  | c :: rest =>
    match flagNames.lookup (String.ofList ['-', c]), rest with
    | none, _ => f.ignored (c :: rest)
    | some next, [] => .ok [f, next]
    | some next, _ => (joinedFlags next rest).map (f :: ·)

/-- The arguments with an option and what is attached to it. -/
def setAttached (a : Arguments) (f : Flag) (isShort : Bool) (attached : List Char) :
    Except Stop Arguments :=
  if f.hasValue then
    if attached == ['-', '-'] then .ok (setNoValue a f)
    else setValue a f (String.ofList attached)
  else if isShort then do
    let flags ← joinedFlags f attached
    flags.foldlM setFlag a
  else f.ignored attached

/-- The text of a word that is no option. -/
def Word.text : Word → String
  | .argument s => s
  | .unknown s => s
  | .separator => "--"
  | .option .. => ""

/-- What was read with the words after the last option: the argument, with a mark before or
after it, and what is left over. -/
def readTail (r : Reading) (words : List Word) : Reading :=
  let take (s : Option String) (rest : List Word) : Reading :=
    { arguments := { r.arguments with template := s }, complete := true,
      leftOver := r.leftOver ++ rest.map Word.text }
  if r.complete then { r with leftOver := r.leftOver ++ words.map Word.text }
  else
    match words with
    | .separator :: .argument s :: rest => take (some s) rest
    | .separator :: rest => take none rest
    | .argument s :: .separator :: rest => take (some s) rest
    | .argument s :: rest => take (some s) rest
    | rest => take none rest

/-- Whether a word is in the place of an option. -/
def Word.isOption : Word → Bool
  | .option .. => true
  | .unknown _ => true
  | _ => false

/-- What is read from words. -/
def readWords (r : Reading) : List Word → Except Stop Reading
  | [] => .ok (readTail r [])
  | word :: words =>
    if !(word :: words).any Word.isOption then .ok (readTail r (word :: words))
    else
      match word with
      | .unknown s => readWords { r with leftOver := r.leftOver ++ [s] } words
      | .argument s =>
        if r.complete then readWords { r with leftOver := r.leftOver ++ [s] } words
        else
          readWords { r with arguments := { r.arguments with template := some s },
                             complete := true } words
      | .separator => readWords r words
      | .option f isShort (some attached) => do
        readWords { r with arguments := ← setAttached r.arguments f isShort attached } words
      | .option f _ none =>
        if f.hasValue then
          match words with
          | .argument s :: rest => do
            readWords { r with arguments := ← setValue r.arguments f s } rest
          | _ => f.misuse "expected one argument"
        else do
          readWords { r with arguments := ← setFlag r.arguments f } words

/-- What a command line asks for. -/
def parse (words : List String) : Except Stop Arguments := do
  let start : Reading := { arguments := .empty, complete := false, leftOver := [] }
  let r ← readWords start (← classify words)
  if r.leftOver.isEmpty then return r.arguments
  else
    let list := " ".intercalate r.leftOver
    throw (.misuse s!"unrecognized arguments: {list}")

end TemplateAudit.Command
