import TemplateAudit.Annotate.File
import TemplateAudit.Command.Arguments
import TemplateAudit.Report.Json
import TemplateAudit.Report.Text
import TemplateAudit.Report.Workflow
import TemplateAudit.Settings.File

/-!
# TemplateAudit.Command.Run

What the program does when it is called: from the words of the command line, the files and
standard input to an exit code, two texts, and files again.
-/

namespace TemplateAudit.Command

open TemplateAudit.Data (Value)
open TemplateAudit.Files (FileFault Path Tree)

/-- The name of the template that stands for standard input. -/
def stdinMark : String := "-"

/-- What the program does not handle. -/
inductive Breakdown
  | settings (failure : SettingsFailure)
  | file (fault : FileFault)
  | stdinNotUtf8 (error : Text.Utf8.Error)
  | misattributed (fault : Misattributed)
  /-- A report would hold something that is no text. -/
  | notText
  /-- No format was given for the report. -/
  | noFormat
  /-- A report has surrogates, so that no file can hold it; `points` is the first row of them. -/
  | notEncodable (points : Text) (position : Nat)

/-- A row of surrogates, and where it starts. -/
def surrogateMessage (points : Text) (position : Nat) : String :=
  match points with
  | [p] =>
    let code := String.ofList (Text.escapeCode p.code)
    s!"'utf-8' codec can't encode character '{code}' in position {position}: " ++
      "surrogates not allowed"
  | ps =>
    let last := position + ps.length - 1
    s!"'utf-8' codec can't encode characters in position {position}-{last}: " ++
      "surrogates not allowed"

/-- The wording of what is not handled. -/
def Breakdown.message : Breakdown → String
  | .settings failure => failure.message
  | .file fault => fault.message
  | .stdinNotUtf8 e => Yaml.utf8Message e
  | .misattributed _ => "a finding of no rule"
  | .notText => "a report without text"
  | .noFormat => "a report without a format"
  | .notEncodable points position => surrogateMessage points position

/-- How a call of the program ends. -/
inductive Ending
  | exit (code : Nat)
  | failed (cause : Breakdown)

/-- What a call of the program does. -/
structure Effect where
  ending : Ending
  stdout : Text
  stderr : String
  files : Tree

/-- What a call of the program is given. -/
structure World where
  files : Tree
  stdin : List UInt8
  /-- The time as it stands on records of the log. -/
  time : String
  clock : Clock

/-- The rules of the built-in catalog, one on a line. -/
def ruleList : Text :=
  Text.join "\n" <| Catalog.builtin.rules.map fun r =>
    Report.Text.padRight 28 r.id ++ " " ++ Report.Text.padRight 9 r.importance.name ++ " " ++
      (r.title.getD .null).printed

/-- Ends a call at once. -/
def World.leave (w : World) (code : Nat) (stdout : Text) (stderr : String) : Effect :=
  { ending := .exit code, stdout, stderr, files := w.files }

/-- Ends a call because of something that is not handled. -/
def World.fail (w : World) (cause : Breakdown) : Effect :=
  { ending := .failed cause, stdout := [], stderr := "", files := w.files }

/-- Ends a call because of the way the program was called. -/
def World.misuse (w : World) (message : String) : Effect :=
  w.leave 2 [] (usageError message)

/-- The settings of a call: those of the file, overridden by the arguments. -/
def settingsFor (w : World) (a : Arguments) : Except SettingsError Settings := do
  let s ← Settings.load w.files (a.config.filter fun path => !path.isEmpty)
  let off ← match a.disabled.mapM id with
    | some ids => pure (ids.map Text.ofString)
    | none => throw (.failed .ruleNotNamed)
  let disabled := s.disabled ++ off
  let c ← s.configuration.withOverrides { Overrides.none with
    maxAnnotations := a.maxAnnotations.elim .null fun count => count.elim (.list []) .int
    disabled := if off.isEmpty then .null else .ofTexts disabled }
  return { s with maxAnnotations := c.maxAnnotations, disabled }

/-- Why there is no template. -/
inductive InputFault
  | noSuchTemplate
  | failed (cause : Breakdown)

/-- The text of the template of a call. -/
def inputFor (w : World) (template : String) : Except InputFault String :=
  if template == stdinMark then
    match Text.Utf8.decodeStrict w.stdin with
    | .ok cs => .ok (String.ofList (Text.unifyBreaks cs))
    | .error e => .error (.failed (.stdinNotUtf8 e))
  else
    match templateText w.files template with
    | .ok text => .ok text
    | .error (.noTemplate _) => .error .noSuchTemplate
    | .error fault => .error (.failed (.file fault))

/-- A report in a format. -/
def render (format path : String) (o : Outcome LineRef Text) : Text :=
  if format == "json" then Report.Json.render path o
  else if format == "github" then Report.Workflow.render path o
  else Report.Text.render path o

/-- The octets of a text, or the first row of surrogates in it and where that starts. -/
def octetsOf (t : Text) : Except (Text × Nat) (List UInt8) :=
  match t.dropWhile (!·.isSurrogate) with
  | [] => .ok (Text.Utf8.encode t.chars)
  | rest => .error (rest.takeWhile (·.isSurrogate), t.length - rest.length)

/-- Puts a report where it was asked for. A file is made before the text is looked at. -/
def deliver (w : World) (output : Option String) (report : Text) (code : Nat)
    (stderr : String) : Effect :=
  match output.filter fun path => !path.isEmpty with
  | none => w.leave code (report ++ "\n") stderr
  | some path =>
    let octets := octetsOf (report ++ "\n")
    match w.files.write (Path.ofText path) (octets.toOption.getD []), octets with
    | .ok files, .ok _ => { w.leave code ("Report written to " ++ path ++ "\n") stderr with files }
    | .ok files, .error (points, position) =>
      { w.fail (.notEncodable points position) with stderr, files }
    | .error fault, _ => { w.fail (.file fault) with stderr }

/-- Annotates the template of a call. -/
def annotateCall (w : World) (a : Arguments) (template : String) : Effect :=
  match settingsFor w a with
  | .error (.invalid problem) => w.misuse problem.message
  | .error (.failed failure) => w.fail (.settings failure)
  | .ok settings =>
    match inputFor w template with
    | .error .noSuchTemplate =>
      w.leave 1 [] ("Failed to load template: " ++ template ++ "\n")
    | .error (.failed cause) => w.fail cause
    | .ok text =>
      let source := CatalogSource.loader fun _ => .catalog Catalog.builtin
      match annotate source settings (.text text) w.clock with
      | .error fault => w.fail (.misattributed fault)
      | .ok run =>
        let stderr := Log.render (.ofVerbosity (.whole a.verbosity)) w.time run.log
        let path := if template == stdinMark then "<stdin>" else template
        match a.format, run.outcome.texts? with
        | none, _ => { w.fail .noFormat with stderr }
        | _, none => { w.fail .notText with stderr }
        | some format, some o => deliver w a.output (render format path o) o.exitCode stderr

/-- A call of the program. -/
def call (w : World) (words : List String) : Effect :=
  match parse words with
  | .error .help => w.leave 0 help ""
  | .error (.misuse message) => w.misuse message
  | .ok a =>
    if a.listRules then w.leave 0 (ruleList ++ "\n") ""
    else
      match a.template.filter fun template => !template.isEmpty with
      | none => w.misuse "the template argument is required"
      | some template => annotateCall w a template

/-! ## What a call needs -/

/-- The paths of the files that a call may look at or write. -/
def pathsNamed (words : List String) : List String :=
  match parse words with
  | .error _ => []
  | .ok a =>
    [a.config.getD defaultSettingsFile, defaultSettingsFile] ++ a.template.toList ++
      a.output.toList

/-- Whether a call reads standard input. -/
def readsStdin (words : List String) : Bool :=
  match parse words with
  | .error _ => false
  | .ok a => a.template == some stdinMark

end TemplateAudit.Command
