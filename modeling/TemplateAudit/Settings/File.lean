import TemplateAudit.Files.Tree
import TemplateAudit.Settings
import TemplateAudit.Yaml.Supply
import TemplateAudit.Yaml.Value

/-!
# TemplateAudit.Settings.File

Settings from a file. A file that is missing or empty leaves everything as it is by default.
-/

namespace TemplateAudit

open TemplateAudit.Data (Store Value)
open TemplateAudit.Files (FileFault Path Tree)

/-- The file that settings are read from, unless another one is named. -/
def defaultSettingsFile : String := ".guardrails-annotator.yaml"

/-- A fault of a settings file. What is wrong with the text is told as a problem; a text that
cannot be decoded, an escape that names no character and a version with too many digits are
not. -/
def settingsFault (path : String) (fault : Yaml.Fault) : SettingsError :=
  match fault with
  | .undecodable => .failed (.text fault)
  | .noCodePoint _ => .failed (.text fault)
  | .tooManyDigits _ => .failed (.text fault)
  | _ => .invalid (.unreadable path (fault.message { name := path, text := none }))

/-- The value that a settings file holds, null if it is empty, and its collections. -/
def settingsValue (path : String) (octets : List UInt8) : Except SettingsError (Value × Store) :=
  match Yaml.composeFile octets with
  | .error fault => .error (settingsFault path fault)
  | .ok none => .ok (.null, #[])
  | .ok (some root) =>
    match Yaml.valueOf root with
    | .ok result => .ok result
    | .error (.document fault) => .error (settingsFault path fault)
    | .error (.scalar fault) => .error (.failed (.scalar fault))

/-- The settings that a value asks for. -/
def Settings.ofValue (path : String) (store : Store) (v : Value) :
    Except SettingsError Settings :=
  match v.opened store with
  | .null => .ok .default
  | .mapping entries => Settings.ofEntries store entries
  | _ => .error (.invalid (.notMapping path))

/-- The settings in a file. -/
def Settings.load (files : Tree) (path : Option String) : Except SettingsError Settings :=
  let p := Path.ofText (path.getD defaultSettingsFile)
  let unreadable (fault : FileFault) : SettingsError :=
    .invalid (.unreadable p.text fault.message)
  match files.readIfThere p with
  | .error fault => .error (unreadable fault)
  | .ok none => .ok .default
  | .ok (some octets) => do
    let (v, store) ← settingsValue p.text octets
    Settings.ofValue p.text store v

end TemplateAudit
