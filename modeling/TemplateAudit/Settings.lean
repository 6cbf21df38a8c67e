import TemplateAudit.Configuration
import TemplateAudit.Document

/-!
# TemplateAudit.Settings

The settings of a run: how many annotations are told, the token of directives, the order of
severities, which rules are off, and how long the rules may take.

A run works with an order that is a list of severities, with rules that are named by texts and
with a time that can be added to the reading of a clock. These are the settings that a mapping
gives. As a `Configuration` they are values again, which is what overrides are laid over. The
values of a file may be collections of a `Store`, so whatever looks into them or shows them takes
the store.
-/

namespace TemplateAudit

open TemplateAudit.Data (Store Value)
open TemplateAudit.Number (Binary64 Seconds)

/-- The settings of a run. -/
structure Settings where
  maxAnnotations : Nat
  token : Text
  order : List Severity
  /-- The identifiers of the rules that are off. -/
  disabled : List Text
  timeout : Option Seconds

/-- Severities in an order, as it is offered. -/
def Offered.ofSeverities (order : List Severity) : Offered :=
  .value (.tuple (order.map Severity.value))

/-- A set of texts, as it is offered. -/
def Offered.ofTexts (ts : List Text) : Offered := .value (.set (ts.map .text))

namespace Settings

/-- The settings of a run without any. -/
def default : Settings :=
  { maxAnnotations := 3, token := defaultToken, order := Severity.all, disabled := [],
    timeout := none }

/-- The rank of a severity: 1 is the most important. -/
def rank (s : Settings) (severity : Severity) : Nat := s.order.idxOf severity + 1

/-- Settings as a configuration. -/
def configuration (s : Settings) : Configuration :=
  { maxAnnotations := s.maxAnnotations, token := s.token, order := .ofSeverities s.order,
    disabled := .ofTexts s.disabled, timeout := s.timeout.map Seconds.quantity }

end Settings

/-! ## Settings from a mapping -/

/-- The names of the settings. -/
def settingNames : List String :=
  ["max_annotations", "suppression_token", "severity_order", "disabled_rules", "rule_timeout"]

/-- Refuses keys that are not names of settings. -/
def checkKeys (keys : List Value) : Except SettingsError Unit :=
  let unknown := keys.filter fun k => !settingNames.any fun name => k.same (.ofString name)
  if unknown.isEmpty then .ok ()
  else
    match unknown.mapM fun | .text t => some t | _ => none with
    | some names => .error (.invalid (.unknownKeys (names.mergeSort Text.notAfter)))
    | none => .error (.failed .keysNotTexts)

/-- The severity that a value names. -/
def readSeverity (store : Store) (v : Value) : Except SettingsError Severity :=
  if v.isUnwritable store then .error (.invalid .severityTooLong)
  else
    match Severity.ofText? (v.printedIn store) with
    | some severity => .ok severity
    | none => .error (.invalid (.unknownSeverity (v.shownIn store)))

/-- An order of severities by their names. -/
def readOrder (store : Store) (v : Value) : Except SettingsError (List Severity) :=
  match v.opened store with
  | .list items => items.mapM (readSeverity store)
  | .tuple items => items.mapM (readSeverity store)
  | _ => .error (.invalid .orderNotList)

/-- The texts of some values, each once. -/
def readTexts (store : Store) (vs : List Value) : Except SettingsError (List Text) :=
  if vs.any (Value.isUnwritable store) then .error (.failed .valueTooLong)
  else .ok (vs.map (Value.printedIn store)).eraseDups

/-- Identifiers of rules: a text, or the texts of several values. -/
def readDisabled (store : Store) (v : Value) : Except SettingsError (List Text) :=
  match v.opened store with
  | .text t => .ok [t]
  | .list items => readTexts store items
  | .tuple items => readTexts store items
  | .set members => readTexts store members
  | _ => .error (.invalid .disabledNotList)

/-- A number of seconds as a double. -/
def readTimeout (store : Store) (v : Value) : Except SettingsError Binary64 :=
  let number (d : Option Binary64) : Except SettingsError Binary64 :=
    match d with
    | some d => .ok d
    | none => .error (errorAbout store .timeoutNotNumber v)
  let whole (n : Int) : Except SettingsError Binary64 :=
    match Binary64.ofInt? n with
    | some d => .ok d
    | none => .error (.failed .timeoutTooLarge)
  match v with
  | .float d => .ok d
  | .bool b => whole (if b then 1 else 0)
  | .int n => whole n
  | .text t => number (Number.readFloat? t.chars)
  | .octets bs => number (Number.readFloatOctets? bs)
  | _ => number none

/-- A setting that is read by a function, unless it is missing or null. -/
def readUnlessNull {α : Type} (v : Option Value) (missing : α)
    (read : Value → Except SettingsError α) : Except SettingsError α :=
  match v with
  | none => .ok missing
  | some .null => .ok missing
  | some v => read v

/-- What a mapping asks for. -/
structure Request where
  maxAnnotations : Value
  token : Value
  order : List Severity
  disabled : List Text
  timeout : Option Binary64

/-- What the entries of a mapping ask for. -/
def Request.ofEntries (store : Store) (entries : List (Value × Value)) :
    Except SettingsError Request := do
  checkKeys (entries.map Prod.fst)
  let get (name : String) : Option Value := Value.get? entries name
  let order ← match get "severity_order" with
    | some v => readOrder store v
    | none => .ok Settings.default.order
  let disabled ← readUnlessNull (get "disabled_rules") Settings.default.disabled
    (readDisabled store)
  let timeout ← readUnlessNull (get "rule_timeout") none fun v => (readTimeout store v).map some
  return {
    maxAnnotations := (get "max_annotations").getD (.int Settings.default.maxAnnotations)
    token := (get "suppression_token").getD (.text Settings.default.token)
    order, disabled, timeout }

/-- The draft of what a mapping asks for. -/
def Request.draft (r : Request) : Draft :=
  { maxAnnotations := r.maxAnnotations, token := r.token, order := .ofSeverities r.order,
    disabled := .ofTexts r.disabled, timeout := r.timeout.elim .null .float }

/-- The settings that the entries of a mapping ask for. -/
def Settings.ofEntries (store : Store) (entries : List (Value × Value)) :
    Except SettingsError Settings := do
  let r ← Request.ofEntries store entries
  let c ← r.draft.check store
  return {
    maxAnnotations := c.maxAnnotations, token := c.token, order := r.order,
    disabled := r.disabled, timeout := r.timeout.map .real }

end TemplateAudit
