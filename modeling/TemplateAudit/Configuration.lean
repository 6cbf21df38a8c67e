import TemplateAudit.Number.Literal
import TemplateAudit.Severity
import TemplateAudit.Yaml.Value.Scalar

/-!
# TemplateAudit.Configuration

What a user can set, as it is asked for and as it is kept.

A `Draft` holds what was asked for, and `Draft.check` turns it into a `Configuration` or says what
is wrong with it. Overrides are values of any kind, laid over the draft of the configuration that
there is, so what holds of all configurations also holds after any number of overrides.

A configuration keeps what passed as it was given. That matters for the order of severities: the
check looks at the items of what is offered, but it is what is offered that is kept. A set has
items and no places, so it passes and no severity has a rank in it. An iterator passes once, since
its items are used up by the check. Calls are taken to offer iterators of their own.
-/

namespace TemplateAudit

open TemplateAudit.Data (Store Value)
open TemplateAudit.Number (Quantity)

/-! ## Errors -/

/-- What is wrong with settings. A value that is wrong is known as it is shown. -/
inductive SettingsProblem
  | unknownKeys (keys : List Text)
  | orderNotList
  | unknownSeverity (shown : String)
  /-- What stands for a severity holds an integer with too many digits to be shown. -/
  | severityTooLong
  | disabledNotList
  | timeoutNotNumber (shown : String)
  | maxNotWhole (shown : String)
  | maxNegative
  | tokenEmpty
  | tokenPadded
  | orderIncomplete
  | timeoutNotPositive
  | unreadable (path text : String)
  | notMapping (path : String)

/-- The wording of a problem. -/
def SettingsProblem.message : SettingsProblem → String
  | .unknownKeys keys => "Unknown configuration key(s): " ++ (Text.join ", " keys).string
  | .orderNotList => "severity_order must be a list of severity names"
  | .unknownSeverity shown => Severity.unknownMessage shown
  | .severityTooLong => Number.tooLongMessage none
  | .disabledNotList => "disabled_rules must be a list of rule identifiers"
  | .timeoutNotNumber shown => "rule_timeout must be a number, got " ++ shown
  | .maxNotWhole shown => "max_annotations must be an integer, got " ++ shown
  | .maxNegative => "max_annotations must not be negative"
  | .tokenEmpty => "suppression_token must be a non-empty string"
  | .tokenPadded => "suppression_token must not carry surrounding whitespace"
  | .orderIncomplete => "severity_order must list every severity exactly once"
  | .timeoutNotPositive => "rule_timeout must be positive"
  | .unreadable path text => "Unable to read configuration " ++ path ++ ": " ++ text
  | .notMapping path => "Configuration at " ++ path ++ " is not a mapping"

/-- What fails while settings are read and is not told as a problem of them. -/
inductive SettingsFailure
  /-- The text of a file cannot be had. -/
  | text (fault : Yaml.Fault)
  /-- A scalar in a file has no value. -/
  | scalar (fault : Yaml.ScalarFault)
  | keysNotTexts
  | timeoutTooLarge
  | timeoutNotSeconds
  /-- What is offered as an order cannot be walked over. -/
  | orderNotWalked
  /-- Something in an order is no key, so that it cannot be told whether it is there once. -/
  | orderNotKeys
  /-- A value is to be shown that holds an integer with too many digits. -/
  | valueTooLong
  | unknownSetting (name : String)
  /-- A call gives a second configuration to be overridden. -/
  | namedTwice
  /-- A rule is to be off that is not named. -/
  | ruleNotNamed

/-- The wording of a failure. -/
def SettingsFailure.message : SettingsFailure → String
  | .text fault => fault.message { name := "settings", text := none }
  | .scalar fault => fault.message
  | .keysNotTexts => "unknown keys that are no texts"
  | .timeoutTooLarge => "int too large to convert to float"
  | .timeoutNotSeconds => "no number of seconds"
  | .orderNotWalked => "an order that cannot be walked over"
  | .orderNotKeys => "an order of what can be no key"
  | .valueTooLong => Number.tooLongMessage none
  | .unknownSetting name => "no setting: " ++ name
  | .namedTwice => "two configurations to be overridden"
  | .ruleNotNamed => "a rule that is not named"

/-- Why there are no settings. -/
inductive SettingsError
  /-- The settings are wrong, and it is said how. -/
  | invalid (problem : SettingsProblem)
  /-- Something failed that is not told as a problem of the settings. -/
  | failed (failure : SettingsFailure)

/-- The error about a value, which is shown if that can be done. -/
def errorAbout (store : Store) (problem : String → SettingsProblem) (v : Value) :
    SettingsError :=
  if v.isUnwritable store then .failed .valueTooLong else .invalid (problem (v.shownIn store))

/-! ## Things to walk over -/

/-- What is offered where something to walk over is expected. -/
inductive Offered
  | value (v : Value)
  /-- An iterator, by the items that are still to come. -/
  | once (items : List Value)

namespace Offered

/-- Nothing is offered. -/
def null : Offered := .value .null

/-- Whether nothing is offered. -/
def isNull : Offered → Bool
  | .value v => v.isNull
  | .once _ => false

/-- What is offered, or something else where that is nothing. -/
def orElse (o other : Offered) : Offered := if o.isNull then other else o

/-- What walking over it yields, if it can be walked over. -/
def items? : Offered → Option (List Value)
  | .value v => v.items?
  | .once items => some items

/-- What is left of it after a walk. -/
def walked : Offered → Offered
  | .value v => .value v
  | .once _ => .once []

/-- The values in their places, if it has places. -/
def row? : Offered → Option (List Value)
  | .value (.list items) => some items
  | .value (.tuple items) => some items
  | _ => none

end Offered

/-- A severity as a value. -/
def Severity.value (severity : Severity) : Value := .ofString severity.name

/-- The severities as values, gravest first. -/
def severityValues : List Value := Severity.all.map Severity.value

/-! ## Configurations -/

/-- What is set, kept as it was given. -/
structure Configuration where
  maxAnnotations : Nat
  token : Text
  order : Offered
  /-- The identifiers of the rules that are off. -/
  disabled : Offered
  timeout : Option Quantity

/-- Why a severity has no rank. -/
inductive RankFault
  /-- What is kept as the order has no places. -/
  | noPlaces
  /-- The severity is not in the order. -/
  | missing

/-- The rank of a severity: 1 is the most important. -/
def Configuration.rank (c : Configuration) (severity : Severity) : Except RankFault Nat :=
  match c.order.row? with
  | none => .error .noPlaces
  | some row =>
    match row.findIdx? fun v => v.same severity.value with
    | some place => .ok (place + 1)
    | none => .error .missing

/-! ## Drafts -/

/-- A configuration as it is asked for. -/
structure Draft where
  maxAnnotations : Value
  token : Value
  order : Offered
  disabled : Offered
  timeout : Value

namespace Draft

/-- The number of annotations. -/
def checkMax (store : Store) : Value → Except SettingsError Nat
  | .int n => if n < 0 then .error (.invalid .maxNegative) else .ok n.toNat
  | v => .error (errorAbout store .maxNotWhole v)

/-- Whether a text starts or ends with a blank. -/
def isPadded (t : Text) : Bool :=
  t.chars.head?.any Text.isBlank || t.chars.getLast?.any Text.isBlank

/-- The token of directives: a text that is not blank and has no blanks around it. -/
def checkToken : Value → Except SettingsError Text
  | .text t =>
    if t.chars.all Text.isBlank then .error (.invalid .tokenEmpty)
    else if isPadded t then .error (.invalid .tokenPadded)
    else .ok t
  | _ => .error (.invalid .tokenEmpty)

/-- Whether values are the severities, each of them once. -/
def areSeverities (items : List Value) : Bool :=
  severityValues.all (fun v => items.any fun item => item.same v) &&
    items.all (fun item => severityValues.any fun v => item.same v) &&
    items.length == severityValues.length

/-- The order of severities: each of them once. What is kept is what was walked over. -/
def checkOrder (order : Offered) : Except SettingsError Offered :=
  match order.items? with
  | none => .error (.failed .orderNotWalked)
  | some items =>
    if !items.all Value.isKey then .error (.failed .orderNotKeys)
    else if areSeverities items then .ok order.walked
    else .error (.invalid .orderIncomplete)

/-- The time that the rules may take: more than none. -/
def checkTimeout : Value → Except SettingsError (Option Quantity)
  | .null => .ok none
  | v =>
    match v.quantity? with
    | none => .error (.failed .timeoutNotSeconds)
    | some s =>
      if s.isNonpositive then .error (.invalid .timeoutNotPositive) else .ok (some s)

/-- The configuration that a draft asks for. Which rules are off is not checked. -/
def check (store : Store) (d : Draft) : Except SettingsError Configuration := do
  let maxAnnotations ← checkMax store d.maxAnnotations
  let token ← checkToken d.token
  let order ← checkOrder d.order
  let timeout ← checkTimeout d.timeout
  return { maxAnnotations, token, order, disabled := d.disabled, timeout }

end Draft

/-- A configuration as the draft that asks for it. -/
def Configuration.draft (c : Configuration) : Draft :=
  { maxAnnotations := .int c.maxAnnotations, token := .text c.token, order := c.order,
    disabled := c.disabled, timeout := c.timeout.elim .null .ofQuantity }

/-! ## Overrides -/

/-- Values that take the place of others; where there is nothing, all stays as it is. -/
structure Overrides where
  maxAnnotations : Value
  token : Value
  order : Offered
  disabled : Offered
  timeout : Value
  /-- Names that are no settings, with what is given for them. -/
  others : List (String × Offered)

namespace Overrides

/-- No overrides. -/
def none : Overrides :=
  { maxAnnotations := .null, token := .null, order := .null, disabled := .null, timeout := .null,
    others := [] }

/-- Whether nothing is overridden. -/
def isEmpty (o : Overrides) : Bool :=
  o.maxAnnotations.isNull && o.token.isNull && o.order.isNull && o.disabled.isNull &&
    o.timeout.isNull && o.others.all fun other => other.2.isNull

/-- A draft with the overrides laid over it. -/
def apply (o : Overrides) (d : Draft) : Draft :=
  { maxAnnotations := o.maxAnnotations.orElse d.maxAnnotations
    token := o.token.orElse d.token
    order := o.order.orElse d.order
    disabled := o.disabled.orElse d.disabled
    timeout := o.timeout.orElse d.timeout }

/-- The name under which a call gets the configuration that it overrides. -/
def ownName : String := "self"

/-- Whether a call names the configuration that it overrides among the overrides, even with
nothing for it. -/
def namesOwn (o : Overrides) : Bool := o.others.any fun other => other.1 == ownName

end Overrides

/-- The configuration with some of it overridden. Overrides are trees and need no store. -/
def Configuration.withOverrides (c : Configuration) (o : Overrides) :
    Except SettingsError Configuration :=
  if o.namesOwn then .error (.failed .namedTwice)
  else if o.isEmpty then .ok c
  else
    match o.others.find? fun other => !other.2.isNull with
    | some (name, _) => .error (.failed (.unknownSetting name))
    | none => (o.apply c.draft).check #[]

end TemplateAudit
