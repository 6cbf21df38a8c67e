import TemplateAudit.Number.Quantity

/-!
# TemplateAudit.Log

What the program tells about its own work. Every record has a level, and the verbosity asked
for decides which levels are shown.
-/

namespace TemplateAudit

namespace Log

open TemplateAudit.Number (Quantity)

/-- How much a record matters. -/
inductive Level
  | debug
  | info
  | warning
  deriving DecidableEq, Repr

/-- The name of a level. -/
def Level.name : Level → String
  | .debug => "DEBUG"
  | .info => "INFO"
  | .warning => "WARNING"

/-- Levels by how much they matter. -/
def Level.rank : Level → Nat
  | .debug => 0
  | .info => 1
  | .warning => 2

/-- The least level that is shown: two or more steps of verbosity show all, one shows what is
of interest, none only warnings. -/
def Level.ofVerbosity (verbosity : Quantity) : Level :=
  if verbosity.reached (.whole 2) then .debug
  else if verbosity.compare? (.whole 1) == some .eq then .info
  else .warning

/-- The parts of the program that tell about their work. -/
inductive Origin
  | lines
  | matcher
  | pipeline
  deriving DecidableEq, Repr

/-- The name under which the whole program tells about its work. -/
def rootName : String := "annotator"

/-- The name of a part. -/
def Origin.name : Origin → String
  | .lines => rootName ++ ".lines"
  | .matcher => rootName ++ ".matcher"
  | .pipeline => rootName ++ ".pipeline"

/-- One thing that is told. -/
structure Record where
  level : Level
  origin : Origin
  message : String
  deriving DecidableEq, Repr

/-- A record as a line. -/
def Record.line (time : String) (r : Record) : String :=
  time ++ " [" ++ r.level.name ++ "] " ++ r.origin.name ++ " - " ++ r.message

/-- The lines for those records that matter enough, each with its end. -/
def render (least : Level) (time : String) (records : List Record) : String :=
  let shown := records.filter fun r => least.rank ≤ r.level.rank
  String.join (shown.map fun r => r.line time ++ "\n")

/-! ## Setting up -/

/-- Where records go: the least level that is shown, and how many outputs there are. -/
structure Logger where
  level : Level
  handlers : Nat
  deriving DecidableEq, Repr

/-- A logger that was never set up. -/
def Logger.fresh : Logger := { level := .warning, handlers := 0 }

/-- The logger for a verbosity. The one output is added the first time only. -/
def Logger.configure (l : Logger) (verbosity : Quantity) : Logger :=
  { level := .ofVerbosity verbosity, handlers := if l.handlers = 0 then 1 else l.handlers }

end Log

end TemplateAudit
