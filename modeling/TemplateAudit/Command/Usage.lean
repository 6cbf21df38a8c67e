/-!
# TemplateAudit.Command.Usage

What the command line says about itself.
-/

namespace TemplateAudit.Command

/-- The name of the program. -/
def programName : String := "guardrails-annotate"

/-- The words for the formats of reports. -/
def formatNames : List String := ["github", "json", "text"]

/-- How the program is called. -/
def usage : String :=
  "usage: guardrails-annotate [-h] [--config CONFIG]\n" ++
  "                           [--max-annotations MAX_ANNOTATIONS]\n" ++
  "                           [--disable DISABLED_RULES]\n" ++
  "                           [--format \x7bgithub,json,text\x7d] [--out OUTPUT_PATH]\n" ++
  "                           [--list-rules] [-v]\n" ++
  "                           [template]\n"

/-- What the arguments mean. -/
def help : String :=
  usage ++
  "\n" ++
  "Annotate a SAM/CloudFormation template with its most important best-practice\n" ++
  "findings.\n" ++
  "\n" ++
  "positional arguments:\n" ++
  "  template              Path to the template to annotate, or '-' to read\n" ++
  "                        standard input.\n" ++
  "\n" ++
  "options:\n" ++
  "  -h, --help            show this help message and exit\n" ++
  "  --config CONFIG       YAML configuration file (defaults to .guardrails-\n" ++
  "                        annotator.yaml when present).\n" ++
  "  --max-annotations MAX_ANNOTATIONS\n" ++
  "                        Maximum number of annotations to emit (defaults to 3).\n" ++
  "  --disable DISABLED_RULES\n" ++
  "                        Rule identifier to skip (repeatable).\n" ++
  "  --format \x7bgithub,json,text\x7d\n" ++
  "                        Output format (defaults to text).\n" ++
  "  --out OUTPUT_PATH, --output OUTPUT_PATH\n" ++
  "                        Write the report to this path instead of standard\n" ++
  "                        output.\n" ++
  "  --list-rules          List the built-in rules in catalog order and exit.\n" ++
  "  -v, --verbose         Increase log verbosity (repeatable).\n"

/-- What is told on an error of usage. -/
def usageError (message : String) : String :=
  usage ++ programName ++ ": error: " ++ message ++ "\n"

end TemplateAudit.Command
