import TemplateAudit.Yaml.Error

/-!
# TemplateAudit.Yaml.Token

Tokens of a YAML text. Indentation is turned into tokens of its own: a block collection has a
token where it starts and one where it ends. A `TokenStream` holds the tokens that can be
handed on, and what comes after them: the token for the end of the text, or what is wrong.
-/

namespace TemplateAudit.Yaml

/-- A line that starts with a percent sign. -/
inductive Directive
  | version (major minor : Nat)
  | tagHandle (handle prefixText : String)
  | unknown (name : String)
  deriving DecidableEq, Repr

/-- What a token stands for. -/
inductive TokenKind
  | directive (d : Directive)
  | documentStart
  | documentEnd
  | streamEnd
  | blockSequenceStart
  | blockMappingStart
  | blockEnd
  | flowSequenceStart
  | flowSequenceEnd
  | flowMappingStart
  | flowMappingEnd
  | flowEntry
  | blockEntry
  | key
  | value
  | alias (name : String)
  | anchor (name : String)
  | tag (handle : Option String) (suffix : String)
  | scalar (text : Text) (plain : Bool)
  deriving DecidableEq, Repr

/-- The name of a kind of token in messages. -/
def TokenKind.name : TokenKind → String
  | .directive _ => "<directive>"
  | .documentStart => "<document start>"
  | .documentEnd => "<document end>"
  | .streamEnd => "<stream end>"
  | .blockSequenceStart => "<block sequence start>"
  | .blockMappingStart => "<block mapping start>"
  | .blockEnd => "<block end>"
  | .flowSequenceStart => "["
  | .flowSequenceEnd => "]"
  | .flowMappingStart => "\x7b"
  | .flowMappingEnd => "\x7d"
  | .flowEntry => ","
  | .blockEntry => "-"
  | .key => "?"
  | .value => ":"
  | .alias _ => "<alias>"
  | .anchor _ => "<anchor>"
  | .tag _ _ => "<tag>"
  | .scalar _ _ => "<scalar>"

/-- A token and the place it takes in the text. -/
structure Token where
  kind : TokenKind
  start : Mark
  stop : Mark
  deriving DecidableEq, Repr

/-- The tokens of a text, and the end after them. -/
structure TokenStream where
  tokens : List Token
  final : Except Fault Token

end TemplateAudit.Yaml
