import TemplateAudit.Text.Digit

/-!
# TemplateAudit.Text.Pattern

Patterns of characters, and a matcher that reads a text once.

`Pattern.after p c` is the pattern of what may follow once `c` was read, so a text matches if
the pattern that is left at its end allows the empty text. `followedBy` and `orElse` leave out
parts that match nothing, which keeps the patterns small on the way.
-/

namespace TemplateAudit.Text

/-- A set of texts. -/
inductive Pattern
  | nothing
  | blank
  | one (accepts : Char → Bool)
  | seq (p q : Pattern)
  | alt (p q : Pattern)
  | star (p : Pattern)

namespace Pattern

/-- One text of each pattern, one after the other. -/
def followedBy : Pattern → Pattern → Pattern
  | .nothing, _ => .nothing
  | .blank, q => q
  | p, q => .seq p q

/-- A text of either pattern. -/
def orElse : Pattern → Pattern → Pattern
  | .nothing, q => q
  | p, .nothing => p
  | p, q => .alt p q

/-- Whether the empty text is in a pattern. -/
def allowsEmpty : Pattern → Bool
  | .nothing => false
  | .blank => true
  | .one _ => false
  | .seq p q => p.allowsEmpty && q.allowsEmpty
  | .alt p q => p.allowsEmpty || q.allowsEmpty
  | .star _ => true

/-- What may follow a character. -/
def after (c : Char) : Pattern → Pattern
  | .nothing => .nothing
  | .blank => .nothing
  | .one accepts => if accepts c then .blank else .nothing
  | .seq p q =>
    let first := (p.after c).followedBy q
    if p.allowsEmpty then first.orElse (q.after c) else first
  | .alt p q => (p.after c).orElse (q.after c)
  | .star p => (p.after c).followedBy (.star p)

/-- Whether a whole text is in a pattern. -/
def accepts : Pattern → List Char → Bool
  | p, [] => p.allowsEmpty
  | p, c :: cs => (p.after c).accepts cs

/-- A given text. -/
def word (s : String) : Pattern :=
  s.toList.foldr (fun c p => .seq (.one (· == c)) p) .blank

/-- One of some texts. -/
def anyWord (ws : List String) : Pattern := ws.foldr (fun w p => (word w).orElse p) .nothing

/-- One of the characters of a text. -/
def anyOf (s : String) : Pattern := .one s.toList.contains

/-- Some patterns, one after the other. -/
def row (ps : List Pattern) : Pattern := ps.foldr .seq .blank

/-- One of some patterns. -/
def choice (ps : List Pattern) : Pattern := ps.foldr orElse .nothing

/-- A pattern or nothing. -/
def optional (p : Pattern) : Pattern := .alt p .blank

/-- A pattern at least once. -/
def repeated (p : Pattern) : Pattern := .seq p (.star p)

end Pattern

end TemplateAudit.Text
