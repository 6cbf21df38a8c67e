/-!
# TemplateAudit.Text.Search

Looking for something at every place of a text.
-/

namespace TemplateAudit.Text

/-- Whether a condition holds of the text from some place on, the end included. -/
def anyTail (p : List Char → Bool) : List Char → Bool
  | [] => p []
  | c :: cs => p (c :: cs) || anyTail p cs

/-- Whether a text contains another one. -/
def containsText (needle text : List Char) : Bool := anyTail needle.isPrefixOf text

end TemplateAudit.Text
