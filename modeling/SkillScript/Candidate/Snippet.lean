/-!
# Snippets

A snippet is a text with places to fill in. A dollar sign, a closing brace and a backslash are
written with a backslash before them; inside a list of choices so are a comma and a bar.
-/

namespace SkillScript

/-- The text with a backslash before every character that `special` holds of. -/
def escapeWhere (special : Char → Bool) (cs : List Char) : List Char :=
  cs.flatMap fun c => if special c then ['\\', c] else [c]

/-- `c` has a meaning of its own in a snippet. -/
def isSnippetSpecial (c : Char) : Bool := c == '$' || c == '\x7d' || c == '\\'

/-- `c` has a meaning of its own in a list of choices. -/
def isChoiceSpecial (c : Char) : Bool := isSnippetSpecial c || c == ',' || c == '|'

/-- Literal text inside a snippet. -/
def escapeSnippet (s : String) : String := String.ofList (escapeWhere isSnippetSpecial s.toList)

/-- One of several choices. -/
def escapeChoice (s : String) : String := String.ofList (escapeWhere isChoiceSpecial s.toList)

/-- A place with a default text, which is not escaped. -/
def snippetDefault (text : String) : String := "$\x7b1:" ++ text ++ "\x7d"

/-- A place that is filled with one of the given texts. -/
def snippetChoices (choices : List String) : String :=
  "$\x7b1|" ++ String.intercalate "," (choices.map escapeChoice) ++ "|\x7d"

end SkillScript
