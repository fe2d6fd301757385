import SkillScript.Nesting
import SkillScript.Text.Alphanumeric
import SkillScript.Text.Blank

/-!
# The attribute being typed

The arguments of an object are attributes `name=value`, separated by semicolons or commas. Inside an
open scope, the attribute being typed is the one named before the equals sign of the last argument.
-/

namespace SkillScript

/-- `c` separates two arguments. -/
def isSeparator (c : Char) : Bool := c == ';' || c == ','

/-- `c` may be part of the name of an attribute. -/
def isAttributeChar (c : Char) : Bool := isAlphanumeric c || c == '_' || c == '-'

/-- The text after the last separator at depth zero, or `argument` when there is none. -/
def lastArgument (depth : Nat) (argument : List Char) : List Char → List Char
  | [] => argument
  | c :: cs =>
    if isSeparator c && depth == 0 then lastArgument 0 cs cs
    else lastArgument (nest depth c) argument cs

/-- The text before the first equals sign at depth zero. -/
def beforeEquals? (depth : Nat) : List Char → Option (List Char)
  | [] => none
  | c :: cs =>
    if c == '=' && depth == 0 then some []
    else (beforeEquals? (nest depth c) cs).map (c :: ·)

/-- The name of the attribute whose value ends the text of a scope. -/
def currentAttribute? (inner : List Char) : Option String :=
  match beforeEquals? 0 (lastArgument 0 inner inner) with
  | none => none
  | some text =>
    let name := trim text
    if !name.isEmpty && name.all isAttributeChar then some (String.ofList name) else none

end SkillScript
