import SkillScript.Text.Blank

/-!
# Placeholder expressions

A placeholder is written between angle brackets. While it is being typed, the text before the cursor
ends in an opening bracket and the expression so far.
-/

namespace SkillScript

/-- The placeholder expression that is being typed at the end of a text: what follows the last `<`,
when it holds no `>` and no blank. -/
def expression? (cs : List Char) : Option (List Char) :=
  if cs.contains '<' then
    let typed := (cs.reverse.takeWhile (· != '<')).reverse
    if typed.any fun c => c == '>' || isBlank c then none else some typed
  else none

end SkillScript
