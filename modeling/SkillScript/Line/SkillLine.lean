import SkillScript.Line.Token
import SkillScript.Text.DecimalDigit
import SkillScript.Text.Numeral

/-!
# Skill lines

A skill line is a list item: a dash, then an object with its arguments, then in this order an
optional targeter, an optional trigger, inline conditions, and a chance and a health modifier in
either order. What follows the last recognised part is ignored.
-/

namespace SkillScript

/-- The parts of a skill line, each as it is written. -/
structure SkillLine where
  /-- The object that the line runs, with its arguments. -/
  mechanic : List Char
  /-- `@name`. -/
  targeter : Option (List Char)
  /-- `~name`. -/
  trigger : Option (List Char)
  /-- From the first condition to the last. -/
  conditions : Option (List Char)
  /-- A number. -/
  chance : Option (List Char)
  /-- A comparison with a share of health. -/
  healthModifier : Option (List Char)
  deriving DecidableEq, Repr

/-- The rest after digits with an optional fraction and percent sign, when there are any. -/
def dropShare? (cs : List Char) : Option (List Char) :=
  if (cs.takeWhile isDecimalDigit).isEmpty then none
  else
    let rest := match cs.dropWhile isDecimalDigit with
      | '.' :: cs' =>
        if (cs'.takeWhile isDecimalDigit).isEmpty then '.' :: cs' else cs'.dropWhile isDecimalDigit
      | cs' => cs'
    some (match rest with
      | '%' :: cs' => cs'
      | cs' => cs')

/-- A comparison sign and a share of health or a range of shares: `=50%`, `<30.5`, `=10%-30%`. -/
def isHealthModifier : List Char → Bool
  | c :: cs =>
    (c == '=' || c == '<' || c == '>') &&
      match dropShare? cs with
      | some [] => true
      | some ('-' :: cs') => dropShare? cs' == some []
      | _ => false
  | [] => false

namespace SkillLine

/-- The text after the dash of a list item and the blanks around it. -/
def body? (line : List Char) : Option (List Char) :=
  match trimStart line with
  | '-' :: cs => some (trimStart cs)
  | _ => none

/-- The next token, when it starts with `mark`, and the tokens after it. -/
def takeMarked (mark : Char) : List Token → Option (List Char) × List Token
  | t :: ts => if t.startsWith mark then (some (trim t.text), ts) else (none, t :: ts)
  | [] => (none, [])

/-- The stretch of `body` from the first of the given tokens to the last. -/
def stretch? (body : List Char) (ts : List Token) : Option (List Char) :=
  match ts.head?, ts.getLast? with
  | some first, some last =>
    some (trim (takeBytes (last.stop - first.offset) (dropBytes first.offset body)))
  | _, _ => none

/-- The chance and the health modifier at the start of the given tokens, each at most once. -/
def modifiers (chance health : Option (List Char)) :
    List Token → Option (List Char) × Option (List Char)
  | [] => (chance, health)
  | t :: ts =>
    if chance.isNone && isReal t.text then modifiers (some t.text) health ts
    else if health.isNone && isHealthModifier t.text then modifiers chance (some t.text) ts
    else (chance, health)

/-- The parts of a skill line, or `none` for any other line. -/
def parse? (line : List Char) : Option SkillLine :=
  match body? line with
  | none => none
  | some body =>
    match Token.tokenize body with
    | [] => none
    | head :: ts =>
      if head.startsWith '@' || head.startsWith '~' || head.startsWith '?' then none
      else
        let (targeter, ts) := takeMarked '@' ts
        let (trigger, ts) := takeMarked '~' ts
        let (chance, health) := modifiers none none (ts.dropWhile (Token.startsWith '?'))
        some {
          mechanic := trim head.text
          targeter
          trigger
          conditions := stretch? body (ts.takeWhile (Token.startsWith '?'))
          chance
          healthModifier := health }

/-- The name of the object without its arguments. -/
def name (line : SkillLine) : List Char := stripArguments line.mechanic

end SkillLine

end SkillScript
