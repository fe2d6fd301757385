/-!
# Sigils

A sigil is written directly before the name of an object and says which kind of object it names.
-/

namespace SkillScript

/-- The marks before the name of an object. -/
inductive Sigil where
  /-- `@`, a targeter. -/
  | targeter
  /-- `~`, a trigger. -/
  | trigger
  /-- `?`, an inline condition. -/
  | condition
  /-- `?!`, a negated inline condition. -/
  | negatedCondition
  /-- `?~`, an inline condition on the trigger. -/
  | triggerCondition
  /-- `?~!`, a negated inline condition on the trigger. -/
  | negatedTriggerCondition
  deriving DecidableEq, Repr

namespace Sigil

/-- The sigil as it is written. -/
def text : Sigil → String
  | targeter => "@"
  | trigger => "~"
  | condition => "?"
  | negatedCondition => "?!"
  | triggerCondition => "?~"
  | negatedTriggerCondition => "?~!"

/-- The sigil that is written as `s`. -/
def parse? : String → Option Sigil
  | "@" => some targeter
  | "~" => some trigger
  | "?" => some condition
  | "?!" => some negatedCondition
  | "?~" => some triggerCondition
  | "?~!" => some negatedTriggerCondition
  | _ => none

@[simp] theorem parse?_text (s : Sigil) : parse? s.text = some s := by cases s <;> rfl

/-- The longest sigil at the end of a text, and the text before it; the text is given last
character first on both sides. -/
def splitEnd : List Char → Option Sigil × List Char
  | '!' :: '~' :: '?' :: cs => (some negatedTriggerCondition, cs)
  | '!' :: '?' :: cs => (some negatedCondition, cs)
  | '~' :: '?' :: cs => (some triggerCondition, cs)
  | '?' :: cs => (some condition, cs)
  | '@' :: cs => (some targeter, cs)
  | '~' :: cs => (some trigger, cs)
  | cs => (none, cs)

/-- The characters of an optional sigil. -/
def chars : Option Sigil → List Char
  | some s => s.text.toList
  | none => []

theorem splitEnd_append (cs : List Char) :
    (chars (splitEnd cs).1).reverse ++ (splitEnd cs).2 = cs := by
  unfold splitEnd
  split <;> rfl

end Sigil

end SkillScript
