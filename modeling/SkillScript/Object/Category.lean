import SkillScript.Line.Sigil

/-!
# Categories of objects

Every object of a script belongs to one category, and each category has its own registry.
-/

namespace SkillScript

/-- The kinds of object that a script names. -/
inductive Category where
  | mechanic
  | targeter
  | condition
  | trigger
  | aiGoal
  | aiTarget
  deriving DecidableEq, Repr

namespace Category

/-- Every category, in the order in which a bundle lists them. -/
def all : List Category := [mechanic, targeter, condition, trigger, aiGoal, aiTarget]

/-- The name of a category in reference data and answers. -/
def name : Category → String
  | mechanic => "mechanic"
  | targeter => "targeter"
  | condition => "condition"
  | trigger => "trigger"
  | aiGoal => "ai_goal"
  | aiTarget => "ai_target"

/-- The category of that name. -/
def ofName? (s : String) : Option Category := all.find? fun c => c.name == s

@[simp] theorem ofName?_name (c : Category) : ofName? c.name = some c := by cases c <;> decide

end Category

/-- The category of an object with the given sigil. -/
def Sigil.category : Sigil → Category
  | .targeter => .targeter
  | .trigger => .trigger
  | .condition | .negatedCondition | .triggerCondition | .negatedTriggerCondition => .condition

end SkillScript
