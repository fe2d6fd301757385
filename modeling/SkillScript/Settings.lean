import SkillScript.Object.Category
import SkillScript.Text.Case

/-!
# Settings

The settings say under which keys objects are listed and of which category they are, which
attributes hold inline lists of skills, and how long a list of choices may get.
-/

namespace SkillScript

/-- What a bundle may configure. -/
structure Settings where
  /-- The category of the objects listed under each skill-bearing key; keys are in lower case. -/
  keyCategories : List (String × Category)
  /-- Attributes that hold inline lists of skills. -/
  inlineLists : List String
  /-- The longest range of integers that is offered as a list of choices. -/
  maxSuffixChoices : UInt64
  deriving DecidableEq, Repr

namespace Settings

/-- The settings of a bundle that configures nothing. -/
def standard : Settings where
  keyCategories := [
    ("skills", .mechanic),
    ("conditions", .condition),
    ("targetconditions", .condition),
    ("triggerconditions", .condition),
    ("aigoalselectors", .aiGoal),
    ("aitargetselectors", .aiTarget)]
  inlineLists := ["skills", "skill", "s", "onTick", "onHit", "onEnd", "onStart"]
  maxSuffixChoices := 16

/-- `table` with `category` under `key`, in the place of an earlier entry for it. -/
def setCategory (key : String) (category : Category) :
    List (String × Category) → List (String × Category)
  | [] => [(key, category)]
  | (k, c) :: rest =>
    if k = key then (k, category) :: rest else (k, c) :: setCategory key category rest

/-- One entry per key, the last of those given for it. -/
def categoryTable (entries : List (String × Category)) : List (String × Category) :=
  entries.foldl (fun table e => setCategory e.1 e.2 table) []

/-- The settings with every key in lower case. -/
def normalized (s : Settings) : Settings :=
  { s with keyCategories := categoryTable (s.keyCategories.map fun e => (lower e.1, e.2)) }

/-- The category of the objects listed under `key`, when it is skill-bearing. -/
def keyCategory? (s : Settings) (key : String) : Option Category :=
  s.keyCategories.lookup (lower key)

/-- Objects are listed under `key`. -/
def isSkillBearing (s : Settings) (key : String) : Bool := (s.keyCategory? key).isSome

/-- The attribute `name` holds an inline list of skills. -/
def isInlineList (s : Settings) (name : String) : Bool := s.inlineLists.any (sameAscii · name)

end Settings

end SkillScript
