import SkillScript.Object.Category
import SkillScript.Object.Entry

/-!
# Registries of objects

A registry keeps the objects of one category in the order of their declaration, with an index from
names to positions. Names are compared in lower case, and a name that is taken stays with the object
that took it first.
-/

namespace SkillScript

/-- The objects of one category. -/
structure ObjectIndex where
  entries : List ObjectEntry
  /-- The position of the object that owns each lower-case name. -/
  positions : List (String × Nat)
  deriving DecidableEq, Repr

namespace ObjectIndex

/-- No objects. -/
def empty : ObjectIndex := ⟨[], []⟩

/-- `positions` with `key` at `position`, unless the key is taken. -/
def claim (position : Nat) (positions : List (String × Nat)) (key : String) : List (String × Nat) :=
  if (positions.lookup key).isSome then positions else (key, position) :: positions

/-- The objects followed by one more. -/
def insert (index : ObjectIndex) (entry : ObjectEntry) : ObjectIndex where
  entries := index.entries ++ [entry]
  positions := (entry.names.map lower).foldl (claim index.entries.length) index.positions

/-- The index of a list of objects. -/
def ofList (entries : List ObjectEntry) : ObjectIndex := entries.foldl insert empty

/-- The object that owns `name`. -/
def find? (index : ObjectIndex) (name : String) : Option ObjectEntry :=
  (index.positions.lookup (lower name)).bind fun position => index.entries[position]?

end ObjectIndex

/-- The registries of all categories. -/
structure Registry where
  mechanics : ObjectIndex
  targeters : ObjectIndex
  conditions : ObjectIndex
  triggers : ObjectIndex
  aiGoals : ObjectIndex
  aiTargets : ObjectIndex
  deriving DecidableEq, Repr

namespace Registry

/-- No objects of any category. -/
def empty : Registry := ⟨.empty, .empty, .empty, .empty, .empty, .empty⟩

/-- The registry of a category. -/
def category (r : Registry) : Category → ObjectIndex
  | .mechanic => r.mechanics
  | .targeter => r.targeters
  | .condition => r.conditions
  | .trigger => r.triggers
  | .aiGoal => r.aiGoals
  | .aiTarget => r.aiTargets

end Registry

end SkillScript
