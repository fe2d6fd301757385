import SkillScript.Nesting
import SkillScript.Object.Registry

/-!
# Looking an object up

A name is looked up without its arguments. A trigger may carry a parameter after a colon, which is
ignored. A mechanic `skill:name` that the registry does not know is the `skill` mechanic.
-/

namespace SkillScript

/-- An object that a name in a document stands for. -/
structure ResolvedObject where
  category : Category
  entry : ObjectEntry
  /-- The name as it is written, without arguments. -/
  writtenName : String
  deriving DecidableEq, Repr

/-- `skill:` in any case of its letters, and something after it. -/
def isSkillShorthand (name : List Char) : Bool :=
  (name.take 6).map Char.toLower == ['s', 'k', 'i', 'l', 'l', ':'] && decide (6 < name.length)

namespace Registry

/-- The `skill` mechanic, or the one that stands in for it. -/
def skillMechanic (r : Registry) : ObjectEntry := (r.mechanics.find? "skill").getD .metaskill

/-- The object of a category that `name` stands for. -/
def entry? (r : Registry) (category : Category) (name : List Char) : Option ObjectEntry :=
  match (r.category category).find? (String.ofList name) with
  | some entry => some entry
  | none =>
    if category = .mechanic ∧ isSkillShorthand name then some r.skillMechanic else none

/-- The object of a category that is written as `name`. -/
def lookup? (r : Registry) (category : Category) (name : List Char) : Option ResolvedObject :=
  let bare := stripArguments name
  let key := if category = .trigger then bare.takeWhile (· != ':') else bare
  (r.entry? category key).map fun entry => ⟨category, entry, String.ofList bare⟩

end Registry

end SkillScript
