import SkillScript.Text.Case

/-!
# Objects and their attributes

The reference data describes each object by its names and its attributes. Names of attributes are
compared without regard to the case of ASCII letters.
-/

namespace SkillScript

/-- A named parameter of an object, written `name=value`. -/
structure AttributeEntry where
  name : String
  aliases : List String
  /-- The type of the value, as the reference data names it. -/
  valueType : Option String
  description : Option String
  default : Option String
  /-- The value is an inline list of conditions. -/
  inlineConditions : Bool
  /-- The dataset that the values come from. -/
  dataset : Option String
  deriving DecidableEq, Repr

/-- The attribute has `name` as its name or as an alias. -/
def AttributeEntry.answersTo (a : AttributeEntry) (name : String) : Bool :=
  sameAscii a.name name || a.aliases.any (sameAscii · name)

/-- A mechanic, targeter, condition, trigger or selector. -/
structure ObjectEntry where
  name : String
  aliases : List String
  description : Option String
  link : Option String
  attributes : List AttributeEntry
  deriving DecidableEq, Repr

namespace ObjectEntry

/-- The first attribute that answers to `name`. -/
def attributeNamed? (o : ObjectEntry) (name : String) : Option AttributeEntry :=
  o.attributes.find? (·.answersTo name)

/-- The name of an object followed by its aliases. -/
def names (o : ObjectEntry) : List String := o.name :: o.aliases

/-- The `skill` mechanic that stands in when the reference data has none. -/
def metaskill : ObjectEntry where
  name := "skill"
  aliases := ["metaskill"]
  description := some "Executes a metaskill"
  link := none
  attributes := [{
    name := "skill"
    aliases := ["s", "meta", "m"]
    valueType := some "metaskill"
    description := some "The metaskill to execute"
    default := none
    inlineConditions := false
    dataset := none }]

end ObjectEntry

end SkillScript
