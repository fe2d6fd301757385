/-!
# Modes

A mode says what is asked about a position.
-/

namespace SkillScript

/-- What is asked about the position. -/
inductive Mode where
  /-- The object or attribute under the cursor. -/
  | owner
  /-- The category of the object. -/
  | category
  /-- The path of ancestor keys. -/
  | keys
  /-- Completion of keys and values. -/
  | schema
  /-- Completion of placeholders. -/
  | placeholder
  /-- Completion of attributes. -/
  | attributes
  deriving DecidableEq, Repr

namespace Mode

/-- The modes, in the order of the help. -/
def all : List Mode := [owner, category, keys, schema, placeholder, attributes]

/-- The name by which the command line selects a mode. -/
def name : Mode → String
  | owner => "owner"
  | category => "category"
  | keys => "keys"
  | schema => "schema"
  | placeholder => "placeholder"
  | attributes => "attributes"

/-- What the help says of a mode. -/
def about : Mode → String
  | owner => "Object or attribute under the cursor"
  | category => "Registry category at the cursor"
  | keys => "Ancestor key path"
  | schema => "File-structure completion"
  | placeholder => "Placeholder completion"
  | attributes => "Attribute name/value completion"

/-- The mode of that name. -/
def ofName? (s : String) : Option Mode := all.find? fun m => m.name == s

theorem ofName?_name (m : Mode) : ofName? m.name = some m := by cases m <;> decide

end Mode

end SkillScript
