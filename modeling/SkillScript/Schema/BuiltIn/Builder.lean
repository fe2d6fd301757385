import SkillScript.Schema.Basic

/-!
# Building schemas

Short forms for the nodes and mappings of the built-in schemas.
-/

namespace SkillScript

namespace SchemaNode

/-- A node of a kind with a description. -/
def described (kind : SchemaKind) (description : String) : SchemaNode :=
  { ofKind kind with description := some description }

/-- A truth value. -/
def boolean (description : String) : SchemaNode := described .boolean description

/-- Any text. -/
def string (description : String) : SchemaNode := described .string description

/-- An integer. -/
def integer (description : String) : SchemaNode := described .integer description

/-- A number. -/
def float (description : String) : SchemaNode := described .float description

/-- A list, for instance of skill lines. -/
def list (description : String) : SchemaNode := described .list description

/-- A member of a dataset. -/
def member (dataset description : String) : SchemaNode :=
  { described .enum description with dataset := some dataset }

/-- A member of a dataset on each line of a list. -/
def members (dataset description : String) : SchemaNode :=
  { list description with dataset := some dataset }

/-- One of the given values. -/
def oneOf (values : List String) (description : String) : SchemaNode :=
  { described .enum description with values }

/-- The node with values to offer. -/
def offering (n : SchemaNode) (values : List String) : SchemaNode := { n with values }

/-- A list whose lines have the given values. -/
def rows (entries : List SchemaNode) (description : String) : SchemaNode :=
  { list description with entries }

/-- A block with the given keys. -/
def block (keys : Mapping SchemaNode) (description : String) : SchemaNode :=
  { described .key description with children := .inline keys }

/-- A block with the keys of the named definition. -/
def blockOf (definition description : String) : SchemaNode :=
  { described .key description with children := .deferred definition }

end SchemaNode

namespace Mapping

/-- A mapping with the given keys and no others. -/
def keys {α : Type} (literals : List (String × α)) : Mapping α := { empty with literals }

/-- A mapping whose keys are the members of a dataset. -/
def keyedBy {α : Type} (dataset : String) (a : α) : Mapping α :=
  { empty with arrayKey := some (dataset, a) }

/-- A mapping with any keys. -/
def anyKey {α : Type} (a : α) : Mapping α := { empty with wildcard := some a }

end Mapping

end SkillScript
