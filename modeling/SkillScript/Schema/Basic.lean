import SkillScript.Dataset

/-!
# Schemas

A schema says which keys a file may have and what their values are. The keys of one level form a
mapping: literal keys, at most one key for the members of a dataset, and at most one wildcard. A
node may hold its children inline or name a definition, which lets a schema contain itself.
-/

namespace SkillScript

/-- What a value may be. -/
inductive SchemaKind where
  | boolean
  | string
  | integer
  | float
  /-- Three coordinates. -/
  | vector
  /-- Three color components. -/
  | rgb
  | list
  /-- A mapping with known keys. -/
  | key
  /-- A mapping with any keys. -/
  | keyList
  /-- Several values on one line. -/
  | entryList
  /-- A member of a dataset. -/
  | enum
  deriving DecidableEq, Repr

namespace SchemaKind

/-- Every kind. -/
def all : List SchemaKind :=
  [boolean, string, integer, float, vector, rgb, list, key, keyList, entryList, enum]

/-- The name of a kind in schema documents and answers. -/
def name : SchemaKind → String
  | boolean => "boolean"
  | string => "string"
  | integer => "integer"
  | float => "float"
  | vector => "vector"
  | rgb => "rgb"
  | list => "list"
  | key => "key"
  | keyList => "key_list"
  | entryList => "entry_list"
  | enum => "enum"

/-- The kind of that name. -/
def ofName? (s : String) : Option SchemaKind := all.find? fun k => k.name == s

@[simp] theorem ofName?_name (k : SchemaKind) : ofName? k.name = some k := by cases k <;> decide

end SchemaKind

/-- What may follow the separator of a suffix. -/
inductive SuffixValues where
  | choices (values : List String)
  /-- The integers from `min` to `max`. -/
  | range (min max : Int64)
  deriving DecidableEq, Repr

/-- Something that follows a member of a dataset, such as the level of an enchantment. -/
structure Suffix where
  separator : String
  values : SuffixValues
  deriving DecidableEq, Repr

/-- The keys of one level, each with what it leads to. -/
structure Mapping (α : Type) where
  /-- Keys by name, in the order of their declaration. -/
  literals : List (String × α)
  /-- The key that every member of the named dataset is. -/
  arrayKey : Option (String × α)
  /-- The key that any name is. -/
  wildcard : Option α
  deriving DecidableEq, Repr

/-- The children of a node. -/
inductive Children (α : Type) where
  | none
  | inline (mapping : Mapping α)
  /-- The mapping of the named definition. -/
  | deferred (name : String)
  deriving DecidableEq, Repr

/-- A key's value. -/
structure SchemaNode where
  kind : SchemaKind
  description : Option String
  link : Option String
  /-- Values to offer. -/
  values : List String
  /-- The dataset that the values come from. -/
  dataset : Option String
  /-- The values of a line with several of them, in order. -/
  entries : List SchemaNode
  children : Children SchemaNode
  /-- Nodes beneath this one do not add to the depth. -/
  closesDepth : Bool
  suffix : Option Suffix

namespace Mapping

variable {α : Type}

/-- No keys. -/
def empty : Mapping α := ⟨[], none, none⟩

/-- The mapping has no keys. -/
def isEmpty (m : Mapping α) : Bool :=
  m.literals.isEmpty && m.arrayKey.isNone && m.wildcard.isNone

/-- What the first literal key that equals `name`, but for the case of ASCII letters, leads to. -/
def literal? (m : Mapping α) (name : String) : Option α :=
  (m.literals.find? fun l => sameAscii l.1 name).map Prod.snd

/-- What `name` leads to as a member of the array key's dataset. -/
def member? (datasets : Datasets) (m : Mapping α) (name : String) : Option α :=
  match m.arrayKey with
  | none => none
  | some (dataset, a) => if (datasets.find? dataset).any (·.contains name) then some a else none

/-- What `name` leads to: as a literal key, else as a member of the array key's dataset, else by the
wildcard. -/
def get? (datasets : Datasets) (m : Mapping α) (name : String) : Option α :=
  ((m.literal? name).or (m.member? datasets name)).or m.wildcard

end Mapping

namespace SchemaNode

/-- A node of a kind that says nothing more. -/
def ofKind (kind : SchemaKind) : SchemaNode where
  kind
  description := none
  link := none
  values := []
  dataset := none
  entries := []
  children := .none
  closesDepth := false
  suffix := none

/-- The node has children. -/
def hasChildren (n : SchemaNode) : Bool :=
  match n.children with
  | .none => false
  | _ => true

/-- What stands beneath the node is its user's own. -/
def isLeafContainer (n : SchemaNode) : Bool :=
  match n.kind with
  | .keyList => true
  | .list => !n.hasChildren
  | _ => false

end SchemaNode

/-- A mapping with the definitions that its nodes may name. -/
structure Schema where
  root : Mapping SchemaNode
  definitions : List (String × Mapping SchemaNode)

namespace Schema

/-- The mapping of a definition. An unknown one is empty. -/
def definition (s : Schema) (name : String) : Mapping SchemaNode :=
  (s.definitions.lookup name).getD .empty

/-- The keys beneath a node. -/
def childrenOf? (s : Schema) (n : SchemaNode) : Option (Mapping SchemaNode) :=
  match n.children with
  | .none => none
  | .inline mapping => some mapping
  | .deferred name => some (s.definition name)

end Schema

end SkillScript
