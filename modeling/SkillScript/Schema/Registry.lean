import SkillScript.Schema.Basic

/-!
# Schemas by file category

The top-level keys of every file are names of the user's choice, and the schema of the category
applies beneath each of them. Categories are compared in lower case.
-/

namespace SkillScript

/-- The schema of a category of files. -/
structure FileSchema where
  /-- The category as it was declared. -/
  category : String
  schema : Schema

/-- The schema with its keys beneath names of the user's choice. -/
def Schema.underName (category : String) (s : Schema) : Schema :=
  let entry := {
    SchemaNode.ofKind .key with
    description := some ("Internal name of the " ++ lower category)
    children := .inline s.root }
  { s with root := { Mapping.empty with wildcard := some entry } }

/-- Schemas, of which no two have one category in lower case. -/
abbrev SchemaRegistry := List FileSchema

namespace SchemaRegistry

/-- `f` in the place of an earlier schema of its category, or last. -/
def set (f : FileSchema) : SchemaRegistry → SchemaRegistry
  | [] => [f]
  | g :: rest => if lower g.category = lower f.category then f :: rest else g :: set f rest

/-- The schemas with `entries` as what stands beneath a name in files of the category. -/
def insert (r : SchemaRegistry) (category : String) (entries : Schema) : SchemaRegistry :=
  set ⟨category, entries.underName category⟩ r

/-- The schema of a category. -/
def find? (r : SchemaRegistry) (category : String) : Option Schema :=
  (List.find? (fun f => lower f.category == lower category) r).map FileSchema.schema

end SchemaRegistry

end SkillScript
