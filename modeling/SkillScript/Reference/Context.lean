import SkillScript.Cursor.Target
import SkillScript.Placeholder.Completion
import SkillScript.Reference.Bundle
import SkillScript.Schema.BuiltIn
import SkillScript.Schema.Completion

/-!
# Contexts

A context is reference data made ready for queries. The schemas of a bundle replace the built-in
schemas of the same category of files.
-/

namespace SkillScript

/-- Reference data ready for queries. -/
structure Context where
  settings : Settings
  registry : Registry
  datasets : Datasets
  schemas : SchemaRegistry
  placeholders : Node

namespace Context

/-- A context that knows nothing, not even the built-in schemas. -/
def empty : Context where
  settings := .standard
  registry := .empty
  datasets := []
  schemas := []
  placeholders := .root

/-- The schemas of a bundle on top of the built-in ones. -/
def schemasOf : Option Json → Except LoadError SchemaRegistry
  | none => .ok .builtIn
  | some document => do
    let schemas ← compileSchemas document
    return schemas.foldl (fun r s => r.insert s.1 s.2) .builtIn

/-- The context of a bundle. -/
def build (b : Bundle) : Except LoadError Context := do
  let schemas ← schemasOf b.schemas
  return {
    settings := (b.settings.getD .standard).normalized
    registry := b.registry
    datasets := b.datasets
    schemas
    placeholders := Placeholder.trieOf (Patterns.ofDatasets b.datasets) b.keywords b.placeholders }

variable (c : Context) (d : Document) (p : Position)

/-- The object or attribute under the cursor. -/
def owner : Found := d.found c.registry c.settings p

/-- The category of the object that the cursor belongs to. -/
def objectCategory? : Option Category := d.category? c.registry c.settings p

/-- The candidates for keys and values in a file of the given category. -/
def completeSchema (category : String) : List Candidate :=
  match c.schemas.find? category with
  | some schema => schema.complete c.datasets c.settings d p
  | none => []

/-- The candidates for the placeholder that is being typed. -/
def completePlaceholder : List Candidate :=
  match d.linePrefix? p with
  | some typed => c.placeholders.complete typed
  | none => []

/-- The name of an attribute as a candidate. -/
def attributeCandidate (a : AttributeEntry) : Candidate :=
  { Candidate.ofLabel a.name .key with
    insertText := a.name ++ "="
    detail := a.valueType
    documentation := a.description }

/-- The values of an attribute: the members of its dataset, or the truth values. -/
def attributeValues (a : AttributeEntry) : List Candidate :=
  match a.dataset.bind c.datasets.find? with
  | some dataset => dataset.candidates c.settings none
  | none => if a.valueType.any (sameAscii · "boolean") then booleanCandidates else []

/-- The candidates inside the arguments of an object: the names of its attributes, or behind an
equals sign the values of one. -/
def completeAttributes : List Candidate :=
  match d.contextOwner? c.registry c.settings p with
  | none => []
  | some (owner, none) => owner.entry.attributes.map attributeCandidate
  | some (owner, some name) =>
    match owner.entry.attributeNamed? name with
    | some a => c.attributeValues a
    | none => []

end Context

end SkillScript
