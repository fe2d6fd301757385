import SkillScript.Json.Reader
import SkillScript.Json.Record
import SkillScript.Object.Registry
import SkillScript.Placeholder.Keyword
import SkillScript.Schema.Source
import SkillScript.Settings

/-!
# Bundles of reference data

A bundle is a JSON record with the objects of each category, datasets, placeholders, meta keywords,
a schema document and settings. Everything in it is optional. The schema document stays in JSON
until a context is built from the bundle.
-/

namespace SkillScript

/-- The reference data of one load. -/
structure Bundle where
  mechanics : List ObjectEntry
  targeters : List ObjectEntry
  conditions : List ObjectEntry
  triggers : List ObjectEntry
  aiGoals : List ObjectEntry
  aiTargets : List ObjectEntry
  datasets : Datasets
  placeholders : List Placeholder
  keywords : List Keyword
  schemas : Option Json
  settings : Option Settings

open Json

/-- An attribute of an object. -/
def AttributeEntry.ofJson? (v : Json) : Option AttributeEntry := do
  let fields ← v.record?
    ["name", "aliases", "type", "description", "default", "inline_conditions", "dataset"]
  let name ← required? str? "name" fields
  let aliases ← orElse? (list? str?) [] "aliases" fields
  let valueType ← maybe? str? "type" fields
  let description ← maybe? str? "description" fields
  let default ← maybe? str? "default" fields
  let inlineConditions ← orElse? bool? false "inline_conditions" fields
  let dataset ← maybe? str? "dataset" fields
  return { name, aliases, valueType, description, default, inlineConditions, dataset }

/-- An object. -/
def ObjectEntry.ofJson? (v : Json) : Option ObjectEntry := do
  let fields ← v.record? ["name", "aliases", "description", "link", "attributes"]
  let name ← required? str? "name" fields
  let aliases ← orElse? (list? str?) [] "aliases" fields
  let description ← maybe? str? "description" fields
  let link ← maybe? str? "link" fields
  let attributes ← orElse? (list? AttributeEntry.ofJson?) [] "attributes" fields
  return { name, aliases, description, link, attributes }

/-- A member of a dataset: a key alone, or an object with a key and a description. The whole of the
object is read, its other fields too; it stands three levels deep in a bundle. -/
def DatasetEntry.ofJson? : Json → Option DatasetEntry
  | str key => some ⟨key, none⟩
  | obj all => do
    guard (value? (maxDepth - 3) (obj all)).isSome
    let fields ← record? ["key", "description"] (obj all)
    let key ← required? str? "key" fields
    let description ← maybe? str? "description" fields
    return { key, description }
  | _ => none

/-- Datasets by name. -/
def Datasets.ofJson? (v : Json) : Option Datasets :=
  (v.fields? (list? DatasetEntry.ofJson?)).map fun fields =>
    Datasets.ofList (fields.map fun f => ⟨f.1, f.2⟩)

/-- A placeholder. -/
def Placeholder.ofJson? (v : Json) : Option Placeholder := do
  let fields ← v.record? ["path", "return_type", "description"]
  let path ← required? str? "path" fields
  let returnType ← maybe? str? "return_type" fields
  let description ← maybe? str? "description" fields
  return { path, returnType, description }

/-- A meta keyword. -/
def Keyword.ofJson? (v : Json) : Option Keyword := do
  let fields ← v.record? ["path", "origin_type", "return_type", "description"]
  let path ← required? str? "path" fields
  let originType ← required? str? "origin_type" fields
  let returnType ← required? str? "return_type" fields
  let description ← maybe? str? "description" fields
  return { path, originType, returnType, description }

/-- A category by its name. -/
def Category.ofJson? (v : Json) : Option Category := v.variant?.bind ofName?

/-- An unsigned integer of 64 bits. -/
def Json.uint64? (v : Json) : Option UInt64 :=
  v.int?.bind fun n =>
    if 0 ≤ n ∧ n ≤ 18446744073709551615 then some n.toNat.toUInt64 else none

/-- Settings. What is left out has its standard value. -/
def Settings.ofJson? (v : Json) : Option Settings := do
  let fields ← v.record? ["key_categories", "inline_list_attributes", "max_suffix_choices"]
  let keyCategories ← orElse? (fun w => (w.fields? Category.ofJson?).map categoryTable)
    standard.keyCategories "key_categories" fields
  let inlineLists ← orElse? (list? str?) standard.inlineLists "inline_list_attributes" fields
  let maxSuffixChoices ← orElse? uint64? standard.maxSuffixChoices "max_suffix_choices" fields
  return { keyCategories, inlineLists, maxSuffixChoices }

namespace Bundle

/-- A bundle without any data. -/
def empty : Bundle where
  mechanics := []
  targeters := []
  conditions := []
  triggers := []
  aiGoals := []
  aiTargets := []
  datasets := []
  placeholders := []
  keywords := []
  schemas := none
  settings := none

/-- The fields of a bundle in the order of their declaration. -/
def fieldNames : List String :=
  ["mechanics", "targeters", "conditions", "triggers", "ai_goals", "ai_targets", "datasets",
    "placeholders", "meta_keywords", "schemas", "config"]

/-- A bundle. The schema document stands one level deep in it. -/
def ofJson? (v : Json) : Option Bundle := do
  let fields ← v.record? fieldNames
  let objects := orElse? (list? ObjectEntry.ofJson?) []
  let mechanics ← objects "mechanics" fields
  let targeters ← objects "targeters" fields
  let conditions ← objects "conditions" fields
  let triggers ← objects "triggers" fields
  let aiGoals ← objects "ai_goals" fields
  let aiTargets ← objects "ai_targets" fields
  let datasets ← orElse? Datasets.ofJson? [] "datasets" fields
  let placeholders ← orElse? (list? Placeholder.ofJson?) [] "placeholders" fields
  let keywords ← orElse? (list? Keyword.ofJson?) [] "meta_keywords" fields
  let schemas ← maybe? (value? (maxDepth - 1)) "schemas" fields
  let settings ← maybe? Settings.ofJson? "config" fields
  return { mechanics, targeters, conditions, triggers, aiGoals, aiTargets, datasets, placeholders,
           keywords, schemas, settings }

/-- The bundle that a text writes. -/
def parse (text : String) : Except LoadError Bundle := orMalformed ((Json.parse? text).bind ofJson?)

/-- The registries of the bundle's objects. -/
def registry (b : Bundle) : Registry where
  mechanics := .ofList b.mechanics
  targeters := .ofList b.targeters
  conditions := .ofList b.conditions
  triggers := .ofList b.triggers
  aiGoals := .ofList b.aiGoals
  aiTargets := .ofList b.aiTargets

end Bundle

end SkillScript
