import SkillScript.Line.Scope
import SkillScript.Object.Lookup
import SkillScript.Settings

/-!
# The category of an object by its position

An object without a sigil takes its category from the scope it stands in. Outside any scope it is of
the section's category. Directly inside braces it is a mechanic. Inside square brackets it is what
the attribute that owns the list holds, and to find that attribute the object that owns the
enclosing braces is resolved in the same way.
-/

namespace SkillScript

/-- What the category of an object depends on besides the text before it. -/
structure Surroundings where
  /-- The category of objects outside any scope. -/
  sectionCategory : Category
  registry : Registry
  settings : Settings

/-- The text contains `word`. -/
def containsWord (word : List Char) : List Char → Bool
  | [] => word.isEmpty
  | c :: cs => word.isPrefixOf (c :: cs) || containsWord word cs

/-- The text contains `skill` in any case. -/
def mentionsSkill (valueType : String) : Bool :=
  containsWord ['s', 'k', 'i', 'l', 'l'] (lower valueType).toList

namespace Surroundings

variable (env : Surroundings)

/-- The category of the objects in the inline list that attribute `name` of `owner` holds. An
attribute that is not known is taken to hold mechanics. -/
def listCategory? (owner : Option ResolvedObject) (name : String) : Option Category :=
  match owner.bind fun o => o.entry.attributeNamed? name with
  | none => some .mechanic
  | some a =>
    if a.inlineConditions then some .condition
    else if env.settings.isInlineList a.name || a.valueType.any mentionsSkill then some .mechanic
    else none

/-- The category of an object without a sigil that is written at the end of a text. -/
def categoryAfter? (text : List Char) : Option Category :=
  match _h₁ : Scope.find? text with
  | none => some env.sectionCategory
  | some list =>
    match list.delimiter with
    | .brace => some .mechanic
    | .bracket =>
      let owner :=
        match _h₂ : Scope.find? list.before with
        | none => none
        | some scope =>
          match scope.delimiter with
          | .bracket => none
          | .brace =>
            let category := match scope.sigil with
              | some sigil => some sigil.category
              | none => categoryAfter? scope.before
            category.bind fun c => env.registry.lookup? c scope.name
      env.listCategory? owner (String.ofList list.name)
termination_by text.length
decreasing_by
  have := Scope.length_before_lt _h₁
  have := Scope.length_before_lt _h₂
  omega

/-- The category of the object that owns a scope, by its sigil or by its position. -/
def ownerCategory? (scope : Scope) : Option Category :=
  match scope.sigil with
  | some sigil => some sigil.category
  | none => env.categoryAfter? scope.before

/-- The object that owns a scope. -/
def owner? (scope : Scope) : Option ResolvedObject :=
  (env.ownerCategory? scope).bind fun c => env.registry.lookup? c scope.name

end Surroundings

end SkillScript
