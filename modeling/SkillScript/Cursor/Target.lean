import SkillScript.Cursor.Category
import SkillScript.Cursor.Section
import SkillScript.Key.Excerpt
import SkillScript.Line.Word

/-!
# What the cursor stands on

The word under the cursor names an object, or inside the braces of an object it names an attribute
or is part of an attribute's value. Three queries share this: `Document.found` gives the object or
the attribute, `Document.category?` its category, which needs no entry in a registry, and
`Document.contextOwner?` the object whose arguments are being typed.
-/

namespace SkillScript

/-- What the word under the cursor denotes. -/
inductive Target where
  /-- The name of an object. -/
  | object (sigil : Option Sigil) (name : List Char)
  /-- The attribute `name` of the object that owns a scope. -/
  | argument (owner : Scope) (name : String)
  deriving DecidableEq, Repr

/-- A target, the text before its word and the category of its section. -/
structure CursorTarget where
  before : List Char
  sectionCategory : Category
  target : Target
  deriving DecidableEq, Repr

/-- An attribute of an object. -/
structure ResolvedAttribute where
  owner : ResolvedObject
  entry : AttributeEntry
  deriving DecidableEq, Repr

/-- What was found under the cursor. -/
inductive Found where
  | object (o : ResolvedObject)
  | argument (a : ResolvedAttribute)
  | nothing
  deriving DecidableEq, Repr

/-- What `word` denotes when `before` is the text before it. -/
def Target.of (before : List Char) (word : Word) : Target :=
  match Scope.find? before with
  | some scope =>
    match scope.delimiter with
    | .brace =>
      .argument scope ((currentAttribute? scope.inner).getD (String.ofList word.text))
    | .bracket => .object word.sigil word.text
  | none => .object word.sigil word.text

namespace Document

variable (d : Document)

/-- The word under the cursor. A cursor past the end of its line counts as the end. -/
def wordAt? (p : Position) : Option Word :=
  match d.line? p.line with
  | none => none
  | some line =>
    match wordAt line (byteOffset line p.character) with
    | .ok word => word
    | .error _ => none

/-- The excerpt before the cursor without the part of it that belongs to `word`. There is none when
the word starts before the excerpt does. -/
def beforeWord? (p : Position) (word : Word) : Option (List Char) :=
  match d.line? p.line with
  | none => none
  | some line =>
    let text := (d.excerpt p).text
    let typed := byteOffset line p.character - word.sigilStart
    if typed ≤ byteLength text then
      (splitAtByte? text (byteLength text - typed)).map Prod.fst
    else none

/-- What the cursor stands on, in a section whose objects have a category. -/
def cursorTarget? (settings : Settings) (p : Position) : Option CursorTarget := do
  let sectionCategory ← d.sectionCategory? settings p.line
  let word ← d.wordAt? p
  let before ← d.beforeWord? p word
  return { before, sectionCategory, target := Target.of before word }

/-- The object or attribute under the cursor. -/
def found (registry : Registry) (settings : Settings) (p : Position) : Found :=
  match d.cursorTarget? settings p with
  | none => .nothing
  | some ⟨before, sectionCategory, target⟩ =>
    let env : Surroundings := { sectionCategory, registry, settings }
    match target with
    | .object sigil name =>
      let category := match sigil with
        | some sigil => some sigil.category
        | none => env.categoryAfter? before
      match category.bind fun c => registry.lookup? c name with
      | some o => .object o
      | none => .nothing
    | .argument scope name =>
      match env.owner? scope with
      | none => .nothing
      | some owner =>
        match owner.entry.attributeNamed? name with
        | some entry => .argument { owner, entry }
        | none => .nothing

/-- The category of the object under the cursor, or of the object whose attribute is. -/
def category? (registry : Registry) (settings : Settings) (p : Position) : Option Category :=
  match d.cursorTarget? settings p with
  | none => none
  | some ⟨before, sectionCategory, target⟩ =>
    let env : Surroundings := { sectionCategory, registry, settings }
    match target with
    | .object (some sigil) _ => some sigil.category
    | .object none _ => env.categoryAfter? before
    | .argument scope _ => env.ownerCategory? scope

/-- The object whose arguments are being typed at the cursor, and the attribute whose value is. -/
def contextOwner? (registry : Registry) (settings : Settings) (p : Position) :
    Option (ResolvedObject × Option String) := do
  let sectionCategory ← d.sectionCategory? settings p.line
  let context ← d.argumentContext? p
  match context.owner.delimiter with
  | .bracket => none
  | .brace =>
    let owner ← Surroundings.owner? { sectionCategory, registry, settings } context.owner
    return (owner, context.attributeName)

end Document

end SkillScript
