import SkillScript.Candidate.Basic
import SkillScript.Cursor.Target
import SkillScript.Json.Basic

/-!
# Answers in JSON

The JSON form of what the queries give. An absent text is `null`, except in the items of an editor's
menu, which leave it out.
-/

namespace SkillScript

open Json

/-- An attribute of an object. -/
def AttributeEntry.toJson (a : AttributeEntry) : Json := obj [
  ("name", str a.name),
  ("aliases", arr (a.aliases.map str)),
  ("type", ofOption a.valueType),
  ("description", ofOption a.description),
  ("default", ofOption a.default),
  ("inline_conditions", bool a.inlineConditions),
  ("dataset", ofOption a.dataset)]

/-- An object. -/
def ObjectEntry.toJson (o : ObjectEntry) : Json := obj [
  ("name", str o.name),
  ("aliases", arr (o.aliases.map str)),
  ("description", ofOption o.description),
  ("link", ofOption o.link),
  ("attributes", arr (o.attributes.map AttributeEntry.toJson))]

/-- The fields of a resolved object. -/
def ResolvedObject.fields (o : ResolvedObject) : List (String × Json) := [
  ("category", str o.category.name),
  ("entry", o.entry.toJson),
  ("written_name", str o.writtenName)]

/-- What was found under the cursor, with its kind first. -/
def Found.toJson : Found → Json
  | .object o => obj (("kind", str "mechanic") :: o.fields)
  | .argument a => obj [
      ("kind", str "attribute"),
      ("owner", obj a.owner.fields),
      ("attribute", a.entry.toJson)]
  | .nothing => obj [("kind", str "not_found")]

/-- A candidate. -/
def Candidate.toJson (c : Candidate) : Json := obj [
  ("label", str c.label),
  ("insert_text", str c.insertText),
  ("kind", str c.kind.name),
  ("detail", ofOption c.detail),
  ("documentation", ofOption c.documentation),
  ("snippet", bool c.snippet),
  ("retrigger", bool c.retrigger)]

/-- The field `name`, when there is a value for it. -/
def optionalField {α : Type} (name : String) (encode : α → Json) :
    Option α → List (String × Json)
  | some a => [(name, encode a)]
  | none => []

/-- The command that opens an editor's menu again. -/
def retriggerCommand : Json := obj [
  ("title", str "Re-trigger completion"),
  ("command", str "editor.action.triggerSuggest")]

/-- An item of an editor's menu. -/
def CompletionItem.toJson (i : CompletionItem) : Json :=
  let markdown (text : String) : Json := obj [("kind", str "markdown"), ("value", str text)]
  obj (
    [("label", str i.label), ("kind", int i.kind.code)] ++
    optionalField "detail" str i.detail ++
    optionalField "documentation" markdown i.documentation ++
    [("sortText", str i.sortText)] ++
    optionalField "insertText" str i.insertText ++
    (if i.snippet then [("insertTextFormat", int 2)] else []) ++
    (if i.retrigger then [("command", retriggerCommand)] else []))

/-- A list of candidates, as an editor's menu when `menu` is set. -/
def candidatesJson (menu : Bool) (cs : List Candidate) : Json :=
  if menu then arr ((Candidate.menu cs).map CompletionItem.toJson)
  else arr (cs.map Candidate.toJson)

end SkillScript
