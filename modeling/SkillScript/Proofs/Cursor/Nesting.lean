import SkillScript.Cursor.Category
import SkillScript.Proofs.Line.Enclosing

/-!
# The category of an object by the groups around it

`Surroundings.categoryAfter?` scans the text before an object backward, then the text before the
owner that it finds, and so on outward. Each scan finds the next group out, so the category is a
function of the groups that are open at the object, innermost first (`Surroundings.categoryWithin`).

* `categoryAfter?_eq`: one step of the scan.
* `categoryAfter?_eq_categoryWithin`, `owner?_eq_objectWithin`: the scan and the recursion over the
  open groups agree, for categories and for owners.
-/

namespace SkillScript

/-- The sigil and the name of the owner of a group. -/
def OpenGroup.owner? (g : OpenGroup) : Option (Option Sigil × List Char) :=
  (Scope.owner? g.before).map fun (_, sigil, name, _) => (sigil, name)

theorem OpenGroup.owner?_of_find? {text : List Char} {scope : Scope}
    (h : Scope.find? text = some scope) :
    OpenGroup.owner? ⟨scope.outer, scope.delimiter⟩ = some (scope.sigil, scope.name) := by
  simp [OpenGroup.owner?, (Scope.openGroups_of_find? h).2]

/-- The owner of a scope starts before its opener, and the opener is inside the text. -/
theorem Scope.offsets_of_find? {text : List Char} {scope : Scope} (h : find? text = some scope) :
    scope.nameOffset < scope.openOffset ∧ scope.openOffset < byteLength text ∧
      scope.before <+: text := by
  have hname : 0 < byteLength scope.name := by
    obtain ⟨c, cs, hcs⟩ := List.exists_cons_of_ne_nil (Scope.name_ne_nil_of_find? h)
    have := c.utf8Size_pos
    simp only [hcs, byteLength_cons]
    omega
  have hopener := scope.delimiter.opener.utf8Size_pos
  rw [← Scope.text_of_find? h]
  refine ⟨?_, ?_, ?_⟩
  · simp only [Scope.nameOffset, Scope.openOffset, Scope.outer, byteLength_append]
    omega
  · simp only [Scope.openOffset, Scope.text, byteLength_append, byteLength_cons]
    omega
  · simp only [Scope.text, Scope.outer, List.append_assoc]
    exact List.prefix_append _ _

namespace Surroundings

variable (env : Surroundings)

/-- The object that owns a group, when the group is one of braces. Without a sigil its category is
the one given. -/
def objectOf? (category : Option Category) (group : OpenGroup) : Option ResolvedObject :=
  match group.owner?, group.delimiter with
  | some (some sigil, name), .brace => env.registry.lookup? sigil.category name
  | some (none, name), .brace => category.bind fun c => env.registry.lookup? c name
  | _, _ => none

/-- The category of an object without a sigil directly inside a group, where `object` owns the
braces around the group. In a group without an owner the section decides. In braces the object is a
mechanic. In square brackets the attribute that owns them decides. -/
def categoryIn (object : Option ResolvedObject) (group : OpenGroup) : Option Category :=
  match group.owner?, group.delimiter with
  | none, _ => some env.sectionCategory
  | some _, .brace => some .mechanic
  | some (_, name), .bracket =>
    match object.bind fun o => o.entry.attributeNamed? (String.ofList name) with
    | none => some .mechanic
    | some a =>
      if a.inlineConditions then some .condition
      else if env.settings.isInlineList a.name || a.valueType.any mentionsSkill then some .mechanic
      else none

theorem categoryIn_bracket {object : Option ResolvedObject} {before name : List Char}
    {sigil : Option Sigil} (h : OpenGroup.owner? ⟨before, .bracket⟩ = some (sigil, name)) :
    env.categoryIn object ⟨before, .bracket⟩ = env.listCategory? object (String.ofList name) := by
  rw [categoryIn, h]
  rfl

mutual

/-- The category of an object without a sigil inside the given groups, innermost first. -/
def categoryWithin : List OpenGroup → Option Category
  | [] => some env.sectionCategory
  | group :: outer => env.categoryIn (objectWithin outer) group

/-- The object that owns the innermost of the given groups. -/
def objectWithin : List OpenGroup → Option ResolvedObject
  | [] => none
  | group :: outer => env.objectOf? (categoryWithin outer) group

end

/-! ## One step outward -/

/-- The object whose attributes own the inline lists at the end of a text. -/
def listOwner? (text : List Char) : Option ResolvedObject :=
  match Scope.find? text with
  | none => none
  | some scope =>
    match scope.delimiter with
    | .brace => env.owner? scope
    | .bracket => none

/-- The category depends on the scope that is found and, inside square brackets, on the object
around them. -/
theorem categoryAfter?_eq (text : List Char) :
    env.categoryAfter? text = match Scope.find? text with
      | none => some env.sectionCategory
      | some list => match list.delimiter with
        | .brace => some .mechanic
        | .bracket => env.listCategory? (env.listOwner? list.before) (String.ofList list.name) := by
  rw [categoryAfter?]
  split
  · next h => rw [h]
  · next list h =>
    rw [h]
    simp only
    cases list.delimiter with
    | brace => rfl
    | bracket =>
      simp only [listOwner?]
      congr 1
      split
      · next h' => rw [h']
      · next scope h' =>
        rw [h']
        simp only
        cases scope.delimiter <;> rfl

/-- The owner of braces that are found, by the group that they are. -/
theorem owner?_eq_objectOf? {text : List Char} {scope : Scope} (h : Scope.find? text = some scope)
    (hd : scope.delimiter = .brace) :
    env.owner? scope =
      env.objectOf? (env.categoryAfter? scope.before) ⟨scope.outer, scope.delimiter⟩ := by
  rw [objectOf?, OpenGroup.owner?_of_find? h, hd, owner?, ownerCategory?]
  cases scope.sigil <;> rfl

/-- No owner is found for a text whose innermost group has none. -/
theorem objectWithin_of_find?_none {text : List Char} (h : Scope.find? text = none) :
    env.objectWithin (openGroups text) = none := by
  rcases Scope.openGroups_of_find?_none h with hopen | ⟨g, outer, hopen, ho⟩
  · rw [hopen, objectWithin]
  · simp [hopen, objectWithin, objectOf?, OpenGroup.owner?, ho]

theorem categoryWithin_of_find?_none {text : List Char} (h : Scope.find? text = none) :
    env.categoryWithin (openGroups text) = some env.sectionCategory := by
  rcases Scope.openGroups_of_find?_none h with hopen | ⟨g, outer, hopen, ho⟩
  · rw [hopen, categoryWithin]
  · simp [hopen, categoryWithin, categoryIn, OpenGroup.owner?, ho]

/-- Outward from an object, the backward scans meet the open groups one by one. -/
theorem categoryAfter?_eq_categoryWithin (text : List Char) :
    env.categoryAfter? text = env.categoryWithin (openGroups text) := by
  induction hn : text.length using Nat.strongRecOn generalizing text with
  | ind n ih =>
    subst hn
    rw [categoryAfter?_eq]
    cases h : Scope.find? text with
    | none => rw [categoryWithin_of_find?_none env h]
    | some list =>
      have hlt := Scope.length_before_lt h
      -- The object around the list is that of the next group out, by the induction.
      have hobject : env.listOwner? list.before = env.objectWithin (openGroups list.before) := by
        rw [listOwner?]
        cases h' : Scope.find? list.before with
        | none => rw [objectWithin_of_find?_none env h']
        | some scope =>
          have hlt' := Scope.length_before_lt h'
          rw [(Scope.openGroups_of_find? h').1, objectWithin]
          simp only
          cases hd : scope.delimiter with
          | bracket => simp [objectOf?]
          | brace =>
            simp only
            rw [owner?_eq_objectOf? env h' hd, ih _ (by omega) scope.before rfl, hd]
      have howner := OpenGroup.owner?_of_find? h
      rw [(Scope.openGroups_of_find? h).1, categoryWithin]
      simp only
      cases hd : list.delimiter with
      | brace => rw [categoryIn, ← hd, howner, hd]
      | bracket =>
        rw [hd] at howner
        rw [env.categoryIn_bracket howner, hobject]

/-- The object that owns braces that are open at the end of a text. -/
theorem owner?_eq_objectWithin {text : List Char} {scope : Scope}
    (h : Scope.find? text = some scope) (hd : scope.delimiter = .brace) :
    env.owner? scope = env.objectWithin (openGroups text) := by
  rw [owner?_eq_objectOf? env h hd, (Scope.openGroups_of_find? h).1, objectWithin,
    categoryAfter?_eq_categoryWithin]

/-- The category of an object is the recursion over the groups that are open where it stands. The
text before the owner of a scope is strictly shorter, and exactly the groups around the scope are
open there, so every query about the owner is a query about those groups. -/
theorem categoryAfter?_nested (text : List Char) :
    env.categoryAfter? text = env.categoryWithin (openGroups text) ∧
      ∀ scope, Scope.find? text = some scope →
        (scope.nameOffset < scope.openOffset ∧ scope.openOffset < byteLength text ∧
          scope.before <+: text) ∧
        openGroups text = ⟨scope.outer, scope.delimiter⟩ :: openGroups scope.before ∧
        OpenGroup.owner? ⟨scope.outer, scope.delimiter⟩ = some (scope.sigil, scope.name) ∧
        (env.ownerCategory? scope = match scope.sigil with
          | some sigil => some sigil.category
          | none => env.categoryWithin (openGroups scope.before)) ∧
        match scope.delimiter with
        | .brace => env.owner? scope = env.objectWithin (openGroups text)
        | .bracket => env.categoryAfter? text =
            env.listCategory? (env.objectWithin (openGroups scope.before))
              (String.ofList scope.name) := by
  refine ⟨categoryAfter?_eq_categoryWithin env text, fun scope h => ⟨Scope.offsets_of_find? h,
    (Scope.openGroups_of_find? h).1, OpenGroup.owner?_of_find? h, ?_, ?_⟩⟩
  · rw [← categoryAfter?_eq_categoryWithin]
    rfl
  · split
    · next hd => exact owner?_eq_objectWithin env h hd
    · next hd =>
      have howner := OpenGroup.owner?_of_find? h
      rw [hd] at howner
      rw [categoryAfter?_eq_categoryWithin, (Scope.openGroups_of_find? h).1, categoryWithin, hd,
        env.categoryIn_bracket howner]

/-- A list of conditions inside a list of skills: the inner object is resolved first. -/
theorem categoryAfter?_nested_lists :
    let cond : AttributeEntry :=
      { name := "cond", aliases := [], valueType := none, description := none, default := none
        inlineConditions := true, dataset := none }
    let delay : ObjectEntry :=
      { name := "delay", aliases := [], description := none, link := none, attributes := [cond] }
    let env : Surroundings :=
      { sectionCategory := .condition, settings := .standard
        registry := { Registry.empty with mechanics := .ofList [delay] } }
    let text := "skill\x7bs=[ - delay\x7bcond=[ - ".toList
    let scope : Scope :=
      { before := "skill\x7bs=[ - delay\x7b".toList, sigil := none, name := "cond".toList
        gap := ['='], delimiter := .bracket, inner := " - ".toList }
    Scope.find? text = some scope ∧
      openGroups text = ⟨scope.outer, .bracket⟩ :: openGroups scope.before ∧
      env.categoryAfter? text = some .condition := by
  intro cond delay env text scope
  have h : Scope.find? text = some scope := by decide
  have hnested := categoryAfter?_nested env text
  refine ⟨h, (hnested.2 scope h).2.1, ?_⟩
  rw [hnested.1]
  decide +kernel

end Surroundings

end SkillScript
