import SkillScript.Candidate.Basic
import SkillScript.Candidate.Snippet
import SkillScript.Line.Token
import SkillScript.Schema.Basic
import SkillScript.Settings

/-!
# Values to offer

The values of a node are the members of its dataset, the truth values, or else the fixed values it
lists. On a line with several values the candidates are those of the value being typed, and a space
after each leads on to the next.
-/

namespace SkillScript

/-- The integers from `min` to `max` in decimal. -/
def integersBetween (min max : Int64) : List String :=
  (List.range (max.toInt - min.toInt + 1).toNat).map fun (k : Nat) => toString (min.toInt + k)

/-- How many integers there are from `min` to `max`, as far as 64 bits can count them. -/
def rangeLength (min max : Int64) : Int64 :=
  Int64.ofIntClamp ((Int64.ofIntClamp (max.toInt - min.toInt)).toInt + 1)

/-- The range is short enough to be offered as a list of choices. The limit is taken as a signed
number. -/
def isShortRange (settings : Settings) (min max : Int64) : Bool :=
  decide (min ≤ max) && decide (rangeLength min max ≤ settings.maxSuffixChoices.toInt64)

/-- A place to choose from, when there is anything to choose. -/
def choicePlace (choices : List String) : String :=
  if choices.isEmpty then "" else snippetChoices choices

/-- A suffix as a snippet. A range too long to list becomes a place with its least member. -/
def Suffix.snippet (settings : Settings) (s : Suffix) : String :=
  escapeSnippet s.separator ++
    match s.values with
    | .choices values => choicePlace values
    | .range min max =>
      if isShortRange settings min max then choicePlace (integersBetween min max)
      else snippetDefault (toString min.toInt)

/-- A member of a dataset, with the suffix that may follow it. -/
def DatasetEntry.candidate (settings : Settings) (dataset : String) (suffix : Option Suffix)
    (e : DatasetEntry) : Candidate where
  label := e.key
  insertText := match suffix with
    | some s => escapeSnippet e.key ++ s.snippet settings
    | none => e.key
  kind := .enumMember
  detail := some dataset
  documentation := e.description
  snippet := suffix.isSome
  retrigger := false

/-- The members of a dataset. -/
def Dataset.candidates (settings : Settings) (suffix : Option Suffix) (d : Dataset) :
    List Candidate :=
  d.entries.map (·.candidate settings d.name suffix)

/-- The truth values. -/
def booleanCandidates : List Candidate :=
  ["true", "false"].map (Candidate.ofLabel · .value)

namespace SchemaNode

/-- The members of the node's dataset. -/
def memberCandidates (datasets : Datasets) (settings : Settings) (suffix : Option Suffix)
    (n : SchemaNode) : List Candidate :=
  match n.dataset.bind datasets.find? with
  | some dataset => dataset.candidates settings suffix
  | none => []

/-- The candidates of a node that is not a line of several values. -/
def plainCandidates (datasets : Datasets) (settings : Settings) (n : SchemaNode) :
    List Candidate :=
  let candidates := match n.kind with
    | .enum => n.memberCandidates datasets settings none
    | .boolean => booleanCandidates
    | .list => n.memberCandidates datasets settings n.suffix
    | _ => []
  if candidates.isEmpty then n.values.map (Candidate.ofLabel · .value) else candidates

end SchemaNode

/-- The candidate with a space behind it that leads on to the next value. -/
def Candidate.andNext (c : Candidate) : Candidate :=
  { c with insertText := c.insertText ++ " ", retrigger := true }

/-- The token that is being typed at the end of a text, without its groups. -/
def typedBare (typed : List Char) : List Char :=
  match typedToken? typed with
  | some token => stripGroups token
  | none => []

mutual

/-- The candidates for the value of a node, of which `typed` is there already. -/
def SchemaNode.candidates (datasets : Datasets) (settings : Settings) :
    SchemaNode → List Char → List Candidate
  | ⟨kind, description, link, values, dataset, entries, children, closesDepth, suffix⟩, typed =>
    if entries.isEmpty then
      SchemaNode.plainCandidates datasets settings
        ⟨kind, description, link, values, dataset, entries, children, closesDepth, suffix⟩
    else slotCandidates datasets settings entries (slotIndex typed) (typedBare typed)

/-- The candidates for value number `index` of a line, of which `typed` is there already. -/
def slotCandidates (datasets : Datasets) (settings : Settings) :
    List SchemaNode → Nat → List Char → List Candidate
  | [], _, _ => []
  | entry :: rest, 0, typed =>
    let candidates := SchemaNode.candidates datasets settings entry typed
    if rest.isEmpty then candidates else candidates.map Candidate.andNext
  | _ :: rest, index + 1, typed => slotCandidates datasets settings rest index typed

end

end SkillScript
