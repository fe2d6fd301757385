import SkillScript.Candidate.Basic
import SkillScript.Candidate.Snippet
import SkillScript.Line.Expression
import SkillScript.Placeholder.Trie

/-!
# Completion of placeholders

Inside a placeholder the children of the node reached so far are offered. A child that has children
is offered with a point behind it, which opens the menu again, and a child at which a placeholder
may end is offered with the closing bracket. A child without children ends one even if no path does.
-/

namespace SkillScript

/-- One way to write a segment. -/
structure SegmentText where
  label : String
  insertText : String
  snippet : Bool
  deriving DecidableEq, Repr

/-- The ways to write a segment. A pattern is written as one of its candidates, or as a place to
fill in when it has none. -/
def Segment.texts : Segment → List SegmentText
  | .literal text => [⟨text, text, false⟩]
  | .scripted p =>
    if p.candidates.isEmpty then
      [⟨(Segment.scripted p).label, snippetDefault (escapeSnippet p.name), true⟩]
    else p.candidates.map fun value => ⟨value, value, false⟩

namespace Node

/-- A candidate for one way to write a child, with `mark` behind it. -/
def childCandidate (child : Node) (text : SegmentText) (mark : String) (retrigger : Bool) :
    Candidate where
  label := text.label ++ mark
  insertText := text.insertText ++ mark
  kind := if text.snippet then .scripted else .placeholder
  detail := none
  documentation := child.description
  snippet := text.snippet
  retrigger

/-- The candidates for one child. -/
def childCandidates (child : Node) : List Candidate :=
  let continues := !child.children.isEmpty
  child.segment.texts.flatMap fun text =>
    (if continues then [childCandidate child text "." true] else []) ++
      (if child.isEnd || !continues then [childCandidate child text ">" false] else [])

/-- The candidates for the children of a node. -/
def candidates (n : Node) : List Candidate := n.children.flatMap childCandidates

/-- The candidates for the placeholder that is being typed at the end of a text. The element that is
being typed does not matter, and those before it must lead to a node. -/
def complete (n : Node) (text : List Char) : List Candidate :=
  match expression? text with
  | none => []
  | some expression =>
    match n.lookup? (elements expression).dropLast with
    | some reached => reached.candidates
    | none => []

end Node

end SkillScript
