/-!
# Completion candidates

A candidate is one entry of a completion menu, and `Candidate.item` is the form in which an editor
takes it.
-/

namespace SkillScript

/-- What a candidate stands for. -/
inductive CandidateKind where
  /-- A key or the name of an attribute. -/
  | key
  /-- A fixed value. -/
  | value
  /-- A member of a dataset. -/
  | enumMember
  /-- An element of a placeholder path. -/
  | placeholder
  /-- An element of a placeholder path that stands for many texts. -/
  | scripted
  deriving DecidableEq, Repr

namespace CandidateKind

/-- The name of a kind in answers. -/
def name : CandidateKind → String
  | key => "key"
  | value => "value"
  | enumMember => "enum_member"
  | placeholder => "placeholder"
  | scripted => "scripted"

/-- The number that an editor knows the kind by: property, value, enum member, field or snippet. -/
def code : CandidateKind → Nat
  | key => 10
  | value => 12
  | enumMember => 20
  | placeholder => 5
  | scripted => 15

end CandidateKind

/-- One entry of a completion menu. -/
structure Candidate where
  label : String
  /-- The text that is inserted. -/
  insertText : String
  kind : CandidateKind
  detail : Option String
  documentation : Option String
  /-- The inserted text is a snippet with places to fill in. -/
  snippet : Bool
  /-- The menu opens again once the candidate is accepted. -/
  retrigger : Bool
  deriving DecidableEq, Repr

/-- A candidate that inserts its label. -/
def Candidate.ofLabel (label : String) (kind : CandidateKind) : Candidate where
  label
  insertText := label
  kind
  detail := none
  documentation := none
  snippet := false
  retrigger := false

/-- A candidate as an editor takes it. -/
structure CompletionItem where
  label : String
  kind : CandidateKind
  detail : Option String
  documentation : Option String
  /-- The editor sorts the menu by this text. -/
  sortText : String
  /-- The text to insert, when it is not the label. -/
  insertText : Option String
  snippet : Bool
  retrigger : Bool
  deriving DecidableEq, Repr

/-- `n` in decimal, with zeros in front up to four digits. -/
def sortText (n : Nat) : String :=
  let digits := Nat.toDigits 10 n
  String.ofList (List.replicate (4 - digits.length) '0' ++ digits)

/-- The candidate as entry number `order` of an editor's menu. -/
def Candidate.item (c : Candidate) (order : Nat) : CompletionItem where
  label := c.label
  kind := c.kind
  detail := c.detail
  documentation := c.documentation
  sortText := sortText order
  insertText := if c.insertText ≠ c.label ∨ c.snippet then some c.insertText else none
  snippet := c.snippet
  retrigger := c.retrigger

/-- The candidates as the entries of an editor's menu. -/
def Candidate.menu (cs : List Candidate) : List CompletionItem :=
  cs.zipIdx.map fun c => c.1.item c.2

end SkillScript
