import SkillScript.Placeholder.Trie

/-!
# Placeholders and meta keywords

A placeholder may have a type. A meta keyword takes a value of its origin type to one of its return
type, so it may follow every placeholder of the origin type, and every keyword that returns it. The
type `ALL` matches every type.

Keywords are linked in three passes, each of which reads all keywords as the pass before left them:
keywords from `ALL` go beneath all others, all others go beneath keywords to `ALL`, and a keyword
goes beneath each one that returns its origin, itself included. A chain of keywords therefore ends
after a few steps.
-/

namespace SkillScript

/-- A placeholder path of the reference data. -/
structure Placeholder where
  path : String
  returnType : Option String
  description : Option String
  deriving DecidableEq, Repr

/-- A suffix for placeholders of a type. -/
structure Keyword where
  path : String
  originType : String
  returnType : String
  description : Option String
  deriving DecidableEq, Repr

/-- The type matches every type. -/
def isUniversal (type : String) : Bool := sameAscii type "ALL"

/-- A keyword with the trie of what may be written from it on. -/
structure LinkedKeyword where
  keyword : Keyword
  path : List Segment
  trie : Node

namespace LinkedKeyword

/-- A keyword that nothing follows. -/
def of (ps : Patterns) (keyword : Keyword) : LinkedKeyword :=
  let path := Segment.ofPath ps keyword.path
  { keyword, path, trie := Node.root.insert path keyword.description }

/-- The keyword with what another starts beneath its end. Nothing follows a keyword without an
element. -/
def follow (target source : LinkedKeyword) : LinkedKeyword :=
  if target.path.isEmpty then target
  else match target.trie.graftAt? target.path source.trie with
    | some trie => { target with trie }
    | none => target

/-- The keywords, each followed by those for which `links` holds of the other, its number, the
keyword itself and its number. Every keyword is read as it is given. -/
def pass (links : Keyword → Nat → Keyword → Nat → Bool) (ks : List LinkedKeyword) :
    List LinkedKeyword :=
  ks.zipIdx.map fun (target, i) =>
    ks.zipIdx.foldl
      (fun t (source, j) => if links source.keyword j target.keyword i then t.follow source else t)
      target

/-- A keyword from every type follows every other keyword. -/
def fromAll (source : Keyword) (j : Nat) (_target : Keyword) (i : Nat) : Bool :=
  isUniversal source.originType && i != j

/-- Every other keyword follows a keyword to every type. -/
def toAll (_source : Keyword) (j : Nat) (target : Keyword) (i : Nat) : Bool :=
  isUniversal target.returnType && i != j

/-- A keyword follows each keyword that returns its origin. -/
def byType (source : Keyword) (_j : Nat) (target : Keyword) (_i : Nat) : Bool :=
  sameAscii source.originType target.returnType

/-- The keywords with their links. -/
def linkAll (ps : Patterns) (keywords : List Keyword) : List LinkedKeyword :=
  pass byType (pass toAll (pass fromAll (keywords.map (of ps))))

/-- The keyword may follow a placeholder of the given type. -/
def appliesTo (k : LinkedKeyword) (type : String) : Bool :=
  sameAscii k.keyword.originType type || isUniversal k.keyword.originType

end LinkedKeyword

namespace Placeholder

/-- The end of a placeholder, with its description and the keywords that may follow it. -/
def finish (ks : List LinkedKeyword) (p : Placeholder) (terminal : Node) : Node :=
  let described := terminal.describe p.description
  match p.returnType with
  | none => described
  | some type => (ks.filter (·.appliesTo type)).foldl (fun n k => n.merge k.trie) described

/-- The trie with one more placeholder. A blank path is skipped. -/
def insertInto (ps : Patterns) (ks : List LinkedKeyword) (trie : Node) (p : Placeholder) : Node :=
  if (trim p.path.toList).isEmpty then trie
  else trie.insertWith (p.finish ks) (Segment.ofPath ps p.path)

/-- The trie of all placeholders and keywords. -/
def trieOf (ps : Patterns) (keywords : List Keyword) (placeholders : List Placeholder) : Node :=
  placeholders.foldl (insertInto ps (LinkedKeyword.linkAll ps keywords)) Node.root

end Placeholder

end SkillScript
