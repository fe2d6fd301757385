import SkillScript.Placeholder.Pattern
import SkillScript.Text.Quoted

/-!
# The placeholder trie

Placeholder paths share their beginnings in a trie. A node is known among its siblings by the key of
its segment, so two spellings of one literal in different case are one node, and the first spelling
stays. Inserting and merging keep the order in which children arrived.
-/

namespace SkillScript

/-- An element of a placeholder path. -/
inductive Segment where
  | literal (text : String)
  | scripted (pattern : Pattern)
  deriving DecidableEq, Repr

namespace Segment

/-- What tells a segment from its siblings. -/
def key : Segment → String
  | literal text => lower text
  | scripted p => "\x7b" ++ lower p.name ++ "\x7d"

/-- The segment as it is shown. -/
def label : Segment → String
  | literal text => text
  | scripted p => "\x7b" ++ p.name ++ "\x7d"

/-- The segment is a pattern. -/
def isScripted : Segment → Bool
  | literal _ => false
  | scripted _ => true

/-- The segment is a pattern that owns `value`. -/
def owns (value : String) : Segment → Bool
  | literal _ => false
  | scripted p => p.owns value

/-- The kind of the segment and its text. -/
def description : Segment → String
  | literal text => "Literal(" ++ quoted text ++ ")"
  | scripted p => "Scripted(\x7b" ++ p.name ++ "\x7d)"

/-- The segment that is written as `raw`: a pattern when one is known under it. -/
def parse (ps : Patterns) (raw : String) : Segment :=
  match ps.find? raw with
  | some p => scripted p
  | none => literal raw

/-- The segments of a dotted path. Blanks around an element and empty elements are dropped. -/
def ofPath (ps : Patterns) (path : String) : List Segment :=
  (((splitAtChar '.' path.toList).map trim).filter (!·.isEmpty)).map
    fun raw => parse ps (String.ofList raw)

end Segment

/-- A node of the trie. The segment of a root is never looked at. -/
structure Node where
  segment : Segment
  children : List Node
  /-- A placeholder may end here. -/
  isEnd : Bool
  description : Option String

namespace Node

/-- A node without children. -/
def leaf (segment : Segment) : Node := ⟨segment, [], false, none⟩

/-- An empty trie. -/
def root : Node := leaf (.literal "")

/-- What tells a node from its siblings. -/
def key (n : Node) : String := n.segment.key

/-- The child with the given key. -/
def child? (n : Node) (key : String) : Option Node := n.children.find? (·.key == key)

/-- The node with `description`, when there is one. -/
def describe (description : Option String) (n : Node) : Node :=
  match description with
  | some text => { n with description := some text }
  | none => n

/-- The node as the end of a placeholder. -/
def markEnd (n : Node) : Node := { n with isEnd := true }

/-! ## Insertion -/

/-- The nodes with `f` applied to the one of the given key, or with `new` behind them when none has
it. -/
def place (key : String) (f : Node → Node) (new : Node) : List Node → List Node
  | [] => [new]
  | n :: rest => if n.key = key then f n :: rest else n :: place key f new rest

/-- The trie with `f` applied at the end of a path. Nodes that the path lacks are added. -/
def alter (f : Node → Node) : List Segment → Node → Node
  | [], n => f n
  | s :: path, n =>
    { n with children := place s.key (alter f path) (alter f path (leaf s)) n.children }

/-- The trie with a path inserted and `f` applied to the node at its end. The empty path ends at the
root, which is no placeholder. -/
def insertWith (f : Node → Node) (path : List Segment) (n : Node) : Node :=
  if path.isEmpty then f n else alter (fun e => f e.markEnd) path n

/-- The trie with a path inserted, and a description at its end. -/
def insert (path : List Segment) (description : Option String) (n : Node) : Node :=
  insertWith (describe description) path n

/-- The node at the end of a path, by keys. -/
def descend? : List Segment → Node → Option Node
  | [], n => some n
  | s :: path, n => (n.child? s.key).bind (descend? path)

/-! ## Merging -/

mutual

/-- The node with another of the same key merged into it. Its own description stays. -/
def absorb : Node → Node → Node
  | ⟨_, children, isEnd, description⟩, n =>
    { n with
      children := graftAll children n.children
      isEnd := n.isEnd || isEnd
      description := n.description.or description }

/-- The second list of siblings with the first merged into it, in order. -/
def graftAll : List Node → List Node → List Node
  | [], nodes => nodes
  | m :: rest, nodes => graftAll rest (place m.key (absorb m) m nodes)

end

/-- The node with the children of `source` merged into its own. -/
def merge (n source : Node) : Node := { n with children := graftAll source.children n.children }

/-- The trie with the children of `source` merged beneath the node at the end of a path, when there
is such a node. -/
def graftAt? (n : Node) (path : List Segment) (source : Node) : Option Node :=
  if (n.descend? path).isSome then some (alter (·.merge source) path n) else none

/-! ## Lookup -/

/-- The child that a typed element stands for: the literal child of its lower case, or else the
first pattern that owns it. -/
def matching? (n : Node) (value : String) : Option Node :=
  match (n.child? (lower value)).filter (!·.segment.isScripted) with
  | some child => some child
  | none => n.children.find? (·.segment.owns value)

/-- The node that typed elements lead to. -/
def lookup? : List String → Node → Option Node
  | [], n => some n
  | value :: path, n => (n.matching? value).bind (lookup? path)

/-- The elements of a typed path. -/
def elements (path : List Char) : List String := (splitAtChar '.' path).map String.ofList

/-! ## Traversal -/

mutual

/-- The number of nodes. -/
def size : Node → Nat
  | ⟨_, children, _, _⟩ => 1 + sizeAll children

/-- The number of nodes of several tries. -/
def sizeAll : List Node → Nat
  | [] => 0
  | n :: rest => size n + sizeAll rest

end

mutual

/-- Every node with its depth, each before its children. -/
def outline (depth : Nat) : Node → List (Nat × Node)
  | ⟨segment, children, isEnd, description⟩ =>
    (depth, ⟨segment, children, isEnd, description⟩) :: outlineAll (depth + 1) children

/-- The outlines of several siblings, one after the other. -/
def outlineAll (depth : Nat) : List Node → List (Nat × Node)
  | [] => []
  | n :: rest => outline depth n ++ outlineAll depth rest

end

end Node

end SkillScript
