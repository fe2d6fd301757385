import SkillScript.Placeholder.Keyword

/-!
# Tries with an index

A trie that is still being built keeps, at each node, the position of every child by its key, so
that no edit searches among siblings. Every edit of such a trie finds its way by positions alone and
sets the position of each child that it adds. `IndexedNode.toNode` is the trie that it stands for.

`IndexedNode.trieOf` is the trie of all placeholders and keywords, built by such edits: the keywords
are linked first, each with a trie of its own, and go beneath the placeholders that they may follow.
-/

namespace SkillScript

/-- A node of a trie with the positions of its children. -/
structure IndexedNode where
  segment : Segment
  children : List IndexedNode
  /-- The position of the child of each key. -/
  positions : List (String × Nat)
  /-- A placeholder may end here. -/
  isEnd : Bool
  description : Option String

namespace IndexedNode

/-- A node without children. -/
def leaf (segment : Segment) : IndexedNode := ⟨segment, [], [], false, none⟩

/-- An empty trie. -/
def root : IndexedNode := leaf (.literal "")

/-- What tells a node from its siblings. -/
def key (n : IndexedNode) : String := n.segment.key

/-- The child with the given key. -/
def child? (n : IndexedNode) (key : String) : Option IndexedNode :=
  (n.positions.lookup key).bind fun i => n.children[i]?

/-- The node with `description`, when there is one. -/
def describe (description : Option String) (n : IndexedNode) : IndexedNode :=
  match description with
  | some text => { n with description := some text }
  | none => n

/-- The node as the end of a placeholder. -/
def markEnd (n : IndexedNode) : IndexedNode := { n with isEnd := true }

/-- The node with `f` applied to its child of the given key, or with `new` as its last child when
none has the key. -/
def place (n : IndexedNode) (key : String) (f : IndexedNode → IndexedNode) (new : IndexedNode) :
    IndexedNode :=
  match n.positions.lookup key with
  | some i => { n with children := n.children.modify i f }
  | none =>
    { n with
      children := n.children ++ [new]
      positions := (key, n.children.length) :: n.positions }

/-- The trie with `f` applied at the end of a path. Nodes that the path lacks are added. -/
def alter (f : IndexedNode → IndexedNode) : List Segment → IndexedNode → IndexedNode
  | [], n => f n
  | s :: path, n => n.place s.key (alter f path) (alter f path (leaf s))

/-- The trie with a path inserted, and a description at its end. The empty path ends at the root,
which is no placeholder. -/
def insert (path : List Segment) (description : Option String) (n : IndexedNode) : IndexedNode :=
  if path.isEmpty then n.describe description
  else alter (fun e => describe description e.markEnd) path n

/-- The trie with a path inserted and `f` applied to the node at its end. -/
def insertWith (f : IndexedNode → IndexedNode) (path : List Segment) (n : IndexedNode) :
    IndexedNode :=
  if path.isEmpty then f n else alter (fun e => f e.markEnd) path n

/-- The node at the end of a path, by keys. -/
def descend? : List Segment → IndexedNode → Option IndexedNode
  | [], n => some n
  | s :: path, n => (n.child? s.key).bind (descend? path)

mutual

/-- The node with another of the same key merged into it. Its own description stays. -/
def absorb : IndexedNode → IndexedNode → IndexedNode
  | ⟨_, children, _, isEnd, description⟩, n =>
    { graftAll children n with
      isEnd := n.isEnd || isEnd
      description := n.description.or description }

/-- The node with others merged into its children, in order. -/
def graftAll : List IndexedNode → IndexedNode → IndexedNode
  | [], n => n
  | m :: rest, n => graftAll rest (n.place m.key (absorb m) m)

end

/-- The node with the children of `source` merged into its own. -/
def merge (n source : IndexedNode) : IndexedNode := graftAll source.children n

/-- The trie with `f` applied to the node at the end of a path, when there is such a node. -/
def editAt? (n : IndexedNode) (path : List Segment) (f : IndexedNode → IndexedNode) :
    Option IndexedNode :=
  if (n.descend? path).isSome then some (alter f path n) else none

/-- The trie with a description at the node that a path leads to. -/
def describeAt? (n : IndexedNode) (path : List Segment) (description : Option String) :
    Option IndexedNode :=
  n.editAt? path (describe description)

/-- The trie with the children of `source` merged beneath the node that a path leads to. -/
def graftAt? (n : IndexedNode) (path : List Segment) (source : IndexedNode) : Option IndexedNode :=
  n.editAt? path (·.merge source)

/-- The child that a typed element stands for: the literal child at the position of its lower case,
or else the first pattern that owns it. -/
def matching? (n : IndexedNode) (value : String) : Option IndexedNode :=
  match (n.child? (lower value)).filter (!·.segment.isScripted) with
  | some child => some child
  | none => n.children.find? (·.segment.owns value)

/-- The node that typed elements lead to. -/
def lookup? : List String → IndexedNode → Option IndexedNode
  | [], n => some n
  | value :: path, n => (n.matching? value).bind (lookup? path)

mutual

/-- The trie without its positions. -/
def toNode : IndexedNode → Node
  | ⟨segment, children, _, isEnd, description⟩ => ⟨segment, toNodes children, isEnd, description⟩

/-- The tries without their positions. -/
def toNodes : List IndexedNode → List Node
  | [] => []
  | n :: rest => toNode n :: toNodes rest

end

@[simp] theorem toNodes_eq_map (ns : List IndexedNode) : toNodes ns = ns.map toNode := by
  induction ns with
  | nil => rfl
  | cons n ns ih => simp only [toNodes, ih, List.map_cons]

@[simp] theorem segment_toNode (n : IndexedNode) : n.toNode.segment = n.segment := by
  cases n; rfl

@[simp] theorem children_toNode (n : IndexedNode) : n.toNode.children = n.children.map toNode := by
  cases n; exact toNodes_eq_map _

@[simp] theorem isEnd_toNode (n : IndexedNode) : n.toNode.isEnd = n.isEnd := by
  cases n; rfl

@[simp] theorem description_toNode (n : IndexedNode) : n.toNode.description = n.description := by
  cases n; rfl

@[simp] theorem key_toNode (n : IndexedNode) : n.toNode.key = n.key := by
  rw [Node.key, segment_toNode]; rfl

end IndexedNode

/-! ## Placeholders and keywords -/

/-- A keyword with the trie of what may be written from it on. -/
structure IndexedKeyword where
  keyword : Keyword
  path : List Segment
  trie : IndexedNode

namespace IndexedKeyword

/-- The keyword without the positions in its trie. -/
def toLinked (k : IndexedKeyword) : LinkedKeyword := ⟨k.keyword, k.path, k.trie.toNode⟩

/-- A keyword that nothing follows. -/
def of (ps : Patterns) (keyword : Keyword) : IndexedKeyword :=
  let path := Segment.ofPath ps keyword.path
  { keyword, path, trie := IndexedNode.root.insert path keyword.description }

/-- The keyword with what another starts beneath its end. Nothing follows a keyword without an
element. -/
def follow (target source : IndexedKeyword) : IndexedKeyword :=
  if target.path.isEmpty then target
  else match target.trie.graftAt? target.path source.trie with
    | some trie => { target with trie }
    | none => target

/-- The keywords, each followed by those that are linked to it. Every keyword is read as it is
given. -/
def pass (links : Keyword → Nat → Keyword → Nat → Bool) (ks : List IndexedKeyword) :
    List IndexedKeyword :=
  ks.zipIdx.map fun (target, i) =>
    ks.zipIdx.foldl
      (fun t (source, j) => if links source.keyword j target.keyword i then t.follow source else t)
      target

/-- The keywords with their links. -/
def linkAll (ps : Patterns) (keywords : List Keyword) : List IndexedKeyword :=
  pass LinkedKeyword.byType
    (pass LinkedKeyword.toAll (pass LinkedKeyword.fromAll (keywords.map (of ps))))

end IndexedKeyword

namespace IndexedNode

/-- The end of a placeholder, with its description and the keywords that may follow it. -/
def finish (ks : List IndexedKeyword) (p : Placeholder) (terminal : IndexedNode) : IndexedNode :=
  let described := terminal.describe p.description
  match p.returnType with
  | none => described
  | some type => (ks.filter (·.toLinked.appliesTo type)).foldl (fun n k => n.merge k.trie) described

/-- The trie with one more placeholder. A blank path is skipped. -/
def insertPlaceholder (ps : Patterns) (ks : List IndexedKeyword) (trie : IndexedNode)
    (p : Placeholder) : IndexedNode :=
  if (trim p.path.toList).isEmpty then trie
  else trie.insertWith (finish ks p) (Segment.ofPath ps p.path)

/-- The trie of all placeholders and keywords. -/
def trieOf (ps : Patterns) (keywords : List Keyword) (placeholders : List Placeholder) :
    IndexedNode :=
  placeholders.foldl (insertPlaceholder ps (IndexedKeyword.linkAll ps keywords)) root

end IndexedNode

end SkillScript
