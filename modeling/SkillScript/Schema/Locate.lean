import SkillScript.Schema.Basic

/-!
# Locating a node

A path of keys, outermost first, leads from a mapping to a node. A list without keys of its own and
an open mapping end the walk early, since what follows is content.

The depth of a node is the number of nodes above it. Beneath a node that closes the depth it no
longer grows.
-/

namespace SkillScript

/-- A node and the depth it was found at. -/
structure Located where
  node : SchemaNode
  depth : Nat

namespace Schema

/-- The node that a path leads to from a mapping at `depth`; `closed` says that the depth no longer
grows. -/
def locateFrom? (s : Schema) (datasets : Datasets) (mapping : Mapping SchemaNode) (depth : Nat)
    (closed : Bool) : List String → Option Located
  | [] => none
  | name :: path =>
    match mapping.get? datasets name with
    | none => none
    | some node =>
      if path.isEmpty || node.isLeafContainer then some ⟨node, depth⟩
      else match s.childrenOf? node with
        | none => none
        | some children =>
          let closed := closed || node.closesDepth
          s.locateFrom? datasets children (if closed then depth else depth + 1) closed path

/-- The node that a path leads to. -/
def locate? (s : Schema) (datasets : Datasets) (path : List String) : Option Located :=
  s.locateFrom? datasets s.root 0 false path

/-- The mapping that a path leads to: the schema's own for the empty path, and else the keys beneath
the located node. -/
def mappingAt? (s : Schema) (datasets : Datasets) (path : List String) :
    Option (Mapping SchemaNode) :=
  if path.isEmpty then some s.root
  else (s.locate? datasets path).bind fun found => s.childrenOf? found.node

end Schema

/-! ## Outlines -/

/-- How a node hangs from what is above it. -/
inductive Slot where
  | key (name : String)
  | array (dataset : String)
  | wildcard
  /-- The value number `index` of a line. -/
  | entry (index : Nat)
  deriving DecidableEq, Repr

/-- The keys of a mapping as slots: literals, the array key, the wildcard. -/
def Mapping.slots {α : Type} (m : Mapping α) : List (Slot × α) :=
  m.literals.map (fun l => (.key l.1, l.2))
    ++ m.arrayKey.toList.map (fun a => (.array a.1, a.2))
    ++ m.wildcard.toList.map (fun a => (.wildcard, a))

/-- A line of an outline. -/
structure OutlineRow where
  depth : Nat
  slot : Slot
  node : SchemaNode

namespace Schema

/-- What hangs directly from a node: its values, then its keys. -/
def slotsOf (s : Schema) (n : SchemaNode) : List (Slot × SchemaNode) :=
  n.entries.zipIdx.map (fun e => (.entry e.2, e.1))
    ++ match s.childrenOf? n with
      | some mapping => mapping.slots
      | none => []

/-- A node with what hangs from it, `levels` levels down. -/
def outlineNode (s : Schema) : Nat → Nat → Slot × SchemaNode → List OutlineRow
  | 0, depth, (slot, node) => [⟨depth, slot, node⟩]
  | levels + 1, depth, (slot, node) =>
    ⟨depth, slot, node⟩ :: (s.slotsOf node).flatMap (s.outlineNode levels (depth + 1))

/-- The first `levels` levels of a schema, at least one, each node before what hangs from it. -/
def outline (s : Schema) (levels : Nat) : List OutlineRow :=
  s.root.slots.flatMap (s.outlineNode (levels - 1) 0)

end Schema

end SkillScript
