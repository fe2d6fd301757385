import SkillScript.Schema.Locate

/-!
# Walks along a path

`Schema.locateFrom?` carries a mapping, a depth and a flag from key to key. What it finds is said
here without the loop: a path has a walk (`Schema.Walk`), which passes through some nodes and ends
at one, and the depth is the number of nodes passed before the first that closes it (`levels`).

* `locate?_eq_some_iff`: a node is located where the walk ends, at the depth of its levels.
* `Walk.append`, `Walk.exists_of_append`: the walk of two paths is the walk of the first, unless it
  ends at a leaf container, and then the walk of the second from the children of its end.
-/

namespace SkillScript

/-- The number of nodes before the first that closes the depth. -/
def levels (nodes : List SchemaNode) : Nat := (nodes.takeWhile fun n => !n.closesDepth).length

theorem levels_cons (n : SchemaNode) (nodes : List SchemaNode) :
    levels (n :: nodes) = if n.closesDepth then 0 else levels nodes + 1 := by
  cases h : n.closesDepth <;> simp [levels, h]

/-- A node that closes the depth ends the count, and else the count goes on behind it. -/
theorem levels_append (above : List SchemaNode) (n : SchemaNode) (below : List SchemaNode) :
    levels (above ++ n :: below) =
      if (above ++ [n]).any SchemaNode.closesDepth then levels above
      else levels above + 1 + levels below := by
  induction above with
  | nil =>
    rw [List.nil_append, levels_cons]
    cases h : n.closesDepth <;> simp [levels, h, Nat.add_comm]
  | cons a above ih =>
    rw [List.cons_append, levels_cons, levels_cons, ih]
    cases h : a.closesDepth with
    | true => simp [h]
    | false =>
      simp only [List.cons_append, List.any_cons, h, Bool.false_or, Bool.false_eq_true, ↓reduceIte]
      split <;> omega

namespace Schema

variable {s : Schema} {datasets : Datasets}

/-- The walk of a path from a mapping passes through `passed` and ends at the last node: the node
of the path's last key, or before it a leaf container. -/
inductive Walk (s : Schema) (datasets : Datasets) :
    Mapping SchemaNode → List String → List SchemaNode → SchemaNode → Prop where
  | last {mapping : Mapping SchemaNode} {name : String} {path : List String} {node : SchemaNode}
      (hnode : mapping.get? datasets name = some node)
      (hend : path = [] ∨ node.isLeafContainer = true) :
      Walk s datasets mapping (name :: path) [] node
  | next {mapping children : Mapping SchemaNode} {name : String} {path : List String}
      {node last : SchemaNode} {passed : List SchemaNode}
      (hnode : mapping.get? datasets name = some node) (hpath : path ≠ [])
      (hinner : node.isLeafContainer = false) (hchildren : s.childrenOf? node = some children)
      (hrest : Walk s datasets children path passed last) :
      Walk s datasets mapping (name :: path) (node :: passed) last

/-! ## The walk and the search -/

/-- The search finds the end of the walk, at the depth it started with and that of the nodes passed
through. When the depth is closed at the start, it stays. -/
theorem locateFrom?_of_walk {mapping : Mapping SchemaNode} {path : List String}
    {passed : List SchemaNode} {node : SchemaNode} (h : Walk s datasets mapping path passed node)
    (depth : Nat) (closed : Bool) :
    s.locateFrom? datasets mapping depth closed path =
      some ⟨node, if closed then depth else depth + levels passed⟩ := by
  induction h generalizing depth closed with
  | last hnode hend =>
    rw [locateFrom?, hnode]
    rcases hend with rfl | hleaf
    · simp [levels]
    · simp [hleaf, levels]
  | @next mapping children name path node last passed hnode hpath hinner hchildren hrest ih =>
    have hgo : (path.isEmpty || node.isLeafContainer) = false := by simp [hpath, hinner]
    rw [locateFrom?, hnode]
    simp only [hgo, Bool.false_eq_true, ↓reduceIte, hchildren, ih, levels_cons]
    cases closed <;> cases node.closesDepth <;> simp [Nat.add_assoc, Nat.add_comm 1]

theorem exists_walk_of_locateFrom? {mapping : Mapping SchemaNode} {path : List String}
    {depth : Nat} {closed : Bool} {found : Located}
    (h : s.locateFrom? datasets mapping depth closed path = some found) :
    ∃ passed, Walk s datasets mapping path passed found.node := by
  induction path generalizing mapping depth closed with
  | nil => cases h
  | cons name path ih =>
    rw [locateFrom?] at h
    split at h
    · cases h
    · next node hnode =>
      split at h
      · next hend =>
        cases h
        exact ⟨[], .last hnode (by simpa using hend)⟩
      · next hgo =>
        obtain ⟨hpath, hinner⟩ : path ≠ [] ∧ node.isLeafContainer = false := by simpa using hgo
        split at h
        · cases h
        · next children hchildren =>
          obtain ⟨passed, hrest⟩ := ih h
          exact ⟨node :: passed, .next hnode hpath hinner hchildren hrest⟩

/-- A node is located where the walk of the path ends, at a depth that counts the nodes passed
through up to the first that closes it. -/
theorem locateFrom?_eq_some_iff {mapping : Mapping SchemaNode} {path : List String}
    {found : Located} :
    s.locateFrom? datasets mapping 0 false path = some found ↔
      ∃ passed, Walk s datasets mapping path passed found.node ∧ found.depth = levels passed := by
  constructor
  · intro h
    obtain ⟨passed, hwalk⟩ := exists_walk_of_locateFrom? h
    refine ⟨passed, hwalk, ?_⟩
    rw [locateFrom?_of_walk hwalk, Option.some.injEq] at h
    rw [← h]
    simp
  · rintro ⟨passed, hwalk, hdepth⟩
    rw [locateFrom?_of_walk hwalk]
    simp [← hdepth]

/-! ## One path behind another -/

/-- A walk that ends at a leaf container ends there whatever follows. -/
theorem Walk.append_content {mapping : Mapping SchemaNode} {path : List String}
    {passed : List SchemaNode} {node : SchemaNode} (h : Walk s datasets mapping path passed node)
    (hleaf : node.isLeafContainer = true) (more : List String) :
    Walk s datasets mapping (path ++ more) passed node := by
  induction h with
  | last hnode => exact .last hnode (.inr hleaf)
  | next hnode hpath hinner hchildren _ ih =>
    exact .next hnode (List.append_ne_nil_of_left_ne_nil hpath more) hinner hchildren (ih hleaf)

/-- A walk goes on from the children of its end. -/
theorem Walk.append {mapping children : Mapping SchemaNode} {path more : List String}
    {passed below : List SchemaNode} {node last : SchemaNode}
    (h : Walk s datasets mapping path passed node) (hinner : node.isLeafContainer = false)
    (hchildren : s.childrenOf? node = some children)
    (hmore : Walk s datasets children more below last) :
    Walk s datasets mapping (path ++ more) (passed ++ node :: below) last := by
  induction h with
  | last hnode hend =>
    obtain rfl := hend.resolve_right (by simp [hinner])
    have hne : more ≠ [] := by
      rintro rfl
      cases hmore
    exact .next hnode hne hinner hchildren hmore
  | next hnode hpath hinner' hchildren' _ ih =>
    exact .next hnode (List.append_ne_nil_of_left_ne_nil hpath more) hinner' hchildren'
      (ih hinner hchildren)

/-- A walk of two paths goes through the end of the first, unless that is a leaf container. -/
theorem Walk.exists_of_append {mapping : Mapping SchemaNode} {path more : List String}
    {passed all : List SchemaNode} {node last : SchemaNode}
    (h : Walk s datasets mapping path passed node) (hinner : node.isLeafContainer = false)
    (hne : more ≠ []) (hall : Walk s datasets mapping (path ++ more) all last) :
    ∃ children below, s.childrenOf? node = some children ∧
      Walk s datasets children more below last := by
  induction h generalizing all with
  | last hnode hend =>
    obtain rfl := hend.resolve_right (by simp [hinner])
    cases hall with
    | last hnode' hend' =>
      cases hnode.symm.trans hnode'
      exact absurd hend' (by simp [hne, hinner])
    | next hnode' _ _ hchildren hrest =>
      cases hnode.symm.trans hnode'
      exact ⟨_, _, hchildren, hrest⟩
  | next hnode hpath hinner' hchildren _ ih =>
    cases hall with
    | last hnode' hend' =>
      cases hnode.symm.trans hnode'
      exact absurd hend' (by simp [hpath, hinner'])
    | next hnode' _ _ hchildren' hrest =>
      cases hnode.symm.trans hnode'
      cases hchildren.symm.trans hchildren'
      exact ih hinner hrest

/-! ## Locating along two paths -/

/-- The root has no part in a search that starts from another mapping. -/
theorem locateFrom?_withRoot (s : Schema) (datasets : Datasets) (root mapping : Mapping SchemaNode)
    (depth : Nat) (closed : Bool) (path : List String) :
    ({ s with root } : Schema).locateFrom? datasets mapping depth closed path =
      s.locateFrom? datasets mapping depth closed path := by
  have hchildren : ({ s with root } : Schema).childrenOf? = s.childrenOf? := rfl
  induction path generalizing mapping depth closed with
  | nil => rfl
  | cons name path ih => simp only [locateFrom?, hchildren, ih]

theorem locate?_withRoot (s : Schema) (datasets : Datasets) (root : Mapping SchemaNode)
    (path : List String) :
    ({ s with root } : Schema).locate? datasets path =
      s.locateFrom? datasets root 0 false path :=
  locateFrom?_withRoot s datasets root root 0 false path

theorem locate?_eq_some_iff {path : List String} {found : Located} :
    s.locate? datasets path = some found ↔
      ∃ passed, Walk s datasets s.root path passed found.node ∧ found.depth = levels passed :=
  locateFrom?_eq_some_iff

theorem locate?_append_content {path : List String} {found : Located}
    (h : s.locate? datasets path = some found) (hleaf : found.node.isLeafContainer = true)
    (more : List String) : s.locate? datasets (path ++ more) = some found := by
  obtain ⟨passed, hwalk, hdepth⟩ := locate?_eq_some_iff.mp h
  exact locate?_eq_some_iff.mpr ⟨passed, hwalk.append_content hleaf more, hdepth⟩

theorem locate?_append_eq_none {path more : List String} {found : Located}
    (h : s.locate? datasets path = some found) (hinner : found.node.isLeafContainer = false)
    (hchildren : s.childrenOf? found.node = none) (hne : more ≠ []) :
    s.locate? datasets (path ++ more) = none := by
  obtain ⟨passed, hwalk, -⟩ := locate?_eq_some_iff.mp h
  rw [Option.eq_none_iff_forall_ne_some]
  intro whole hwhole
  obtain ⟨all, hall, -⟩ := locate?_eq_some_iff.mp hwhole
  obtain ⟨children, -, hchildren', -⟩ := hwalk.exists_of_append hinner hne hall
  rw [hchildren] at hchildren'
  cases hchildren'

/-- Behind a path that leads to a node with children, more keys lead to what they lead to from the
children. The depth goes on from that of the node, unless it is closed there or above. -/
theorem Walk.locate?_append {path more : List String} {passed : List SchemaNode}
    {node : SchemaNode} {children : Mapping SchemaNode}
    (h : Walk s datasets s.root path passed node) (hinner : node.isLeafContainer = false)
    (hchildren : s.childrenOf? node = some children) (hne : more ≠ []) :
    s.locate? datasets (path ++ more) =
      (({ s with root := children } : Schema).locate? datasets more).map fun below =>
        ⟨below.node, if (passed ++ [node]).any SchemaNode.closesDepth then levels passed
          else levels passed + 1 + below.depth⟩ := by
  rw [locate?_withRoot s datasets children more]
  cases hbelow : s.locateFrom? datasets children 0 false more with
  | none =>
    rw [Option.map_none, Option.eq_none_iff_forall_ne_some]
    intro whole hwhole
    obtain ⟨all, hall, -⟩ := locate?_eq_some_iff.mp hwhole
    obtain ⟨children', below, hchildren', hmore⟩ := h.exists_of_append hinner hne hall
    cases hchildren.symm.trans hchildren'
    rw [locateFrom?_of_walk hmore] at hbelow
    cases hbelow
  | some found =>
    obtain ⟨below, hmore, hdepth⟩ := locateFrom?_eq_some_iff.mp hbelow
    rw [Option.map_some, hdepth, ← levels_append]
    exact locate?_eq_some_iff.mpr ⟨_, h.append hinner hchildren hmore, rfl⟩

theorem map_locate?_append {path more : List String} {found : Located}
    {children : Mapping SchemaNode} (h : s.locate? datasets path = some found)
    (hinner : found.node.isLeafContainer = false)
    (hchildren : s.childrenOf? found.node = some children) (hne : more ≠ []) :
    (s.locate? datasets (path ++ more)).map Located.node =
      (({ s with root := children } : Schema).locate? datasets more).map Located.node := by
  obtain ⟨passed, hwalk, -⟩ := locate?_eq_some_iff.mp h
  rw [hwalk.locate?_append hinner hchildren hne, Option.map_map]
  rfl

/-- Locating along two paths goes by parts. A node is located where the walk of the path ends, at a
depth that counts the nodes passed through before the first that closes it. If the first path ends
at a leaf container, it takes the second as content. If it ends at a node without children, nothing
is located, and else what the second path leads to from the children, at a depth that goes on
from that of the node unless the node or one above it closes it. -/
theorem locate?_by_parts (s : Schema) (datasets : Datasets) (path more : List String)
    (hne : more ≠ []) :
    (∀ path found, s.locate? datasets path = some found ↔
      ∃ passed, Walk s datasets s.root path passed found.node ∧
        found.depth = (passed.takeWhile fun n => !n.closesDepth).length) ∧
    ∀ found, s.locate? datasets path = some found →
      (found.node.isLeafContainer = true → s.locate? datasets (path ++ more) = some found) ∧
      (found.node.isLeafContainer = false →
        (s.childrenOf? found.node = none → s.locate? datasets (path ++ more) = none) ∧
        ∀ children passed, s.childrenOf? found.node = some children →
          Walk s datasets s.root path passed found.node →
          s.locate? datasets (path ++ more) =
            (({ s with root := children } : Schema).locate? datasets more).map fun below =>
              ⟨below.node, if (passed ++ [found.node]).any SchemaNode.closesDepth then found.depth
                else found.depth + 1 + below.depth⟩) := by
  refine ⟨fun path found => locate?_eq_some_iff, fun found h => ⟨fun hleaf => ?_, fun hinner =>
    ⟨fun hchildren => ?_, fun children passed hchildren hwalk => ?_⟩⟩⟩
  · exact locate?_append_content h hleaf more
  · exact locate?_append_eq_none h hinner hchildren hne
  · -- The walk decides the depth that the first path was located at.
    have hdepth : found.depth = levels passed := by
      rw [locate?, locateFrom?_of_walk hwalk, Option.some.injEq] at h
      rw [← h]
      simp
    rw [hdepth]
    exact hwalk.locate?_append hinner hchildren hne

/-- A schema that contains itself beneath a node that closes the depth, with the paths divided above
that node and behind it. -/
theorem locate?_by_parts_nested :
    let name := SchemaNode.ofKind .string
    let nested :=
      { SchemaNode.ofKind .key with children := .deferred "Block", closesDepth := true }
    let block : Mapping SchemaNode := ⟨[("Name", name), ("Nested", nested)], none, none⟩
    let entry := { SchemaNode.ofKind .key with children := .deferred "Block" }
    let s : Schema := ⟨⟨[], none, some entry⟩, [("Block", block)]⟩
    let path := ["Nested", "Name"]
    path ≠ [] ∧ s.locate? [] ["M"] = some ⟨entry, 0⟩ ∧
      s.locate? [] ["M", "Nested"] = some ⟨nested, 1⟩ ∧
      ({ s with root := block } : Schema).locate? [] path = some ⟨name, 0⟩ ∧
      s.locate? [] (["M"] ++ path) = some ⟨name, 0 + 1 + 0⟩ ∧
      s.locate? [] (["M", "Nested"] ++ path) = some ⟨name, 1⟩ := by
  intro name nested block entry s path
  have hne : path ≠ [] := by decide
  have hnames : sameAscii "Name" "Nested" = false := by decide +kernel
  have hnested : block.get? [] "Nested" = some nested := by
    simp [block, Mapping.get?, Mapping.literal?, hnames]
  have hname : block.get? [] "Name" = some name := by simp [block, Mapping.get?, Mapping.literal?]
  have hchildren : s.childrenOf? entry = some block := rfl
  have hwalk : Walk s [] s.root ["M"] [] entry := .last rfl (.inl rfl)
  have hwalk' : Walk s [] s.root ["M", "Nested"] [entry] nested :=
    .next rfl (by decide) rfl hchildren (.last hnested (.inl rfl))
  have hbelow : ({ s with root := block } : Schema).locate? [] path = some ⟨name, 0⟩ :=
    locate?_eq_some_iff.mpr
      ⟨[nested], .next hnested (by decide) rfl hchildren (.last hname (.inl rfl)), rfl⟩
  obtain ⟨hlocated, houter⟩ := locate?_by_parts s [] ["M"] path hne
  obtain ⟨-, hinner⟩ := locate?_by_parts s [] ["M", "Nested"] path hne
  have hM : s.locate? [] ["M"] = some ⟨entry, 0⟩ := (hlocated _ _).mpr ⟨[], hwalk, rfl⟩
  have hN : s.locate? [] ["M", "Nested"] = some ⟨nested, 1⟩ :=
    (hlocated _ _).mpr ⟨[entry], hwalk', rfl⟩
  refine ⟨hne, hM, hN, hbelow, ?_, ?_⟩
  · rw [((houter _ hM).2 rfl).2 block [] hchildren hwalk, hbelow]
    rfl
  · rw [((hinner _ hN).2 rfl).2 block [entry] hchildren hwalk', hbelow]
    rfl

end Schema

end SkillScript
