import Mathlib.Data.Set.Card
import SkillScript.Placeholder.Indexed
import SkillScript.Proofs.Placeholder.PathSets

/-!
# Positions in step with children

The positions of an indexed trie and its children are written separately, and every edit finds its
way by the positions alone.

* `Node.Distinct`: siblings have different keys, at every depth. Then a path leads to one node, and
  the size of the trie is the number of its paths (`Node.Distinct.size_eq_ncard`).
* `IndexedNode.InStep`: a node has one position for each child, and it is where the child stands.
  `IndexedNode.Sound` says so of every node, and gives siblings different keys.
* `IndexedNode.Simulates f g`: the edit `f` keeps a sound trie sound, and does to it what `g` does
  to the trie it stands for. Placing, inserting and merging do (`Simulates.alter`,
  `simulates_merge`), so the laws of path sets carry over.
* `IndexedNode.Built`: what edits can make of the empty trie. Such a trie is sound, and every
  further edit adds to its paths and ends what is inserted, merged or grafted, and no more
  (`IndexedNode.Built.sound_and_gains`).
-/

namespace SkillScript

namespace Node

/-! ## Tries whose siblings differ -/

/-- The children of every node have different keys. -/
inductive Distinct : Node → Prop
  | intro {n : Node} (keys : (n.children.map key).Nodup)
      (children : ∀ c ∈ n.children, Distinct c) : Distinct n

theorem Distinct.keys {n : Node} (h : n.Distinct) : (n.children.map key).Nodup := by
  cases h; assumption

theorem Distinct.child {n c : Node} (h : n.Distinct) (hc : c ∈ n.children) : c.Distinct := by
  cases h with
  | intro _ children => exact children c hc

section Siblings

variable {cs : List Node} {c : Node} {k : String}

theorem place_eq_modify (hcs : (cs.map key).Nodup) {i : Nat} (hi : cs[i]? = some c)
    (hc : c.key = k) (f : Node → Node) (new : Node) : place k f new cs = cs.modify i f := by
  induction cs generalizing i with
  | nil => simp at hi
  | cons d cs ih =>
    rw [List.map_cons, List.nodup_cons] at hcs
    cases i with
    | zero =>
      obtain rfl : d = c := by simpa using hi
      rw [place, if_pos hc, List.modify_zero_cons]
    | succ i =>
      have hi : cs[i]? = some c := by simpa using hi
      have hd : d.key ≠ k := by
        intro hd
        rw [hd, ← hc] at hcs
        exact hcs.1 (List.mem_map_of_mem (List.mem_of_getElem? hi))
      rw [place, if_neg hd, ih hcs.2 hi, List.modify_succ_cons]

theorem place_eq_append (hk : k ∉ cs.map key) (f : Node → Node) (new : Node) :
    place k f new cs = cs ++ [new] := by
  induction cs with
  | nil => rfl
  | cons d cs ih =>
    rw [List.map_cons, List.mem_cons, not_or] at hk
    rw [place, if_neg (Ne.symm hk.1), ih hk.2, List.cons_append]

end Siblings

/-- No sibling has the key of another, so the first one with a key is the only one. -/
theorem Distinct.child?_key {n c : Node} (h : n.Distinct) (hc : c ∈ n.children) :
    n.child? c.key = some c := by
  have hsome : (n.child? c.key).isSome := List.find?_isSome.mpr ⟨c, hc, beq_self_eq_true _⟩
  obtain ⟨d, hd⟩ := Option.isSome_iff_exists.mp hsome
  have hkey : d.key = c.key := by simpa using List.find?_some hd
  rw [hd, List.inj_on_of_nodup_map h.keys (List.mem_of_find?_eq_some hd) hc hkey]

/-- A path of segments leads to a node when its keys are the path of a node. -/
theorem Distinct.isSome_descend?_iff {n : Node} (h : n.Distinct) (path : List Segment) :
    (n.descend? path).isSome ↔ path.map Segment.key ∈ n.paths := by
  induction path generalizing n with
  | nil => exact iff_of_true rfl nil_mem_paths
  | cons s path ih =>
    rw [descend?, List.map_cons]
    constructor
    · intro hpath
      obtain ⟨m, hm⟩ := Option.isSome_iff_exists.mp hpath
      obtain ⟨c, hc, hm⟩ := Option.bind_eq_some_iff.mp hm
      have hmem := List.mem_of_find?_eq_some hc
      have hkey : c.key = s.key := by simpa using List.find?_some hc
      refine cons_mem_pathsTo.mpr ⟨c, hmem, hkey, (ih (h.child hmem)).mp ?_⟩
      rw [hm]; rfl
    · intro hpath
      obtain ⟨c, hmem, hkey, hr⟩ := cons_mem_pathsTo.mp hpath
      rw [← hkey, h.child?_key hmem, Option.bind_some]
      exact (ih (h.child hmem)).mpr hr

/-! ## Counting paths -/

mutual

/-- The key paths of all nodes, each before those of its children. -/
def pathList : Node → List (List String)
  | ⟨_, children, _, _⟩ => [] :: pathListAll children

/-- The key paths through several siblings. -/
def pathListAll : List Node → List (List String)
  | [] => []
  | c :: cs => (pathList c).map (c.key :: ·) ++ pathListAll cs

end

mutual

theorem length_pathList : ∀ n : Node, n.pathList.length = n.size
  | ⟨_, children, _, _⟩ => by
    rw [pathList, size, List.length_cons, length_pathListAll children, Nat.add_comm]

theorem length_pathListAll : ∀ cs : List Node, (pathListAll cs).length = sizeAll cs
  | [] => rfl
  | c :: cs => by
    rw [pathListAll, sizeAll, List.length_append, List.length_map, length_pathList c,
      length_pathListAll cs]

end

theorem mem_pathListAll {cs : List Node} {q : List String} :
    q ∈ pathListAll cs ↔ ∃ c ∈ cs, ∃ r ∈ c.pathList, q = c.key :: r := by
  induction cs with
  | nil => simp [pathListAll]
  | cons c cs ih => simp [pathListAll, ih, eq_comm]

theorem mem_pathList {n : Node} {q : List String} : q ∈ n.pathList ↔ q ∈ n.paths := by
  induction q generalizing n with
  | nil => cases n; simp [pathList, nil_mem_paths]
  | cons k q ih =>
    have hlist : k :: q ∈ n.pathList ↔ k :: q ∈ pathListAll n.children := by
      cases n; simp [pathList]
    rw [hlist, mem_pathListAll, paths, cons_mem_pathsTo]
    constructor
    · rintro ⟨c, hc, r, hr, heq⟩
      obtain ⟨rfl, rfl⟩ := List.cons.inj heq
      exact ⟨c, hc, rfl, ih.mp hr⟩
    · rintro ⟨c, hc, rfl, hq⟩
      exact ⟨c, hc, q, ih.mpr hq, rfl⟩

theorem nodup_pathListAll {cs : List Node} (hkeys : (cs.map key).Nodup)
    (hlists : ∀ c ∈ cs, c.pathList.Nodup) : (pathListAll cs).Nodup := by
  induction cs with
  | nil => exact List.nodup_nil
  | cons c cs ih =>
    rw [List.map_cons, List.nodup_cons] at hkeys
    rw [pathListAll, List.nodup_append']
    refine ⟨(hlists c List.mem_cons_self).map fun _ _ => List.tail_eq_of_cons_eq,
      ih hkeys.2 fun d hd => hlists d (List.mem_cons_of_mem c hd), ?_⟩
    -- Paths through different siblings differ in their first key.
    intro q hq hq'
    obtain ⟨r, -, rfl⟩ := List.mem_map.mp hq
    obtain ⟨d, hd, r', -, heq⟩ := mem_pathListAll.mp hq'
    exact hkeys.1 (List.mem_map.mpr ⟨d, hd, (List.cons.inj heq).1.symm⟩)

theorem Distinct.nodup_pathList {n : Node} (h : n.Distinct) : n.pathList.Nodup := by
  induction h with
  | @intro n keys _ ih =>
    obtain ⟨_, children, _, _⟩ := n
    rw [pathList, List.nodup_cons]
    refine ⟨?_, nodup_pathListAll keys ih⟩
    intro hnil
    obtain ⟨c, -, r, -, heq⟩ := mem_pathListAll.mp hnil
    cases heq

/-- No two nodes have the same path, so there are as many paths as nodes. -/
theorem Distinct.size_eq_ncard {n : Node} (h : n.Distinct) : n.size = n.paths.ncard := by
  have hpaths : n.paths = ↑n.pathList.toFinset := by
    ext q
    simp [mem_pathList]
  rw [hpaths, Set.ncard_coe_finset, List.toFinset_card_of_nodup h.nodup_pathList, length_pathList]

/-! ## Merging whole tries -/

/-- A merge adds the paths of the other trie. Its root is a path that every trie has. -/
theorem adds_merge_paths (source : Node) : Adds (fun _ => True) (·.merge source) source.paths := by
  have h := adds_merge additive_any source
  refine ⟨h.key, fun n keys => ?_⟩
  rw [h.mem]
  cases keys with
  | nil => exact iff_of_true (.inl nil_mem_paths) (.inl nil_mem_paths)
  | cons k keys => exact or_congr_right (and_iff_left (List.cons_ne_nil k keys))

/-- A merge adds the ends of the other trie, unless its root is one. -/
theorem adds_merge_ends {source : Node} (hroot : [] ∉ source.ends) :
    Adds (· = true) (·.merge source) source.ends := by
  have h := adds_merge additive_end source
  refine ⟨h.key, fun n keys => ?_⟩
  rw [h.mem]
  refine or_congr_right ⟨fun hk => hk.1, fun hk => ⟨hk, ?_⟩⟩
  rintro rfl
  exact hroot hk

end Node

namespace IndexedNode

/-! ## The invariant -/

/-- The node has one position for each child, and it is where the child stands. -/
structure InStep (n : IndexedNode) : Prop where
  entries : (n.positions.map Prod.fst).Perm (n.children.map key)
  lookup : ∀ {i c}, n.children[i]? = some c → n.positions.lookup c.key = some i

/-- Every node is in step. -/
inductive Sound : IndexedNode → Prop
  | intro {n : IndexedNode} (inStep : n.InStep) (children : ∀ c ∈ n.children, Sound c) : Sound n

theorem Sound.inStep {n : IndexedNode} (h : n.Sound) : n.InStep := by
  cases h; assumption

theorem Sound.child {n c : IndexedNode} (h : n.Sound) (hc : c ∈ n.children) : c.Sound := by
  cases h with
  | intro _ children => exact children c hc

theorem sound_leaf (s : Segment) : (leaf s).Sound := by
  refine .intro ⟨List.Perm.refl _, ?_⟩ ?_
  · intro i c hc
    simp [leaf] at hc
  · simp [leaf]

section Positions

variable {n : IndexedNode} {k : String}

theorem InStep.nodup (h : n.InStep) : (n.children.map key).Nodup := by
  rw [List.nodup_iff_getElem?_ne_getElem?]
  intro i j hij hj heq
  rw [List.length_map] at hj
  have hi : i < n.children.length := hij.trans hj
  have hkey : (n.children[i]).key = (n.children[j]).key := by simpa [hi, hj] using heq
  have hpos := h.lookup (List.getElem?_eq_getElem hi)
  rw [hkey, h.lookup (List.getElem?_eq_getElem hj)] at hpos
  exact hij.ne (Option.some.inj hpos).symm

theorem InStep.lookup_eq_none_iff (h : n.InStep) :
    n.positions.lookup k = none ↔ k ∉ n.children.map key := by
  rw [List.lookup_eq_none_iff, ← h.entries.mem_iff]
  constructor
  · intro hk hmem
    obtain ⟨e, he, rfl⟩ := List.mem_map.mp hmem
    simpa using hk e he
  · intro hk e he
    have hne : k ≠ e.1 := fun heq => hk (heq ▸ List.mem_map_of_mem he)
    simpa using hne

theorem InStep.exists_of_lookup (h : n.InStep) {i : Nat} (hi : n.positions.lookup k = some i) :
    ∃ c, n.children[i]? = some c ∧ c.key = k := by
  have hk : k ∈ n.children.map key := by
    by_contra hk
    rw [h.lookup_eq_none_iff.mpr hk] at hi
    cases hi
  obtain ⟨c, hc, rfl⟩ := List.mem_map.mp hk
  obtain ⟨j, hj⟩ := List.mem_iff_getElem?.mp hc
  obtain rfl : j = i := Option.some.inj ((h.lookup hj).symm.trans hi)
  exact ⟨c, hj, rfl⟩

end Positions

theorem map_key_children_toNode (n : IndexedNode) :
    n.toNode.children.map Node.key = n.children.map key := by
  simp [Function.comp_def]

/-- Where every node is in step, siblings have different keys. -/
theorem Sound.distinct {n : IndexedNode} (h : n.Sound) : n.toNode.Distinct := by
  induction h with
  | @intro n inStep _ ih =>
    refine .intro ?_ ?_
    · rw [map_key_children_toNode]
      exact inStep.nodup
    · intro c hc
      rw [children_toNode] at hc
      obtain ⟨d, hd, rfl⟩ := List.mem_map.mp hc
      exact ih d hd

/-! ## Placing -/

section Place

variable {n new c : IndexedNode} {k : String} {f : IndexedNode → IndexedNode}

@[simp] theorem key_place : (n.place k f new).key = n.key := by
  rw [place]; split <;> rfl

theorem mem_children_place (hc : c ∈ (n.place k f new).children) :
    c ∈ n.children ∨ (∃ d ∈ n.children, c = f d) ∨ c = new := by
  rw [place] at hc
  split at hc
  · obtain ⟨j, hj⟩ := List.mem_iff_getElem?.mp hc
    rw [List.getElem?_modify] at hj
    obtain ⟨d, hd, rfl⟩ := Option.map_eq_some_iff.mp hj
    have hmem := List.mem_of_getElem? hd
    split
    · exact .inr (.inl ⟨d, hmem, rfl⟩)
    · exact .inl hmem
  · rcases List.mem_append.mp hc with hc | hc
    · exact .inl hc
    · exact .inr (.inr (List.mem_singleton.mp hc))

/-- A child that is found keeps its key and its place, and one that is added stands last, where its
position says. -/
theorem InStep.place (h : n.InStep) (hf : ∀ c, (f c).key = c.key) (hnew : new.key = k) :
    (n.place k f new).InStep := by
  rw [IndexedNode.place]
  cases hk : n.positions.lookup k with
  | some i =>
    have hkey : ∀ j : Nat, (n.children.modify i f)[j]?.map key = n.children[j]?.map key := by
      intro j
      rw [List.getElem?_modify]
      cases n.children[j]? with
      | none => rfl
      | some c => by_cases hij : i = j <;> simp [hij, hf]
    constructor
    · have hkeys : (n.children.modify i f).map key = n.children.map key :=
        List.ext_getElem? fun j => by rw [List.getElem?_map, List.getElem?_map, hkey]
      simpa only [hkeys] using h.entries
    · intro j c hc
      have hj := hkey j
      rw [hc] at hj
      obtain ⟨d, hd, hcd⟩ := Option.map_eq_some_iff.mp hj.symm
      rw [← hcd]
      exact h.lookup hd
  | none =>
    have hmem := h.lookup_eq_none_iff.mp hk
    constructor
    · simpa [hnew] using (h.entries.cons k).trans (List.perm_append_singleton k _).symm
    · intro j c hc
      rcases Nat.lt_or_ge j n.children.length with hj | hj
      · rw [List.getElem?_append_left hj] at hc
        have hne : c.key ≠ k := by
          rintro rfl
          exact hmem (List.mem_map_of_mem (List.mem_of_getElem? hc))
        simpa [List.lookup_cons, beq_eq_false_iff_ne.mpr hne] using h.lookup hc
      · rw [List.getElem?_append_right hj, List.getElem?_singleton] at hc
        have hlast : j - n.children.length = 0 ∧ new = c := by simpa using hc
        obtain rfl : j = n.children.length := by omega
        rw [← hlast.2, hnew, List.lookup_cons_self]

theorem Sound.place (h : n.Sound) (hkey : ∀ c, (f c).key = c.key)
    (hf : ∀ c, c.Sound → (f c).Sound) (hnewKey : new.key = k) (hnew : new.Sound) :
    (n.place k f new).Sound := by
  refine .intro (h.inStep.place hkey hnewKey) ?_
  intro c hc
  rcases mem_children_place hc with hc | ⟨d, hd, rfl⟩ | rfl
  · exact h.child hc
  · exact hf d (h.child hd)
  · exact hnew

/-- The positions lead to the child that a search among the siblings finds. -/
theorem toNode_place {g : Node → Node} (h : n.InStep)
    (hf : ∀ c ∈ n.children, (f c).toNode = g c.toNode) :
    (n.place k f new).toNode =
      { n.toNode with children := Node.place k g new.toNode n.toNode.children } := by
  have hkeys := map_key_children_toNode n
  rw [place]
  cases hk : n.positions.lookup k with
  | some i =>
    obtain ⟨c, hi, hc⟩ := h.exists_of_lookup hk
    have hi' : n.toNode.children[i]? = some c.toNode := by simp [hi]
    rw [Node.place_eq_modify (hkeys ▸ h.nodup) hi' (by rwa [key_toNode])]
    have hmodify : (n.children.modify i f).map toNode = (n.children.map toNode).modify i g := by
      refine List.ext_getElem? fun j => ?_
      rw [List.getElem?_map, List.getElem?_modify, List.getElem?_modify, List.getElem?_map]
      cases hj : n.children[j]? with
      | none => rfl
      | some d => by_cases hij : i = j <;> simp [hij, hf d (List.mem_of_getElem? hj)]
    obtain ⟨_, children, _, _, _⟩ := n
    simpa [toNode] using hmodify
  | none =>
    rw [Node.place_eq_append (hkeys ▸ h.lookup_eq_none_iff.mp hk)]
    obtain ⟨_, children, _, _, _⟩ := n
    simp [toNode]

end Place

/-! ## Edits that keep the invariant -/

/-- `f` keeps the key of a node and the soundness of a trie, and does to a sound trie what `g` does
to the trie it stands for. -/
structure Simulates (f : IndexedNode → IndexedNode) (g : Node → Node) : Prop where
  key : ∀ n, (f n).key = n.key
  sound : ∀ n, n.Sound → (f n).Sound
  toNode : ∀ n, n.Sound → (f n).toNode = g n.toNode

theorem Sound.of_eq {n m : IndexedNode} (h : n.Sound) (hchildren : m.children = n.children)
    (hpositions : m.positions = n.positions) : m.Sound := by
  refine .intro ⟨?_, ?_⟩ ?_
  · rw [hchildren, hpositions]
    exact h.inStep.entries
  · rw [hchildren, hpositions]
    exact h.inStep.lookup
  · rw [hchildren]
    exact fun c hc => h.child hc

theorem toNode_withMarks (n : IndexedNode) (isEnd : Bool) (description : Option String) :
    toNode { n with isEnd := isEnd, description := description } =
      { n.toNode with isEnd := isEnd, description := description } := by
  cases n; rfl

theorem simulates_describe (description : Option String) :
    Simulates (describe description) (Node.describe description) := by
  cases description with
  | none => exact ⟨fun _ => rfl, fun _ h => h, fun _ _ => rfl⟩
  | some text => exact ⟨fun _ => rfl, fun _ h => h.of_eq rfl rfl, fun n _ => by cases n; rfl⟩

theorem simulates_markEnd : Simulates markEnd Node.markEnd :=
  ⟨fun _ => rfl, fun _ h => h.of_eq rfl rfl, fun n _ => by cases n; rfl⟩

section Edits

variable {f f' : IndexedNode → IndexedNode} {g g' : Node → Node}

theorem Simulates.comp (h : Simulates f g) (h' : Simulates f' g') :
    Simulates (fun n => f' (f n)) (fun n => g' (g n)) where
  key n := by rw [h'.key, h.key]
  sound n hn := h'.sound _ (h.sound n hn)
  toNode n hn := by rw [h'.toNode _ (h.sound n hn), h.toNode n hn]

/-- Placing an edit, or a sound node in its stead, among the children of a node. -/
theorem Simulates.place (h : Simulates f g) {new : IndexedNode} (hnew : new.Sound) :
    Simulates (·.place new.key f new)
      (fun n => { n with children := Node.place new.key g new.toNode n.children }) where
  key _ := key_place
  sound _ hn := hn.place h.key h.sound rfl hnew
  toNode _ hn := toNode_place hn.inStep fun c hc => h.toNode c (hn.child hc)

theorem Simulates.alter (h : Simulates f g) (path : List Segment) :
    Simulates (alter f path) (Node.alter g path) := by
  induction path with
  | nil => exact h
  | cons s path ih =>
    have hplace := ih.place (ih.sound _ (sound_leaf s))
    rw [ih.key, ih.toNode _ (sound_leaf s)] at hplace
    exact hplace

theorem Simulates.insertWith (h : Simulates f g) (path : List Segment) :
    Simulates (insertWith f path) (Node.insertWith g path) := by
  cases path with
  | nil => exact h
  | cons s path => exact (simulates_markEnd.comp h).alter (s :: path)

theorem simulates_insert (path : List Segment) (description : Option String) :
    Simulates (insert path description) (Node.insert path description) :=
  (simulates_describe description).insertWith path

mutual

theorem simulates_absorb : ∀ m : IndexedNode, m.Sound → Simulates (absorb m) (Node.absorb m.toNode)
  | ⟨segment, children, positions, isEnd, description⟩, hm => by
    have hall := simulates_graftAll children fun c hc => hm.child hc
    refine ⟨fun n => ?_, fun n hn => ?_, fun n hn => ?_⟩
    · rw [absorb]
      exact hall.key n
    · rw [absorb]
      exact (hall.sound n hn).of_eq rfl rfl
    · rw [absorb, toNode_withMarks, hall.toNode n hn, toNode, Node.absorb, isEnd_toNode,
        description_toNode]

theorem simulates_graftAll : ∀ ms : List IndexedNode, (∀ m ∈ ms, m.Sound) →
    Simulates (graftAll ms)
      (fun n => { n with children := Node.graftAll (toNodes ms) n.children })
  | [], _ => by
    refine ⟨fun n => by rw [graftAll], fun n hn => by rwa [graftAll], fun n hn => ?_⟩
    rw [graftAll, toNodes, Node.graftAll]
    cases n.toNode; rfl
  | m :: rest, hms => by
    have hm : m.Sound := hms m List.mem_cons_self
    have hplace := (simulates_absorb m hm).place hm
    have hrest := simulates_graftAll rest fun c hc => hms c (List.mem_cons_of_mem m hc)
    simpa only [graftAll, toNodes, Node.graftAll, key_toNode] using hplace.comp hrest

end

theorem simulates_merge {b : IndexedNode} (hb : b.Sound) :
    Simulates (·.merge b) (·.merge b.toNode) := by
  have h := simulates_graftAll b.children fun c hc => hb.child hc
  rw [toNodes_eq_map, ← children_toNode] at h
  exact h

end Edits

/-! ## Descending by positions -/

theorem Sound.child?_toNode {n : IndexedNode} (h : n.Sound) (k : String) :
    n.toNode.child? k = (n.child? k).map toNode := by
  rw [child?]
  cases hk : n.positions.lookup k with
  | some i =>
    obtain ⟨c, hi, rfl⟩ := h.inStep.exists_of_lookup hk
    have hc : c.toNode ∈ n.toNode.children := by
      rw [children_toNode]
      exact List.mem_map_of_mem (List.mem_of_getElem? hi)
    rw [← key_toNode, h.distinct.child?_key hc, Option.bind_some, hi, Option.map_some]
  | none =>
    have hmem := h.inStep.lookup_eq_none_iff.mp hk
    rw [← map_key_children_toNode] at hmem
    refine List.find?_eq_none.mpr fun c hc hkey => hmem ?_
    rw [← beq_iff_eq.mp hkey]
    exact List.mem_map_of_mem hc

theorem Sound.descend?_toNode {n : IndexedNode} (h : n.Sound) (path : List Segment) :
    n.toNode.descend? path = (n.descend? path).map toNode := by
  induction path generalizing n with
  | nil => rfl
  | cons s path ih =>
    rw [Node.descend?, descend?, h.child?_toNode, child?]
    cases hk : n.positions.lookup s.key with
    | some i =>
      obtain ⟨c, hi, -⟩ := h.inStep.exists_of_lookup hk
      simp only [Option.bind_some, hi, Option.map_some]
      exact ih (h.child (List.mem_of_getElem? hi))
    | none => rfl

/-! ## Paths and ends under edits -/

/-- The key paths of all nodes. -/
def paths (n : IndexedNode) : Set (List String) := n.toNode.paths

/-- The key paths of the nodes at which a placeholder may end. -/
def ends (n : IndexedNode) : Set (List String) := n.toNode.ends

/-- `m` has the paths of `n` and those of `N`, and the ends of `n` and those of `E`. -/
structure Gains (n m : IndexedNode) (N E : Set (List String)) : Prop where
  paths : m.paths = n.paths ∪ N
  ends : m.ends = n.ends ∪ E

section Gains

variable {f : IndexedNode → IndexedNode} {g : Node → Node} {n m b : IndexedNode}
  {path : List Segment} {N E : Set (List String)}

theorem Simulates.gains (h : Simulates f g) (hN : Node.Adds (fun _ => True) g N)
    (hE : Node.Adds (· = true) g E) (hn : n.Sound) : Gains n (f n) N E := by
  constructor
  · rw [IndexedNode.paths, h.toNode n hn]
    exact Set.ext (hN.mem n.toNode)
  · rw [IndexedNode.ends, h.toNode n hn]
    exact Set.ext (hE.mem n.toNode)

theorem eq_alter_of_editAt? (hm : n.editAt? path f = some m) : m = alter f path n := by
  rw [editAt?] at hm
  split at hm
  · exact (Option.some.inj hm).symm
  · cases hm

theorem Simulates.sound_of_editAt? (h : Simulates f g) (hn : n.Sound)
    (hm : n.editAt? path f = some m) : m.Sound := by
  rw [eq_alter_of_editAt? hm]
  exact (h.alter path).sound n hn

theorem Sound.isSome_editAt?_iff (hn : n.Sound) :
    (n.editAt? path f).isSome ↔ path.map Segment.key ∈ n.paths := by
  rw [IndexedNode.paths, ← hn.distinct.isSome_descend?_iff, hn.descend?_toNode, Option.isSome_map,
    editAt?]
  split <;> simp_all

/-- An edit at a node that is there adds no nodes on the way to it. -/
theorem Simulates.gains_editAt? (h : Simulates f g) (hN : Node.Adds (fun _ => True) g N)
    (hE : Node.Adds (· = true) g E) (hn : n.Sound) (hm : n.editAt? path f = some m) :
    Gains n m (prefixed (path.map Segment.key) N) (prefixed (path.map Segment.key) E) := by
  have hpath : path.map Segment.key ∈ n.paths := by
    rw [← hn.isSome_editAt?_iff (f := f), hm]; rfl
  rw [eq_alter_of_editAt? hm]
  have hgains := (h.alter path).gains (hN.alter Node.additive_any path)
    (hE.alter Node.additive_end path) hn
  constructor
  · rw [hgains.paths]
    ext q
    constructor
    · rintro (hq | ⟨-, hq⟩ | hq)
      · exact .inl hq
      · exact .inl (Node.mem_paths_of_isPrefix hq hpath)
      · exact .inr hq
    · rintro (hq | hq)
      · exact .inl hq
      · exact .inr (.inr hq)
  · rw [hgains.ends]
    ext q
    simp [Node.along]

theorem Sound.gains_insert (hn : n.Sound) (path : List Segment) (description : Option String) :
    Gains n (n.insert path description) {q | q <+: path.map Segment.key}
      {q | q = path.map Segment.key ∧ q ≠ []} := by
  have hN := (Node.adds_describe description).insertWith Node.additive_any path
  have hE := (Node.adds_describe description).insertWith Node.additive_end path
  have hgains := (simulates_insert path description).gains hN hE hn
  constructor
  · rw [hgains.paths]
    congr 1
    ext q
    constructor
    · rintro (⟨-, rfl, -⟩ | ⟨-, hq⟩ | ⟨r, hr, -⟩)
      · exact List.prefix_refl _
      · exact hq
      · exact hr.elim
    · intro hq
      exact .inr (.inl ⟨trivial, hq⟩)
  · rw [hgains.ends]
    congr 1
    ext q
    simp [Node.inserted, Node.mem_along]

theorem Sound.gains_describeAt? (hn : n.Sound) {description : Option String}
    (hm : n.describeAt? path description = some m) : Gains n m ∅ ∅ := by
  have hgains := (simulates_describe description).gains_editAt? (Node.adds_describe description)
    (Node.adds_describe description) hn hm
  have hempty : prefixed (path.map Segment.key) ∅ = ∅ := by
    ext q
    simp [mem_prefixed]
  rwa [hempty] at hgains

/-- Grafting a trie whose root is no end. -/
theorem Sound.gains_graftAt? (hn : n.Sound) (hb : b.Sound) (hend : [] ∉ b.ends)
    (hm : n.graftAt? path b = some m) :
    Gains n m (prefixed (path.map Segment.key) b.paths)
      (prefixed (path.map Segment.key) b.ends) :=
  (simulates_merge hb).gains_editAt? (Node.adds_merge_paths b.toNode) (Node.adds_merge_ends hend)
    hn hm

/-- Merging a trie whose root is no end. -/
theorem Sound.gains_merge (hn : n.Sound) (hb : b.Sound) (hend : [] ∉ b.ends) :
    Gains n (n.merge b) b.paths b.ends :=
  (simulates_merge hb).gains (Node.adds_merge_paths b.toNode) (Node.adds_merge_ends hend) hn

theorem Sound.graftAt?_toNode (hn : n.Sound) (hb : b.Sound) (path : List Segment) :
    n.toNode.graftAt? path b.toNode = (n.graftAt? path b).map toNode := by
  rw [graftAt?, editAt?, Node.graftAt?, hn.descend?_toNode, Option.isSome_map]
  split
  · rw [Option.map_some, ((simulates_merge hb).alter path).toNode n hn]
  · rfl

theorem Gains.nil_notMem_ends (h : Gains n m N E) (hn : [] ∉ n.ends) (hE : [] ∉ E) :
    [] ∉ m.ends := by
  rw [h.ends]
  exact not_or.mpr ⟨hn, hE⟩

end Gains

/-! ## Tries that edits build -/

/-- The tries that edits make of the empty one. What is merged or grafted is built by edits too, and
may be the trie itself. -/
inductive Built : IndexedNode → Prop
  | root : Built root
  | insert {t : IndexedNode} (ht : Built t) (path : List Segment) (description : Option String) :
      Built (t.insert path description)
  | describe {t t' : IndexedNode} (ht : Built t) {path : List Segment}
      {description : Option String} (h : t.describeAt? path description = some t') : Built t'
  | merge {t b : IndexedNode} (ht : Built t) (hb : Built b) : Built (t.merge b)
  | graft {t t' b : IndexedNode} (ht : Built t) (hb : Built b) {path : List Segment}
      (h : t.graftAt? path b = some t') : Built t'

/-- Every edit keeps the trie sound, and the root no end, so that a merge never meets an end mark
that it would lose. -/
theorem Built.sound_and_notEnd {t : IndexedNode} (h : Built t) : t.Sound ∧ [] ∉ t.ends := by
  induction h with
  | root => exact ⟨sound_leaf _, Node.notMem_ends_leaf _ _⟩
  | @insert t _ path description ih =>
    refine ⟨(simulates_insert path description).sound t ih.1, ?_⟩
    exact (ih.1.gains_insert path description).nil_notMem_ends ih.2 fun hq => hq.2 rfl
  | @describe t t' _ path description h ih =>
    refine ⟨(simulates_describe description).sound_of_editAt? ih.1 h, ?_⟩
    exact (ih.1.gains_describeAt? h).nil_notMem_ends ih.2 (Set.notMem_empty _)
  | @merge t b _ _ ih ihb =>
    refine ⟨(simulates_merge ihb.1).sound t ih.1, ?_⟩
    exact (ih.1.gains_merge ihb.1 ihb.2).nil_notMem_ends ih.2 ihb.2
  | @graft t t' b _ _ path h ih ihb =>
    refine ⟨(simulates_merge ihb.1).sound_of_editAt? ih.1 h, ?_⟩
    refine (ih.1.gains_graftAt? ihb.1 ihb.2 h).nil_notMem_ends ih.2 ?_
    rintro ⟨r, hr, hnil⟩
    obtain ⟨-, rfl⟩ := List.nil_eq_append_iff.mp hnil
    exact ihb.2 hr

theorem Built.sound {t : IndexedNode} (h : Built t) : t.Sound := h.sound_and_notEnd.1

/-- In every trie that edits build, the positions of each node are in step with its children, which
have different keys, and there are as many nodes as paths. A further edit does what it does without
positions. An insertion adds the prefixes of its path, and the path as an end unless it is empty. A
description adds nothing. A merge adds the paths and ends of the other trie, and so does a graft,
behind the path that it is made beneath, when this path leads to a node. -/
theorem Built.sound_and_gains {t : IndexedNode} (ht : Built t) :
    t.Sound ∧ t.toNode.Distinct ∧ t.toNode.size = t.paths.ncard ∧
    (∀ path description,
      (t.insert path description).toNode = t.toNode.insert path description ∧
      Gains t (t.insert path description) {q | q <+: path.map Segment.key}
        {q | q = path.map Segment.key ∧ q ≠ []}) ∧
    (∀ path description,
      ((t.describeAt? path description).isSome ↔ path.map Segment.key ∈ t.paths) ∧
      ∀ t', t.describeAt? path description = some t' → Gains t t' ∅ ∅) ∧
    ∀ b, Built b →
      (t.merge b).toNode = t.toNode.merge b.toNode ∧
      Gains t (t.merge b) b.paths b.ends ∧
      ∀ path,
        (t.graftAt? path b).map toNode = t.toNode.graftAt? path b.toNode ∧
        ((t.graftAt? path b).isSome ↔ path.map Segment.key ∈ t.paths) ∧
        ∀ t', t.graftAt? path b = some t' →
          Gains t t' (prefixed (path.map Segment.key) b.paths)
            (prefixed (path.map Segment.key) b.ends) := by
  obtain ⟨hsound, -⟩ := ht.sound_and_notEnd
  refine ⟨hsound, hsound.distinct, hsound.distinct.size_eq_ncard, ?_, ?_, ?_⟩
  · intro path description
    exact ⟨(simulates_insert path description).toNode t hsound,
      hsound.gains_insert path description⟩
  · intro path description
    exact ⟨hsound.isSome_editAt?_iff, fun t' h => hsound.gains_describeAt? h⟩
  · intro b hb
    obtain ⟨hbsound, hbend⟩ := hb.sound_and_notEnd
    refine ⟨(simulates_merge hbsound).toNode t hsound, hsound.gains_merge hbsound hbend, ?_⟩
    intro path
    exact ⟨(hsound.graftAt?_toNode hbsound path).symm, hsound.isSome_editAt?_iff,
      fun t' h => hsound.gains_graftAt? hbsound hbend h⟩

/-- A trie of one path `a.b`, grafted beneath its own node `a`, has five nodes. -/
theorem Built.sound_and_gains_itself :
    let a := Segment.literal "a"
    let t := IndexedNode.root.insert [a, .literal "b"] none
    Built t ∧ ∃ t', t.graftAt? [a] t = some t' ∧
      Gains t t' (prefixed ["a"] t.paths) (prefixed ["a"] t.ends) ∧
      t'.Sound ∧ t'.paths.ncard = 5 := by
  intro a t
  have ht : Built t := Built.root.insert _ _
  have hsome : (t.graftAt? [a] t).isSome := by decide +kernel
  obtain ⟨t', h⟩ := Option.isSome_iff_exists.mp hsome
  obtain ⟨-, -, -, -, -, hmerge⟩ := ht.sound_and_gains
  have hgains := ((hmerge t ht).2.2 [a]).2.2 t' h
  obtain ⟨hsound, -, hsize, -⟩ := (ht.graft ht h).sound_and_gains
  have hkey : [a].map Segment.key = ["a"] := by decide +kernel
  have hfive : ((t.graftAt? [a] t).map fun u => u.toNode.size) = some 5 := by decide +kernel
  rw [h, Option.map_some, Option.some.injEq] at hfive
  exact ⟨ht, t', h, hkey ▸ hgains, hsound, hsize ▸ hfive⟩

end IndexedNode

end SkillScript
