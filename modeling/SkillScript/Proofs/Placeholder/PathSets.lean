import Mathlib.Data.Set.Basic
import SkillScript.Placeholder.Trie

/-!
# Tries as sets of key paths

A trie stands for two sets of key paths: those of all its nodes (`Node.paths`), and those of the
nodes at which a placeholder may end (`Node.ends`). Both are `Node.pathsTo p`, the paths to the
nodes whose end mark satisfies `p`, so each law is proved once for both.

* `Adds p f X`: the edit `f` adds the paths of `X` to every node and takes none away. Edits compose
  (`Adds.comp`, `Adds.foldl`).
* `Adds.alter`: an edit at the end of a path adds what it adds there behind the path, and the nodes
  on the way.
* `adds_absorb`, `adds_merge`: merging adds the paths of the other trie.
* `Live`: every node but the root leads to an end, so the nodes are the prefixes of the ends
  (`Live.paths_eq`).
-/

namespace SkillScript

/-- The paths of `X`, each behind `keys`. -/
def prefixed (keys : List String) (X : Set (List String)) : Set (List String) :=
  {q | ∃ r ∈ X, q = keys ++ r}

theorem mem_prefixed {q keys : List String} {X : Set (List String)} :
    q ∈ prefixed keys X ↔ ∃ r ∈ X, q = keys ++ r :=
  Iff.rfl

namespace Node

/-- Nodes with the given keys lead from the first node to the second. Every child counts, and not
only the first of its key. -/
inductive Reaches : Node → List String → Node → Prop
  | refl (n : Node) : Reaches n [] n
  | child {n c m : Node} {keys : List String} (hc : c ∈ n.children) (h : Reaches c keys m) :
      Reaches n (c.key :: keys) m

/-- The key paths to the nodes whose end mark satisfies `p`. -/
def pathsTo (p : Bool → Prop) (n : Node) : Set (List String) :=
  {keys | ∃ m, Reaches n keys m ∧ p m.isEnd}

/-- The key paths of all nodes. -/
def paths (n : Node) : Set (List String) := pathsTo (fun _ => True) n

/-- The key paths of the nodes at which a placeholder may end. -/
def ends (n : Node) : Set (List String) := pathsTo (· = true) n

section Paths

variable {p : Bool → Prop} {n : Node} {k : String} {keys : List String}

@[simp] theorem nil_mem_pathsTo : [] ∈ pathsTo p n ↔ p n.isEnd := by
  constructor
  · rintro ⟨m, hm, h⟩
    cases hm
    exact h
  · intro h
    exact ⟨n, .refl n, h⟩

@[simp] theorem cons_mem_pathsTo :
    k :: keys ∈ pathsTo p n ↔ ∃ c ∈ n.children, c.key = k ∧ keys ∈ pathsTo p c := by
  constructor
  · rintro ⟨m, hm, h⟩
    cases hm with
    | child hc hr => exact ⟨_, hc, rfl, m, hr, h⟩
  · rintro ⟨c, hc, rfl, m, hr, h⟩
    exact ⟨m, .child hc hr, h⟩

@[simp] theorem mem_pathsTo_leaf {s : Segment} :
    keys ∈ pathsTo p (leaf s) ↔ keys = [] ∧ p false := by
  cases keys <;> simp [leaf]

theorem notMem_ends_leaf (s : Segment) (keys : List String) : keys ∉ (leaf s).ends := by
  intro h
  cases (mem_pathsTo_leaf.mp h).2

theorem nil_mem_paths : [] ∈ n.paths := by simp [paths]

theorem mem_paths_of_mem_ends (h : keys ∈ n.ends) : keys ∈ n.paths := by
  obtain ⟨m, hm, -⟩ := h
  exact ⟨m, hm, trivial⟩

/-- The way to a node passes through nodes. -/
theorem mem_paths_of_isPrefix {q : List String} (hq : q <+: keys) (h : keys ∈ n.paths) :
    q ∈ n.paths := by
  induction q generalizing n keys with
  | nil => exact nil_mem_paths
  | cons k q ih =>
    obtain ⟨rest, rfl⟩ := hq
    obtain ⟨c, hc, hk, hr⟩ := cons_mem_pathsTo.mp h
    exact cons_mem_pathsTo.mpr ⟨c, hc, hk, ih (List.prefix_append q rest) hr⟩

end Paths

/-! ## Edits -/

/-- A property of end marks that a merge of two nodes has when one of them has it. -/
def Additive (p : Bool → Prop) : Prop := ∀ a b, p (a || b) ↔ p a ∨ p b

theorem additive_any : Additive (fun _ => True) := by simp [Additive]

theorem additive_end : Additive (· = true) := by simp [Additive]

theorem Additive.of_false {p : Bool → Prop} (hp : Additive p) (h : p false) (b : Bool) : p b := by
  have := hp false b
  rw [Bool.false_or] at this
  exact this.mpr (.inl h)

/-- `f` keeps the key of a node, keeps its paths and adds those of `X`. -/
structure Adds (p : Bool → Prop) (f : Node → Node) (X : Set (List String)) : Prop where
  key : ∀ n, (f n).key = n.key
  mem : ∀ n keys, keys ∈ pathsTo p (f n) ↔ keys ∈ pathsTo p n ∨ keys ∈ X

section Edits

variable {p : Bool → Prop} {f g : Node → Node} {X Y : Set (List String)}

theorem Adds.mem_ends (h : Adds (· = true) f X) (n : Node) (keys : List String) :
    keys ∈ (f n).ends ↔ keys ∈ n.ends ∨ keys ∈ X :=
  h.mem n keys

theorem Adds.comp (hg : Adds p g Y) (hf : Adds p f X) : Adds p (fun n => g (f n)) (X ∪ Y) where
  key n := by rw [hg.key, hf.key]
  mem n keys := by rw [hg.mem, hf.mem, Set.mem_union, or_assoc]

/-- A run of edits adds what one of them adds. -/
theorem Adds.foldl {α : Type} {step : Node → α → Node} {X : α → Set (List String)} {l : List α}
    (h : ∀ a ∈ l, Adds p (step · a) (X a)) :
    Adds p (l.foldl step) {keys | ∃ a ∈ l, keys ∈ X a} := by
  induction l with
  | nil => exact ⟨fun _ => rfl, fun _ _ => by simp⟩
  | cons a l ih =>
    have hl := ih fun b hb => h b (List.mem_cons_of_mem a hb)
    have ha := h a List.mem_cons_self
    refine ⟨fun n => ?_, fun n keys => ?_⟩
    · rw [List.foldl_cons, hl.key, ha.key]
    · rw [List.foldl_cons, hl.mem, ha.mem]
      simp [or_assoc]

theorem adds_describe (description : Option String) : Adds p (describe description) ∅ := by
  refine ⟨fun n => ?_, fun n keys => ?_⟩
  · cases description <;> rfl
  · cases description <;> cases keys <;> simp [describe]

theorem adds_markEnd (hp : Additive p) : Adds p markEnd {keys | keys = [] ∧ p true} := by
  refine ⟨fun n => rfl, fun n keys => ?_⟩
  cases keys with
  | nil => simpa [markEnd] using hp n.isEnd true
  | cons k keys => simp [markEnd]

/-! ## Siblings -/

/-- The path through the siblings `cs` that starts at key `k` and goes on with `keys`. -/
def Through (p : Bool → Prop) (cs : List Node) (k : String) (keys : List String) : Prop :=
  ∃ c ∈ cs, c.key = k ∧ keys ∈ pathsTo p c

@[simp] theorem through_nil {k : String} {keys : List String} : ¬ Through p [] k keys := by
  simp [Through]

@[simp] theorem through_cons {c : Node} {cs : List Node} {k : String} {keys : List String} :
    Through p (c :: cs) k keys ↔ (c.key = k ∧ keys ∈ pathsTo p c) ∨ Through p cs k keys := by
  simp [Through]

theorem cons_mem_pathsTo_iff_through {n : Node} {k : String} {keys : List String} :
    k :: keys ∈ pathsTo p n ↔ Through p n.children k keys :=
  cons_mem_pathsTo

/-- Placing an edit among siblings adds its paths behind its key, whether the edit finds a node of
that key or the new node stands in for it. -/
theorem through_place (hf : Adds p f X) {new : Node} (hX : ∀ keys, keys ∈ pathsTo p new ↔ keys ∈ X)
    (cs : List Node) (k : String) (keys : List String) :
    Through p (place new.key f new cs) k keys ↔
      Through p cs k keys ∨ (new.key = k ∧ keys ∈ X) := by
  induction cs with
  | nil => simp [place, hX]
  | cons c cs ih =>
    by_cases hc : c.key = new.key
    · rw [place, if_pos hc, through_cons, through_cons, hf.key, hf.mem, hc]
      grind
    · rw [place, if_neg hc, through_cons, through_cons, ih, or_assoc]

/-! ## Edits at the end of a path -/

/-- What an edit that adds `X` adds at the end of the path `keys`: the paths of `X` behind it, and
the nodes on the way, which are no ends. -/
def along (p : Bool → Prop) (keys : List String) (X : Set (List String)) : Set (List String) :=
  {q | p false ∧ q <+: keys} ∪ prefixed keys X

theorem mem_along {p : Bool → Prop} {q keys : List String} {X : Set (List String)} :
    q ∈ along p keys X ↔ (p false ∧ q <+: keys) ∨ ∃ r ∈ X, q = keys ++ r :=
  Iff.rfl

theorem Adds.alter (hp : Additive p) (hf : Adds p f X) (path : List Segment) :
    Adds p (alter f path) (along p (path.map Segment.key) X) := by
  induction path with
  | nil =>
    refine ⟨hf.key, fun n keys => ?_⟩
    rw [Node.alter, hf.mem]
    -- The empty path has only the root on its way, which is there already.
    have : p false → keys = [] → keys ∈ pathsTo p n := by
      rintro h rfl
      exact nil_mem_pathsTo.mpr (hp.of_false h _)
    simp only [mem_along, List.map_nil, List.prefix_nil, List.nil_append, exists_eq_right']
    grind
  | cons s path ih =>
    refine ⟨fun n => rfl, fun n keys => ?_⟩
    have hnew : ∀ keys, keys ∈ pathsTo p (Node.alter f path (leaf s)) ↔
        keys ∈ along p (path.map Segment.key) X := by
      intro keys
      rw [ih.mem, mem_pathsTo_leaf, or_iff_right_iff_imp]
      rintro ⟨rfl, h⟩
      exact .inl ⟨h, List.nil_prefix⟩
    have hkey : (Node.alter f path (leaf s)).key = s.key := ih.key _
    cases keys with
    | nil =>
      have : p false → p n.isEnd := fun h => hp.of_false h _
      simpa [Node.alter, mem_along] using this
    | cons k keys =>
      have hplace := through_place ih hnew n.children k keys
      rw [hkey] at hplace
      rw [cons_mem_pathsTo_iff_through, cons_mem_pathsTo_iff_through, Node.alter, hplace]
      refine or_congr_right ?_
      simp only [mem_along, List.map_cons, List.cons_prefix_cons, List.cons_append,
        List.cons.injEq]
      constructor
      · rintro ⟨rfl, ⟨h, hk⟩ | ⟨r, hr, rfl⟩⟩
        · exact .inl ⟨h, rfl, hk⟩
        · exact .inr ⟨r, hr, rfl, rfl⟩
      · rintro (⟨h, rfl, hk⟩ | ⟨r, hr, rfl, rfl⟩)
        · exact ⟨rfl, .inl ⟨h, hk⟩⟩
        · exact ⟨rfl, .inr ⟨r, hr, rfl⟩⟩

/-- What an insertion of `keys` with an edit that adds `X` adds: the nodes on the way, the path
itself as an end, unless it is empty, and the paths of `X` behind it. -/
def inserted (p : Bool → Prop) (keys : List String) (X : Set (List String)) :
    Set (List String) :=
  {q | (p true ∧ q = keys ∧ q ≠ []) ∨ q ∈ along p keys X}

theorem Adds.insertWith (hp : Additive p) (hf : Adds p f X) (path : List Segment) :
    Adds p (insertWith f path) (inserted p (path.map Segment.key) X) := by
  cases path with
  | nil =>
    have hX : inserted p [] X = along p [] X := by
      ext q
      simp [inserted]
    rw [List.map_nil, hX]
    exact hf.alter hp []
  | cons s path =>
    have hX : inserted p ((s :: path).map Segment.key) X =
        along p ((s :: path).map Segment.key) ({keys | keys = [] ∧ p true} ∪ X) := by
      ext q
      constructor
      · rintro (⟨h, rfl, -⟩ | h | ⟨r, hr, rfl⟩)
        · exact .inr ⟨[], .inl ⟨rfl, h⟩, (List.append_nil _).symm⟩
        · exact .inl h
        · exact .inr ⟨r, .inr hr, rfl⟩
      · rintro (h | ⟨r, ⟨rfl, h⟩ | hr, rfl⟩)
        · exact .inr (.inl h)
        · exact .inl ⟨h, List.append_nil _, by simp⟩
        · exact .inr (.inr ⟨r, hr, rfl⟩)
    rw [hX]
    exact (hf.comp (adds_markEnd hp)).alter hp (s :: path)

/-! ## Merging -/

mutual

/-- Absorbing a node adds all its paths. -/
theorem adds_absorb (hp : Additive p) : ∀ m : Node, Adds p (absorb m) (pathsTo p m)
  | ⟨segment, children, isEnd, description⟩ => by
    refine ⟨fun n => by rw [absorb]; rfl, fun n keys => ?_⟩
    cases keys with
    | nil => simpa [absorb] using hp n.isEnd isEnd
    | cons k keys =>
      rw [absorb]
      simp only [cons_mem_pathsTo_iff_through]
      exact through_graftAll hp children n.children k keys

/-- Grafting siblings onto others adds their paths. -/
theorem through_graftAll (hp : Additive p) : ∀ (ms ns : List Node) (k : String)
    (keys : List String),
    Through p (graftAll ms ns) k keys ↔ Through p ns k keys ∨ Through p ms k keys
  | [], ns, k, keys => by simp [graftAll]
  | m :: rest, ns, k, keys => by
    have hm := adds_absorb hp m
    rw [graftAll, through_graftAll hp rest, through_place hm fun _ => Iff.rfl, through_cons,
      or_assoc]

end

/-- A merge adds the paths of the other trie, except the end mark of its root. -/
theorem adds_merge (hp : Additive p) (source : Node) :
    Adds p (·.merge source) {keys | keys ∈ pathsTo p source ∧ keys ≠ []} := by
  refine ⟨fun n => rfl, fun n keys => ?_⟩
  cases keys with
  | nil => simp [merge]
  | cons k keys =>
    rw [merge, cons_mem_pathsTo_iff_through, cons_mem_pathsTo_iff_through,
      through_graftAll hp source.children n.children k keys]
    refine or_congr_right ?_
    rw [← cons_mem_pathsTo_iff_through]
    exact ⟨fun h => ⟨h, List.cons_ne_nil k keys⟩, fun h => h.1⟩

end Edits

/-! ## Nodes that lead to an end -/

/-- Every node but the root is on the way to an end. -/
def Live (n : Node) : Prop := ∀ q ∈ n.paths, q = [] ∨ ∃ e ∈ n.ends, q <+: e

theorem Live.paths_eq {n : Node} (h : n.Live) :
    n.paths = {q | q = [] ∨ ∃ e ∈ n.ends, q <+: e} := by
  ext q
  constructor
  · exact h q
  · rintro (rfl | ⟨e, he, hq⟩)
    · exact nil_mem_paths
    · exact mem_paths_of_isPrefix hq (mem_paths_of_mem_ends he)

theorem live_leaf (s : Segment) : (leaf s).Live := by
  intro q hq
  exact .inl (mem_pathsTo_leaf.mp hq).1

/-- An edit keeps every node live when the nodes it adds lead to ends. -/
theorem Live.edit {f : Node → Node} {N E : Set (List String)} {n : Node} (h : n.Live)
    (hN : Adds (fun _ => True) f N) (hE : Adds (· = true) f E)
    (hlive : ∀ q ∈ N, q = [] ∨ ∃ e, (e ∈ n.ends ∨ e ∈ E) ∧ q <+: e) : (f n).Live := by
  intro q hq
  rcases (hN.mem n q).mp hq with hq | hq
  · rcases h q hq with rfl | ⟨e, he, hqe⟩
    · exact .inl rfl
    · exact .inr ⟨e, (hE.mem n e).mpr (.inl he), hqe⟩
  · rcases hlive q hq with rfl | ⟨e, he, hqe⟩
    · exact .inl rfl
    · exact .inr ⟨e, (hE.mem n e).mpr he, hqe⟩

/-- Every path of `N` but the empty one is a prefix of one of `E`. -/
def Covers (E N : Set (List String)) : Prop := ∀ r ∈ N, r = [] ∨ ∃ e ∈ E, r <+: e

/-- The nodes that an edit adds at the end of a path lead to the end of the path, or to the ends
that it adds, when this is so of the edit itself. -/
theorem isPrefix_of_mem_along {keys q : List String} {N E : Set (List String)} (h : Covers E N)
    (hq : q ∈ along (fun _ => True) keys N) :
    q <+: keys ∨ ∃ e ∈ prefixed keys E, q <+: e := by
  rcases mem_along.mp hq with ⟨-, hq⟩ | ⟨r, hr, rfl⟩
  · exact .inl hq
  · rcases h r hr with rfl | ⟨e, he, hre⟩
    · left; simp
    · exact .inr ⟨keys ++ e, ⟨e, he, rfl⟩, (List.prefix_append_right_inj keys).mpr hre⟩

section Live

variable {f : Node → Node} {N E : Set (List String)} {n : Node}

/-- An edit at an end keeps every node live. -/
theorem Live.alter (h : n.Live) (hN : Adds (fun _ => True) f N) (hE : Adds (· = true) f E)
    (hcov : Covers E N) {path : List Segment} (hpath : path.map Segment.key ∈ n.ends) :
    (Node.alter f path n).Live := by
  refine h.edit (hN.alter additive_any path) (hE.alter additive_end path) fun q hq => .inr ?_
  rcases isPrefix_of_mem_along hcov hq with hq | ⟨e, he, hqe⟩
  · exact ⟨_, .inl hpath, hq⟩
  · exact ⟨e, .inr (.inr he), hqe⟩

/-- An insertion keeps every node live, since it makes the path an end. -/
theorem Live.insertWith (h : n.Live) (hN : Adds (fun _ => True) f N) (hE : Adds (· = true) f E)
    (hcov : Covers E N) (path : List Segment) : (Node.insertWith f path n).Live := by
  refine h.edit (hN.insertWith additive_any path) (hE.insertWith additive_end path) ?_
  rintro q (⟨-, rfl, hq⟩ | hq)
  · exact .inr ⟨_, .inr (.inl ⟨rfl, rfl, hq⟩), List.prefix_refl _⟩
  · rcases isPrefix_of_mem_along hcov hq with hq | ⟨e, he, hqe⟩
    · by_cases hkeys : path.map Segment.key = []
      · rw [hkeys] at hq
        exact .inl (List.prefix_nil.mp hq)
      · exact .inr ⟨_, .inr (.inl ⟨rfl, rfl, hkeys⟩), hq⟩
    · exact .inr ⟨e, .inr (.inr (.inr he)), hqe⟩

/-- What a merge adds leads to the ends that it adds. -/
theorem Live.covers (h : n.Live) :
    Covers {keys | keys ∈ pathsTo (· = true) n ∧ keys ≠ []}
      {keys | keys ∈ pathsTo (fun _ => True) n ∧ keys ≠ []} := by
  rintro r ⟨hr, hne⟩
  rcases h r hr with rfl | ⟨e, he, hre⟩
  · exact .inl rfl
  · refine .inr ⟨e, ⟨he, ?_⟩, hre⟩
    rintro rfl
    exact hne (List.prefix_nil.mp hre)

end Live

/-! ## Descending by keys -/

theorem find?_place {f : Node → Node} (hf : ∀ n, (f n).key = n.key) (new : Node) (cs : List Node) :
    (place new.key f new cs).find? (·.key == new.key) = some new ∨
      ∃ c, (place new.key f new cs).find? (·.key == new.key) = some (f c) := by
  induction cs with
  | nil => left; simp [place]
  | cons c cs ih =>
    by_cases hc : c.key = new.key
    · right
      exact ⟨c, by simp [place, hc, hf]⟩
    · simpa [place, hc] using ih

/-- After an edit at the end of a path, the path leads somewhere. -/
theorem isSome_descend?_alter {f : Node → Node} (hf : ∀ n, (f n).key = n.key) (path : List Segment)
    (n : Node) : ((alter f path n).descend? path).isSome := by
  induction path generalizing n with
  | nil => rfl
  | cons s path ih =>
    have hkey : ∀ m, (alter f path m).key = m.key := by
      intro m
      cases path with
      | nil => exact hf m
      | cons s path => rfl
    have hnew : (alter f path (leaf s)).key = s.key := hkey _
    have hfind := find?_place hkey (alter f path (leaf s)) n.children
    rw [hnew] at hfind
    rw [alter, descend?, child?]
    rcases hfind with h | ⟨c, h⟩
    · rw [h]; exact ih _
    · rw [h]; exact ih c

end Node

end SkillScript
