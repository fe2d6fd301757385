import SkillScript.Proofs.Placeholder.Accepting
import SkillScript.Proofs.Placeholder.MergeLaws

/-!
# Where typed elements lead

A typed element leads from a node to its literal child of that lower case, or else to the first
pattern among its children that owns the element (`IndexedNode.Resolves`), and typed elements lead
on from child to child (`IndexedNode.Leads`). Looking up finds this node in every sound trie
(`IndexedNode.Sound.lookup?_eq_some_iff`).

The positions of a node hold the keys of its patterns beside those of its literal children. Siblings
have different keys, so a pattern never hides a literal sibling, and the key of a pattern, which is
its label in lower case (`Segment.lower_label`), leads to no literal child.

* `Node.Grows`: an edit leaves the children of every node in their places and adds new ones behind
  them. So the order of the children is the order in which they arrived.
* `IndexedNode.Built.lookup?_resolves`: all of this for the tries that edits build.
-/

namespace SkillScript

/-! ## Labels in lower case -/

/-- At the end of a text, a character that has no case and is not ignored does not count. -/
theorem startsCased_concat (cs : List Char) {c : Char}
    (hignored : inRanges caseIgnorableRanges c = false) (hcased : inRanges casedRanges c = false) :
    startsCased (cs ++ [c]) = startsCased cs := by
  unfold startsCased
  rw [List.dropWhile_append]
  cases cs.dropWhile (inRanges caseIgnorableRanges) with
  | nil => simp [hignored, hcased]
  | cons x rest => rfl

/-- Braces around a text are no part of its words. -/
theorem lowerAfter_braces (before cs : List Char) :
    lowerAfter (before ++ ['\x7b']) (cs ++ ['\x7d']) = lowerAfter before cs ++ ['\x7d'] := by
  have hopen : ∀ cs, startsCased (cs ++ ['\x7b']) = startsCased cs := fun cs =>
    startsCased_concat cs (by decide +kernel) (by decide +kernel)
  have hclose : ∀ cs, startsCased (cs ++ ['\x7d']) = startsCased cs := fun cs =>
    startsCased_concat cs (by decide +kernel) (by decide +kernel)
  induction cs generalizing before with
  | nil => rfl
  | cons c cs ih =>
    rw [List.cons_append, lowerAfter, lowerAfter, ← List.cons_append, ih, hopen, hclose,
      List.append_assoc]

theorem lower_braces (s : String) :
    lower ("\x7b" ++ s ++ "\x7d") = "\x7b" ++ lower s ++ "\x7d" := by
  have hinner : lowerAfter [] ('\x7b' :: (s.toList ++ ['\x7d'])) =
      '\x7b' :: (lowerAfter [] s.toList ++ ['\x7d']) := by
    rw [lowerAfter, ← lowerAfter_braces [] s.toList]
    rfl
  apply String.toList_injective
  simpa [lower] using hinner

/-- What a segment shows is its key up to case. -/
theorem Segment.lower_label (s : Segment) : lower s.label = s.key := by
  cases s with
  | literal text => rfl
  | scripted p => exact lower_braces p.name

namespace Node

/-! ## The order of arrival -/

/-- The segments of the children at the end of a path; none when nothing is there. -/
def childSegments (n : Node) (path : List Segment) : List Segment :=
  (n.descend? path).elim [] (·.children.map segment)

/-- The children of each node of `n` are still there in `m`, in their order and before all
others. -/
def Grows (n m : Node) : Prop := ∀ path, n.childSegments path <+: m.childSegments path

section Grows

variable {f : Node → Node} {n m l : Node}

theorem childSegments_nil (n : Node) : n.childSegments [] = n.children.map segment := rfl

theorem childSegments_cons (n : Node) (s : Segment) (path : List Segment) :
    n.childSegments (s :: path) = (n.child? s.key).elim [] (·.childSegments path) := by
  rw [childSegments, descend?]
  cases n.child? s.key <;> rfl

theorem Grows.trans (hnm : n.Grows m) (hml : m.Grows l) : n.Grows l :=
  fun path => (hnm path).trans (hml path)

theorem grows_of_children (h : m.children = n.children) : n.Grows m := by
  intro path
  cases path with
  | nil => rw [childSegments_nil, childSegments_nil, h]
  | cons s path => rw [childSegments_cons, childSegments_cons, child?, child?, h]

theorem segments_place (hf : ∀ c : Node, (f c).segment = c.segment) (k : String) (new : Node)
    (cs : List Node) : cs.map segment <+: (place k f new cs).map segment := by
  induction cs with
  | nil => exact List.nil_prefix
  | cons c cs ih =>
    by_cases hc : c.key = k
    · rw [place, if_pos hc, List.map_cons, List.map_cons, hf]
    · rw [place, if_neg hc, List.map_cons, List.map_cons]
      exact (List.prefix_cons_inj _).mpr ih

/-- A child that is found grows in its place, and a new one stands last. -/
theorem grows_place (hf : ∀ c : Node, c.Grows (f c))
    (hsegment : ∀ c : Node, (f c).segment = c.segment) (new n : Node) :
    n.Grows { n with children := place new.key f new n.children } := by
  intro path
  cases path with
  | nil => exact segments_place hsegment new.key new n.children
  | cons s path =>
    have hkey : ∀ c : Node, (f c).key = c.key := fun c => congrArg Segment.key (hsegment c)
    have hchild : child? { n with children := place new.key f new n.children } s.key =
        if new.key = s.key then some ((n.child? s.key).elim new f) else n.child? s.key :=
      among?_place hkey
    rw [childSegments_cons, childSegments_cons, hchild]
    cases n.child? s.key with
    | none => exact List.nil_prefix
    | some c =>
      by_cases hnew : new.key = s.key
      · rw [if_pos hnew]
        exact hf c path
      · rw [if_neg hnew]

theorem segment_describe (description : Option String) (n : Node) :
    (n.describe description).segment = n.segment := by
  cases description <;> rfl

theorem grows_describe (description : Option String) (n : Node) :
    n.Grows (n.describe description) := by
  cases description <;> exact grows_of_children rfl

theorem segment_alter (hf : ∀ c : Node, (f c).segment = c.segment) (path : List Segment)
    (n : Node) : (alter f path n).segment = n.segment := by
  cases path with
  | nil => exact hf n
  | cons s path => rfl

theorem grows_alter (hf : ∀ c : Node, c.Grows (f c))
    (hsegment : ∀ c : Node, (f c).segment = c.segment) (path : List Segment) (n : Node) :
    n.Grows (alter f path n) := by
  induction path generalizing n with
  | nil => exact hf n
  | cons s path ih =>
    have hplace := grows_place ih (segment_alter hsegment path) (alter f path (leaf s)) n
    rw [key, segment_alter hsegment] at hplace
    exact hplace

theorem grows_insert (path : List Segment) (description : Option String) (n : Node) :
    n.Grows (n.insert path description) := by
  cases path with
  | nil => exact grows_describe description n
  | cons s path =>
    refine grows_alter (fun c => ?_) (fun c => segment_describe description c.markEnd) (s :: path) n
    have hmark : c.Grows c.markEnd := grows_of_children rfl
    exact hmark.trans (grows_describe description c.markEnd)

end Grows

mutual

theorem grows_absorb : ∀ m n : Node, n.Grows (absorb m n)
  | ⟨_, children, _, _⟩, n => (grows_graftAll children n).trans (grows_of_children rfl)

theorem grows_graftAll : ∀ (ms : List Node) (n : Node),
    n.Grows { n with children := graftAll ms n.children }
  | [], _ => grows_of_children rfl
  | m :: ms, n =>
    have hsegment : ∀ c : Node, (absorb m c).segment = c.segment := fun c => by rw [absorb_eq]
    (grows_place (grows_absorb m) hsegment m n).trans (grows_graftAll ms _)

end

end Node

namespace IndexedNode

/-! ## One element -/

/-- The typed element `value` leads from `n` to its child `c`. -/
inductive Resolves (n : IndexedNode) (value : String) (c : IndexedNode) : Prop
  /-- The element is a literal child in any case. -/
  | literal (hc : c ∈ n.children) (hliteral : c.segment.isScripted = false)
      (hkey : c.key = lower value)
  /-- No literal child is the element, and the first pattern that owns it is `c`. -/
  | pattern {before after : List IndexedNode} (hchildren : n.children = before ++ c :: after)
      (howns : c.segment.owns value = true) (hfirst : ∀ s ∈ before, s.segment.owns value = false)
      (hnone : ∀ s ∈ n.children, s.segment.isScripted = false → s.key ≠ lower value)

section Matching

variable {n c : IndexedNode} {k value : String}

/-- The position of a key leads to the one child that has it. -/
theorem Sound.child?_eq_some_iff (h : n.Sound) :
    n.child? k = some c ↔ c ∈ n.children ∧ c.key = k := by
  unfold child?
  constructor
  · intro hc
    obtain ⟨i, hi, hc⟩ := Option.bind_eq_some_iff.mp hc
    obtain ⟨d, hd, hkey⟩ := h.inStep.exists_of_lookup hi
    cases hc.symm.trans hd
    exact ⟨List.mem_of_getElem? hc, hkey⟩
  · rintro ⟨hc, rfl⟩
    obtain ⟨i, hi⟩ := List.mem_iff_getElem?.mp hc
    rw [h.inStep.lookup hi]
    exact hi

/-- Without a literal child of its lower case, an element leads to the first pattern that owns
it. -/
theorem Sound.matching?_of_noLiteral (h : n.Sound)
    (hnone : ∀ s ∈ n.children, s.segment.isScripted = false → s.key ≠ lower value) :
    n.matching? value = n.children.find? (·.segment.owns value) := by
  have hchild : (n.child? (lower value)).filter (!·.segment.isScripted) = none := by
    rw [Option.filter_eq_none_iff]
    intro s hs hliteral
    obtain ⟨hmem, hkey⟩ := h.child?_eq_some_iff.mp hs
    exact hnone s hmem (by simpa using hliteral) hkey
  rw [matching?, hchild]

theorem Sound.matching?_of_literal (h : n.Sound) (hc : c ∈ n.children)
    (hliteral : c.segment.isScripted = false) (hkey : c.key = lower value) :
    n.matching? value = some c := by
  have hchild : n.child? (lower value) = some c := h.child?_eq_some_iff.mpr ⟨hc, hkey⟩
  rw [matching?, hchild]
  simp [Option.filter, hliteral]

theorem Sound.matching?_eq_some_iff (h : n.Sound) :
    n.matching? value = some c ↔ Resolves n value c := by
  constructor
  · intro hc
    by_cases hnone : ∀ s ∈ n.children, s.segment.isScripted = false → s.key ≠ lower value
    · rw [h.matching?_of_noLiteral hnone] at hc
      obtain ⟨howns, before, after, hchildren, hfirst⟩ := List.find?_eq_some_iff_append.mp hc
      exact .pattern hchildren howns (by simpa using hfirst) hnone
    · push Not at hnone
      obtain ⟨s, hs, hliteral, hkey⟩ := hnone
      cases hc.symm.trans (h.matching?_of_literal hs hliteral hkey)
      exact .literal hs hliteral hkey
  · intro hc
    cases hc with
    | literal hc hliteral hkey => exact h.matching?_of_literal hc hliteral hkey
    | pattern hchildren howns hfirst hnone =>
      rw [h.matching?_of_noLiteral hnone, List.find?_eq_some_iff_append]
      exact ⟨howns, _, _, hchildren, by simpa using hfirst⟩

/-- The key of a pattern is that of no literal sibling. -/
theorem Sound.matching?_of_label (h : n.Sound) (hc : c ∈ n.children)
    (hscripted : c.segment.isScripted = true) (hkey : lower value = c.key) :
    n.matching? value = n.children.find? (·.segment.owns value) := by
  refine h.matching?_of_noLiteral fun s hs hliteral hsame => ?_
  have : s = c := List.inj_on_of_nodup_map h.inStep.nodup hs hc (hsame.trans hkey)
  rw [this, hscripted] at hliteral
  cases hliteral

end Matching

/-! ## Several elements -/

/-- The typed elements lead from the first node to the second. -/
inductive Leads : IndexedNode → List String → IndexedNode → Prop
  | nil (n : IndexedNode) : Leads n [] n
  | cons {n c m : IndexedNode} {value : String} {values : List String} (hc : Resolves n value c)
      (h : Leads c values m) : Leads n (value :: values) m

/-- The nodes are literal, the first is a child of `n` and each other one of the node before it. -/
inductive LiteralChain : IndexedNode → List IndexedNode → Prop
  | nil (n : IndexedNode) : LiteralChain n []
  | cons {n c : IndexedNode} {chain : List IndexedNode} (hc : c ∈ n.children)
      (hliteral : c.segment.isScripted = false) (h : LiteralChain c chain) :
      LiteralChain n (c :: chain)

/-- The second node is the first one or a node beneath it. -/
inductive Within : IndexedNode → IndexedNode → Prop
  | refl (n : IndexedNode) : Within n n
  | child {n c m : IndexedNode} (hc : c ∈ n.children) (h : Within c m) : Within n m

section Lookup

variable {t n m : IndexedNode}

theorem Sound.within (ht : t.Sound) (h : Within t n) : n.Sound := by
  induction h with
  | refl => exact ht
  | child hc _ ih => exact ih (ht.child hc)

theorem Sound.lookup?_eq_some_iff (h : n.Sound) {values : List String} :
    n.lookup? values = some m ↔ Leads n values m := by
  induction values generalizing n with
  | nil =>
    constructor
    · intro hm
      cases hm
      exact .nil _
    · intro hm
      cases hm
      rfl
  | cons value values ih =>
    rw [lookup?, Option.bind_eq_some_iff]
    constructor
    · rintro ⟨c, hc, hm⟩
      exact .cons (h.matching?_eq_some_iff.mp hc)
        ((ih (h.child (mem_children_of_matching? hc))).mp hm)
    · intro hm
      cases hm with
      | @cons _ c _ _ _ hc hm =>
        have hc := h.matching?_eq_some_iff.mpr hc
        exact ⟨c, hc, (ih (h.child (mem_children_of_matching? hc))).mpr hm⟩

/-- Elements that spell a chain of literal nodes lead to its end. -/
theorem LiteralChain.leads {chain : List IndexedNode} (h : LiteralChain n chain)
    {values : List String} (hvalues : values.map lower = chain.map key) :
    Leads n values (chain.getLastD n) := by
  induction h generalizing values with
  | nil n =>
    obtain rfl := List.map_eq_nil_iff.mp hvalues
    exact .nil n
  | @cons n c chain hc hliteral _ ih =>
    obtain ⟨value, values, rfl, hvalue, hvalues⟩ := List.map_eq_cons_iff.mp hvalues
    rw [List.getLastD_cons]
    exact .cons (.literal hc hliteral hvalue.symm) (ih hvalues)

end Lookup

/-! ## Tries that edits build -/

/-- The children of each node of `t` are still there in `t'`, in their order and before all
others. -/
def Grows (t t' : IndexedNode) : Prop := t.toNode.Grows t'.toNode

section Grows

variable {t t' b : IndexedNode} {path : List Segment}

theorem Simulates.grows_editAt? {f : IndexedNode → IndexedNode} {g : Node → Node}
    (h : Simulates f g) (hg : ∀ n : Node, n.Grows (g n))
    (hsegment : ∀ n : Node, (g n).segment = n.segment) (ht : t.Sound)
    (ht' : t.editAt? path f = some t') : Grows t t' := by
  rw [eq_alter_of_editAt? ht', Grows, (h.alter path).toNode t ht]
  exact Node.grows_alter hg hsegment path t.toNode

theorem Sound.grows_insert (ht : t.Sound) (path : List Segment) (description : Option String) :
    Grows t (t.insert path description) := by
  rw [Grows, (simulates_insert path description).toNode t ht]
  exact Node.grows_insert path description t.toNode

theorem Sound.grows_describeAt? (ht : t.Sound) {description : Option String}
    (ht' : t.describeAt? path description = some t') : Grows t t' :=
  (simulates_describe description).grows_editAt? (Node.grows_describe description)
    (Node.segment_describe description) ht ht'

theorem Sound.grows_merge (ht : t.Sound) (hb : b.Sound) : Grows t (t.merge b) := by
  rw [Grows, (simulates_merge hb).toNode t ht]
  exact Node.grows_graftAll b.toNode.children t.toNode

theorem Sound.grows_graftAt? (ht : t.Sound) (hb : b.Sound) (ht' : t.graftAt? path b = some t') :
    Grows t t' :=
  (simulates_merge hb).grows_editAt? (Node.grows_graftAll b.toNode.children) (fun _ => rfl) ht ht'

end Grows

/-- In every trie that edits build, looking up leads from each node to the literal child of the
element's lower case, and else to the first pattern that owns the element. So elements that spell
a chain of literal nodes lead to its end, whatever patterns stand beside them, and the label of a
pattern leads to the first pattern that owns this label as a text, if there is one. The first child
is the one that arrived first: an edit leaves the children of each node in their order and adds new
ones behind them. -/
theorem Built.lookup?_resolves {t : IndexedNode} (ht : Built t) :
    (∀ chain values, LiteralChain t chain → values.map lower = chain.map key →
      t.lookup? values = some (chain.getLastD t)) ∧
    (∀ values m, t.lookup? values = some m ↔ Leads t values m) ∧
    (∀ n c value, Within t n → c ∈ n.children → c.segment.isScripted = true →
      lower value = lower c.segment.label →
      n.matching? value = n.children.find? (·.segment.owns value)) ∧
    (∀ path description, Grows t (t.insert path description)) ∧
    (∀ path description t', t.describeAt? path description = some t' → Grows t t') ∧
    ∀ b, Built b → Grows t (t.merge b) ∧ ∀ path t', t.graftAt? path b = some t' → Grows t t' := by
  have hsound := ht.sound_and_notEnd.1
  refine ⟨fun chain values hchain hvalues => ?_, fun values m => hsound.lookup?_eq_some_iff,
    fun n c value hn hc hscripted hlabel => ?_, fun path description => ?_,
    fun path description t' ht' => ?_, fun b hb => ?_⟩
  · exact hsound.lookup?_eq_some_iff.mpr (hchain.leads hvalues)
  · rw [Segment.lower_label] at hlabel
    exact (hsound.within hn).matching?_of_label hc hscripted hlabel
  · exact hsound.grows_insert path description
  · exact hsound.grows_describeAt? ht'
  · have hb := hb.sound_and_notEnd.1
    exact ⟨hsound.grows_merge hb, fun path t' ht' => hsound.grows_graftAt? hb ht'⟩

/-- An integer is a literal child beside the pattern of integers, which arrived before it. The
literal is found, other integers are the pattern, and the label of the pattern is nothing. -/
theorem Built.lookup?_resolves_shadowed :
    let t := (IndexedNode.root.insert [.literal "random", .scripted .integer] none).merge
      (IndexedNode.root.insert [.literal "Random", .literal "7", .literal "extra"] none)
    let integer : IndexedNode := (leaf (.scripted .integer)).markEnd
    let extra : IndexedNode := (leaf (.literal "extra")).markEnd
    let seven : IndexedNode := ⟨.literal "7", [extra], [("extra", 0)], false, none⟩
    Built t ∧ Segment.owns "7" integer.segment = true ∧
      t.lookup? ["RANDOM", "7"] = some seven ∧ Leads t ["random", "8"] integer ∧
      t.lookup? ["random", "\x7bInteger\x7d"] = none ∧
      Grows t (t.insert [.literal "random", .literal "8"] none) := by
  intro t integer extra seven
  have ht : Built t := (root.insert _ _).merge (root.insert _ _)
  obtain ⟨hliteral, hleads, hlabel, hinsert, -⟩ := ht.lookup?_resolves
  let random : IndexedNode :=
    ⟨.literal "random", [integer, seven], [("7", 1), ("\x7binteger\x7d", 0)], false, none⟩
  have hrandom : random ∈ t.children := List.mem_singleton.mpr rfl
  have hchain : LiteralChain t [random, seven] :=
    .cons hrandom rfl (.cons (List.mem_of_getElem? (i := 1) rfl) rfl (.nil seven))
  have hmatching : random.matching? "\x7bInteger\x7d" = none := by
    rw [hlabel random integer _ (.child hrandom (.refl random)) List.mem_cons_self rfl
      (by decide +kernel)]
    decide +kernel
  refine ⟨ht, by decide +kernel, hliteral [random, seven] _ hchain (by decide +kernel),
    (hleads _ _).mp rfl, ?_, hinsert _ _⟩
  have hfirst : t.matching? "random" = some random := rfl
  rw [lookup?, hfirst, Option.bind_some, lookup?, hmatching]
  rfl

end IndexedNode

end SkillScript
