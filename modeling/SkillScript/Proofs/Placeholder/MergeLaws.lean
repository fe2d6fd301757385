import SkillScript.Proofs.Placeholder.InStep

/-!
# The laws of merging

Where siblings have different keys, a list of siblings is known by two things: its keys in order,
and the sibling that each key finds (`Node.eq_of_sameKeys`). Grafting one list onto another has a
law for each. The keys of the first come before the new keys of the second (`Node.keys_graftAll`),
and the sibling of a key is that of either list, or the first with the second absorbed
(`Node.among?_graftAll`).

Both are ordered joins in which the first comer stays. So merging is associative, the empty trie is
neutral, and what is in a trie already adds nothing when it is merged again, at every depth at once
(`Node.absorb_assoc`, `Node.absorb_again`, `IndexedNode.Built.merge_laws`).
-/

namespace SkillScript

/-! ## Keys in order of arrival -/

/-- The keys `ks`, and behind them those of `ls` that are not among them. -/
def firstComers (ks ls : List String) : List String := ks ++ ls.filter (· ∉ ks)

section FirstComers

variable {ks ls ms : List String}

@[simp] theorem firstComers_nil_left : firstComers [] ls = ls := by simp [firstComers]

@[simp] theorem firstComers_nil_right : firstComers ks [] = ks := by simp [firstComers]

@[simp] theorem mem_firstComers {k : String} : k ∈ firstComers ks ls ↔ k ∈ ks ∨ k ∈ ls := by
  by_cases hk : k ∈ ks <;> simp [firstComers, hk]

/-- Keys that are there already add nothing. -/
theorem firstComers_of_subset (h : ls ⊆ ks) : firstComers ks ls = ks := by
  have hnone : ls.filter (· ∉ ks) = [] := by
    rw [List.filter_eq_nil_iff]
    intro k hk
    simpa using h hk
  rw [firstComers, hnone, List.append_nil]

theorem firstComers_assoc :
    firstComers (firstComers ks ls) ms = firstComers ks (firstComers ls ms) := by
  have hfilter : ms.filter (· ∉ firstComers ks ls) = (ms.filter (· ∉ ls)).filter (· ∉ ks) := by
    rw [List.filter_filter]
    refine List.filter_congr fun k _ => ?_
    by_cases hk : k ∈ ks <;> simp [hk]
  calc firstComers (firstComers ks ls) ms
    _ = ks ++ ls.filter (· ∉ ks) ++ (ms.filter (· ∉ ls)).filter (· ∉ ks) := by
      rw [← hfilter]; rfl
    _ = ks ++ (ls ++ ms.filter (· ∉ ls)).filter (· ∉ ks) := by
      rw [List.filter_append, List.append_assoc]

theorem nodup_firstComers (hks : ks.Nodup) (hls : ls.Nodup) : (firstComers ks ls).Nodup := by
  refine hks.append (hls.filter _) fun k hk hk' => ?_
  simpa [hk] using (List.mem_filter.mp hk').2

end FirstComers

namespace Node

/-! ## Siblings by their keys -/

/-- The first of several siblings that has the given key. -/
def among? (k : String) (cs : List Node) : Option Node := cs.find? (·.key == k)

section Siblings

variable {as bs cs : List Node} {k : String}

theorem among?_cons (c : Node) :
    among? k (c :: cs) = if c.key = k then some c else among? k cs := by
  by_cases h : c.key = k <;> simp [among?, h]

theorem among?_eq_none_iff : among? k cs = none ↔ k ∉ cs.map key := by
  simp [among?]

theorem of_among?_eq_some {c : Node} (h : among? k cs = some c) : c ∈ cs ∧ c.key = k :=
  ⟨List.mem_of_find?_eq_some h, by simpa using List.find?_some h⟩

/-- Siblings with different keys are known by their keys in order and by what each key finds. -/
theorem eq_of_sameKeys (hkeys : as.map key = bs.map key) (hnodup : (as.map key).Nodup)
    (h : ∀ k, among? k as = among? k bs) : as = bs := by
  induction as generalizing bs with
  | nil => exact (List.map_eq_nil_iff.mp hkeys.symm).symm
  | cons a as ih =>
    cases bs with
    | nil => cases hkeys
    | cons b bs =>
      rw [List.map_cons, List.map_cons, List.cons.injEq] at hkeys
      obtain ⟨hkey, hkeys⟩ := hkeys
      rw [List.map_cons, List.nodup_cons] at hnodup
      have hab : a = b := by simpa [among?_cons, hkey] using h b.key
      refine List.cons_eq_cons.mpr ⟨hab, ih hkeys hnodup.2 fun k => ?_⟩
      by_cases hk : a.key = k
      · -- The key of the first sibling finds nothing among the others.
        have hnone : k ∉ as.map key := hk ▸ hnodup.1
        rw [among?_eq_none_iff.mpr hnone, among?_eq_none_iff.mpr (hkeys ▸ hnone)]
      · simpa [among?_cons, hk, ← hkey] using h k

variable {f : Node → Node} {new : Node}

theorem keys_place (hf : ∀ n, (f n).key = n.key) :
    (place new.key f new cs).map key = firstComers (cs.map key) [new.key] := by
  induction cs with
  | nil => simp [place]
  | cons c cs ih =>
    by_cases hc : c.key = new.key
    · rw [place, if_pos hc, firstComers_of_subset (by simp [hc])]
      simp [hf]
    · rw [place, if_neg hc, List.map_cons, ih]
      simp [firstComers, List.filter_cons, Ne.symm hc]

theorem among?_place (hf : ∀ n, (f n).key = n.key) :
    among? k (place new.key f new cs) =
      if new.key = k then some ((among? k cs).elim new f) else among? k cs := by
  induction cs with
  | nil => by_cases hk : new.key = k <;> simp [place, among?, hk]
  | cons c cs ih =>
    by_cases hc : c.key = new.key
    · rw [place, if_pos hc, among?_cons, among?_cons, hf, hc]
      split <;> rfl
    · rw [place, if_neg hc, among?_cons, among?_cons, ih]
      by_cases hk : new.key = k
      · simp [hk, hk ▸ hc]
      · simp [hk]

end Siblings

/-! ## Grafting siblings onto siblings -/

theorem absorb_eq (m n : Node) :
    absorb m n =
      { n with
        children := graftAll m.children n.children
        isEnd := n.isEnd || m.isEnd
        description := n.description.or m.description } := by
  cases m
  rw [absorb]

@[simp] theorem key_absorb (m n : Node) : (absorb m n).key = n.key := by
  rw [absorb_eq]; rfl

section Grafting

variable {as bs cs : List Node} {k : String}

/-- The siblings that are there come first. -/
theorem keys_graftAll (hbs : (bs.map key).Nodup) :
    (graftAll bs as).map key = firstComers (as.map key) (bs.map key) := by
  induction bs generalizing as with
  | nil => simp [graftAll]
  | cons b bs ih =>
    rw [List.map_cons, List.nodup_cons] at hbs
    have hcons : b.key :: bs.map key = firstComers [b.key] (bs.map key) := by
      have hfilter : (bs.map key).filter (· ∉ [b.key]) = bs.map key := by
        rw [List.filter_eq_self]
        intro k hk
        have : k ≠ b.key := fun h => hbs.1 (h ▸ hk)
        simpa using this
      rw [firstComers, hfilter]
      rfl
    rw [graftAll, ih hbs.2, keys_place (key_absorb b), List.map_cons, hcons, firstComers_assoc]

/-- A key finds what it finds in one of the lists, or both joined. -/
theorem among?_graftAll (hbs : (bs.map key).Nodup) :
    among? k (graftAll bs as) =
      Option.merge (fun a b => absorb b a) (among? k as) (among? k bs) := by
  induction bs generalizing as with
  | nil => simp [graftAll, among?]
  | cons b bs ih =>
    rw [List.map_cons, List.nodup_cons] at hbs
    rw [graftAll, ih hbs.2, among?_place (key_absorb b), among?_cons]
    by_cases hk : b.key = k
    · have hnone : among? k bs = none := among?_eq_none_iff.mpr (hk ▸ hbs.1)
      rw [if_pos hk, if_pos hk, hnone]
      cases among? k as <;> simp
    · rw [if_neg hk, if_neg hk]

theorem nodup_graftAll (has : (as.map key).Nodup) (hbs : (bs.map key).Nodup) :
    ((graftAll bs as).map key).Nodup := by
  rw [keys_graftAll hbs]
  exact nodup_firstComers has hbs

end Grafting

/-! ## Absorbing is an ordered join -/

theorem distinct_leaf (s : Segment) : (leaf s).Distinct :=
  .intro List.nodup_nil nofun

theorem absorb_leaf (s : Segment) (n : Node) : absorb (leaf s) n = n := by
  obtain ⟨_, _, _, _⟩ := n
  simp [absorb, graftAll, leaf]

/-- What a node was before it absorbed another adds nothing to it. -/
theorem absorb_again {a : Node} (ha : a.Distinct) {b : Node} (hb : b.Distinct) :
    absorb a (absorb b a) = absorb b a := by
  -- A child of `a` may have absorbed a child of `b`, so `b` varies in the induction.
  induction ha generalizing b with
  | @intro a hkeys _ ih =>
    have hgraft : graftAll a.children (graftAll b.children a.children) =
        graftAll b.children a.children := by
      have hnodup := nodup_graftAll hkeys hb.keys
      refine eq_of_sameKeys ?_ (nodup_graftAll hnodup hkeys) fun k => ?_
      · rw [keys_graftAll hkeys, keys_graftAll hb.keys, firstComers_of_subset]
        intro k hk
        exact mem_firstComers.mpr (.inl hk)
      · rw [among?_graftAll hkeys, among?_graftAll hb.keys]
        cases hka : among? k a.children with
        | none => simp
        | some c =>
          have hc := (of_among?_eq_some hka).1
          cases hkb : among? k b.children with
          | none =>
            have hself := ih c hc (distinct_leaf c.segment)
            rw [absorb_leaf] at hself
            simp [hself]
          | some d => simpa using ih c hc (hb.child (of_among?_eq_some hkb).1)
    rw [absorb_eq a, absorb_eq b]
    simp only [hgraft]
    cases a.isEnd <;> cases a.description <;> simp

theorem absorb_self {a : Node} (ha : a.Distinct) : absorb a a = a := by
  simpa [absorb_leaf] using absorb_again ha (distinct_leaf a.segment)

theorem absorb_assoc {a : Node} (ha : a.Distinct) {b c : Node} (hb : b.Distinct)
    (hc : c.Distinct) : absorb c (absorb b a) = absorb (absorb c b) a := by
  induction ha generalizing b c with
  | @intro a hkeys _ ih =>
    have hgraft : graftAll c.children (graftAll b.children a.children) =
        graftAll (graftAll c.children b.children) a.children := by
      have hnodup := nodup_graftAll hkeys hb.keys
      have hnodup' := nodup_graftAll hb.keys hc.keys
      refine eq_of_sameKeys ?_ (nodup_graftAll hnodup hc.keys) fun k => ?_
      · rw [keys_graftAll hc.keys, keys_graftAll hb.keys, keys_graftAll hnodup',
          keys_graftAll hc.keys, firstComers_assoc]
      · rw [among?_graftAll hc.keys, among?_graftAll hb.keys, among?_graftAll hnodup',
          among?_graftAll hc.keys]
        cases hka : among? k a.children with
        | none => simp
        | some x =>
          cases hkb : among? k b.children with
          | none => simp
          | some y =>
            cases hkc : among? k c.children with
            | none => simp
            | some z =>
              have hx := (of_among?_eq_some hka).1
              have hy := (of_among?_eq_some hkb).1
              have hz := (of_among?_eq_some hkc).1
              simpa using ih x hx (hb.child hy) (hc.child hz)
    rw [absorb_eq c, absorb_eq b, absorb_eq (absorb c b), absorb_eq c b]
    simp only [hgraft, Bool.or_assoc, Option.or_assoc]

/-! ## Merging -/

section Merging

variable {a b c : Node}

theorem merge_self (ha : a.Distinct) : a.merge a = a := by
  have h := congrArg children (absorb_self ha)
  rw [absorb_eq] at h
  obtain ⟨_, _, _, _⟩ := a
  simpa [merge] using h

theorem merge_again (ha : a.Distinct) (hb : b.Distinct) : (a.merge b).merge a = a.merge b := by
  have h := congrArg children (absorb_again ha hb)
  simp only [absorb_eq] at h
  simp only [merge, h]

theorem merge_assoc (ha : a.Distinct) (hb : b.Distinct) (hc : c.Distinct) :
    (a.merge b).merge c = a.merge (b.merge c) := by
  have h := congrArg children (absorb_assoc ha hb hc)
  simp only [absorb_eq] at h
  simp only [merge, h]

theorem merge_leaf (a : Node) (s : Segment) : a.merge (leaf s) = a := by
  obtain ⟨_, _, _, _⟩ := a
  simp [merge, leaf, graftAll]

/-- Merging into an empty trie makes a copy. -/
theorem children_merge_leaf (s : Segment) (ha : a.Distinct) :
    ((leaf s).merge a).children = a.children := by
  have hnil : ((leaf s).children.map key).Nodup := List.nodup_nil
  refine eq_of_sameKeys ?_ (nodup_graftAll hnil ha.keys) fun k => ?_
  · rw [merge, keys_graftAll ha.keys]
    exact firstComers_nil_left
  · rw [merge, among?_graftAll ha.keys]
    exact Option.merge_none_left

/-- The keys of the children at the end of a path; none when nothing is there. -/
def childKeys (n : Node) (path : List Segment) : List String :=
  (n.descend? path).elim [] (·.children.map key)

/-- `t` has the nodes of `a` and of `b`. Of two nodes at one path that of `a` gives the spelling, an
end stays an end, and the description of `a` stays if there is one. The children of `a` come first.
The root is left out, but for its children. -/
structure Joins (a b t : Node) : Prop where
  segment : ∀ path ≠ [], (t.descend? path).map Node.segment =
    ((a.descend? path).map Node.segment).or ((b.descend? path).map Node.segment)
  isEnd : ∀ path ≠ [], (t.descend? path).any Node.isEnd =
    ((a.descend? path).any Node.isEnd || (b.descend? path).any Node.isEnd)
  description : ∀ path ≠ [], (t.descend? path).bind Node.description =
    ((a.descend? path).bind Node.description).or ((b.descend? path).bind Node.description)
  keys : ∀ path, t.childKeys path = firstComers (a.childKeys path) (b.childKeys path)

/-- A path leads to what it leads to in one of the nodes, or both joined. -/
theorem descend?_absorb (hb : b.Distinct) (path : List Segment) :
    (absorb b a).descend? path =
      Option.merge (fun x y => absorb y x) (a.descend? path) (b.descend? path) := by
  induction path generalizing a b with
  | nil => simp [descend?]
  | cons s path ih =>
    have hchild : (absorb b a).child? s.key =
        Option.merge (fun x y => absorb y x) (a.child? s.key) (b.child? s.key) := by
      rw [absorb_eq]
      exact among?_graftAll hb.keys
    rw [descend?, descend?, descend?, hchild]
    cases a.child? s.key with
    | none => simp
    | some x =>
      cases hy : b.child? s.key with
      | none => simp
      | some y => simpa using ih (hb.child (of_among?_eq_some hy).1)

/-- Beneath the root, merging is absorbing. -/
theorem descend?_merge (hb : b.Distinct) {path : List Segment} (hpath : path ≠ []) :
    (a.merge b).descend? path =
      Option.merge (fun x y => absorb y x) (a.descend? path) (b.descend? path) := by
  rw [← descend?_absorb hb]
  cases path with
  | nil => exact absurd rfl hpath
  | cons s path =>
    rw [absorb_eq]
    rfl

theorem Distinct.descend? {path : List Segment} (hb : b.Distinct) (h : b.descend? path = some c) :
    c.Distinct := by
  induction path generalizing b with
  | nil => exact Option.some.inj h ▸ hb
  | cons s path ih =>
    obtain ⟨x, hx, hc⟩ := Option.bind_eq_some_iff.mp h
    exact ih (hb.child (of_among?_eq_some hx).1) hc

theorem childKeys_merge (hb : b.Distinct) (path : List Segment) :
    (a.merge b).childKeys path = firstComers (a.childKeys path) (b.childKeys path) := by
  have habsorb : (a.merge b).childKeys path = (absorb b a).childKeys path := by
    rw [absorb_eq]
    cases path <;> rfl
  rw [habsorb, childKeys, childKeys, childKeys, descend?_absorb hb]
  cases a.descend? path with
  | none => simp
  | some x =>
    cases hy : b.descend? path with
    | none => simp
    | some y => simpa [absorb_eq] using keys_graftAll (hb.descend? hy).keys

theorem joins_merge (hb : b.Distinct) : Joins a b (a.merge b) := by
  refine ⟨fun path hpath => ?_, fun path hpath => ?_, fun path hpath => ?_, fun path => ?_⟩
  · rw [descend?_merge hb hpath]
    cases a.descend? path <;> cases b.descend? path <;> simp [absorb_eq]
  · rw [descend?_merge hb hpath]
    cases a.descend? path <;> cases b.descend? path <;> simp [absorb_eq]
  · rw [descend?_merge hb hpath]
    cases a.descend? path <;> cases b.descend? path <;> simp [absorb_eq]
  · exact childKeys_merge hb path

end Merging

end Node

namespace IndexedNode

/-- Merging makes an ordered, idempotent monoid of the tries that edits build. A trie adds nothing
to itself, nor to a trie that it was merged with before. Merging is associative, and the empty trie
is neutral on either side, beneath the root. A merged trie has at each path what the first of the
two has there, completed by the second. -/
theorem Built.merge_laws {a b c : IndexedNode} (ha : Built a) (hb : Built b) (hc : Built c) :
    (a.merge a).toNode = a.toNode ∧
    ((a.merge b).merge a).toNode = (a.merge b).toNode ∧
    ((a.merge b).merge c).toNode = (a.merge (b.merge c)).toNode ∧
    (a.merge IndexedNode.root).toNode = a.toNode ∧
    (IndexedNode.root.merge a).toNode.children = a.toNode.children ∧
    Node.Joins a.toNode b.toNode (a.merge b).toNode := by
  have toNode_merge : ∀ {x y : IndexedNode}, Built x → Built y →
      (x.merge y).toNode = x.toNode.merge y.toNode := fun hx hy =>
    (simulates_merge hy.sound_and_notEnd.1).toNode _ hx.sound_and_notEnd.1
  have hroot : IndexedNode.root.toNode = Node.root := rfl
  have hda := ha.sound_and_notEnd.1.distinct
  have hdb := hb.sound_and_notEnd.1.distinct
  have hdc := hc.sound_and_notEnd.1.distinct
  refine ⟨?_, ?_, ?_, ?_, ?_, ?_⟩
  · rw [toNode_merge ha ha, Node.merge_self hda]
  · rw [toNode_merge (ha.merge hb) ha, toNode_merge ha hb, Node.merge_again hda hdb]
  · rw [toNode_merge (ha.merge hb) hc, toNode_merge ha (hb.merge hc), toNode_merge ha hb,
      toNode_merge hb hc, Node.merge_assoc hda hdb hdc]
  · rw [toNode_merge ha .root, hroot]
    exact Node.merge_leaf _ _
  · rw [toNode_merge .root ha, hroot]
    exact Node.children_merge_leaf _ hda
  · rw [toNode_merge ha hb]
    exact Node.joins_merge hdb

/-- Three tries that spell one path differently: the first spelling stays, with the description of
the second and the end of the first. -/
theorem Built.merge_laws_spellings :
    let a := IndexedNode.root.insert [.literal "Hp", .literal "max"] none
    let b := (IndexedNode.root.insert [.literal "name"] none).insert [.literal "hp"] (some "Health")
    let c := IndexedNode.root.insert [.literal "HP", .literal "Max"] (some "Most")
    Built a ∧ Built b ∧ Built c ∧
      ((a.merge b).merge c).toNode = (a.merge (b.merge c)).toNode ∧
      (((a.merge b).merge c).toNode.outline 0).map
          (fun n => (n.1, n.2.segment.label, n.2.isEnd, n.2.description)) =
        [(0, "", false, none), (1, "Hp", true, some "Health"), (2, "max", true, some "Most"),
          (1, "name", true, none)] := by
  intro a b c
  have ha : Built a := Built.root.insert _ _
  have hb : Built b := (Built.root.insert _ _).insert _ _
  have hc : Built c := Built.root.insert _ _
  exact ⟨ha, hb, hc, (Built.merge_laws ha hb hc).2.2.1, by decide +kernel⟩

end IndexedNode

end SkillScript
