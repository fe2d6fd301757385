import SkillScript.Proofs.Placeholder.InStep

/-!
# The build with an index

`Placeholder.trieOf` and `IndexedNode.trieOf` take the same steps, the first on tries without
positions and the second on tries with them. The second is built by edits and stands for the first
(`IndexedNode.built_trieOf`), so what holds of every trie that edits build holds of the trie of any
placeholders and keywords. For one thing, its siblings have different keys
(`Placeholder.distinct_trieOf`).

The end of a placeholder gets its description and its keywords while its path is inserted, in one
edit at the end of the path. The outcome is the same when the path is inserted first and the
keywords are grafted beneath it one by one (`IndexedNode.Built.insertWith_merge`).
-/

namespace SkillScript

namespace IndexedNode

section Edits

variable {f g : IndexedNode → IndexedNode} {t b : IndexedNode} {path : List Segment}

/-! ## Edits at the end of one path -/

theorem place_place (n new new' : IndexedNode) (k : String) :
    (n.place k f new).place k g new' = n.place k (fun c => g (f c)) (g new) := by
  cases hk : n.positions.lookup k with
  | some i => simp [place, hk, List.modify_modify_eq, Function.comp_def]
  | none =>
    have hlast : (n.children ++ [new]).modify n.children.length g = n.children ++ [g new] := by
      rw [List.modify_eq_take_cons_drop (by simp)]
      simp
    simp [place, hk, hlast]

theorem alter_alter (n : IndexedNode) (path : List Segment) :
    alter g path (alter f path n) = alter (fun m => g (f m)) path n := by
  induction path generalizing n with
  | nil => rfl
  | cons s path ih => simp only [alter, place_place, ih]

/-- After an edit at the end of a path, the path leads somewhere. -/
theorem Sound.isSome_descend?_alter (h : t.Sound) (path : List Segment) :
    ((alter f path t).descend? path).isSome := by
  induction path generalizing t with
  | nil => rfl
  | cons s path ih =>
    rw [alter, descend?, IndexedNode.place, child?]
    cases hk : t.positions.lookup s.key with
    | some i =>
      obtain ⟨c, hi, -⟩ := h.inStep.exists_of_lookup hk
      simp only [hk, List.getElem?_modify_eq, hi, Option.bind_some]
      exact ih (h.child (List.mem_of_getElem? hi))
    | none =>
      simp only [List.lookup_cons_self, Option.bind_some, List.getElem?_concat_length]
      exact ih (sound_leaf s)

/-- A merge at the end of the inserted path is a graft beneath it. -/
theorem Built.insertWith_merge (ht : t.Sound) (h : Built (t.insertWith f path)) (hb : Built b) :
    Built (t.insertWith (fun n => (f n).merge b) path) := by
  cases path with
  | nil => exact h.merge hb
  | cons s path =>
    -- The path leads somewhere once it is inserted, so the graft takes place.
    have hgraft : (t.insertWith f (s :: path)).graftAt? (s :: path) b =
        some (t.insertWith (fun n => (f n).merge b) (s :: path)) := by
      simp only [graftAt?, editAt?, IndexedNode.insertWith, List.isEmpty_cons, Bool.false_eq_true,
        if_false, ht.isSome_descend?_alter, if_true, alter_alter]
    exact h.graft hb hgraft

end Edits

end IndexedNode

namespace IndexedKeyword

open IndexedNode (Built)

/-! ## Keywords -/

section Keywords

variable {t s : IndexedKeyword} {ks : List IndexedKeyword}

theorem built_of (ps : Patterns) (k : Keyword) : Built (of ps k).trie := Built.root.insert _ _

theorem toLinked_of (ps : Patterns) (k : Keyword) : (of ps k).toLinked = LinkedKeyword.of ps k := by
  have h := (IndexedNode.simulates_insert (Segment.ofPath ps k.path) k.description).toNode
    IndexedNode.root Built.root.sound
  simp only [toLinked, of, LinkedKeyword.of, h]
  rfl

theorem built_follow (ht : Built t.trie) (hs : Built s.trie) : Built (t.follow s).trie := by
  rw [follow]
  split
  · exact ht
  · split
    · next trie htrie => exact ht.graft hs htrie
    · exact ht

theorem toLinked_follow (ht : Built t.trie) (hs : Built s.trie) :
    (t.follow s).toLinked = t.toLinked.follow s.toLinked := by
  have hgraft := ht.sound.graftAt?_toNode hs.sound t.path
  by_cases hpath : t.path.isEmpty
  · simp only [follow, LinkedKeyword.follow, toLinked, hpath, if_true]
  · simp only [follow, LinkedKeyword.follow, toLinked, hpath, if_false, hgraft, Bool.false_eq_true]
    cases t.trie.graftAt? t.path s.trie <;> rfl

/-- One step of a pass: a keyword followed by the chosen ones of all keywords, in order. -/
theorem foldl_follow (h : ∀ k ∈ ks, Built k.trie) (ht : Built t.trie)
    (chosen : IndexedKeyword × Nat → Bool) :
    let r := ks.zipIdx.foldl (fun t x => if chosen x then t.follow x.1 else t) t
    Built r.trie ∧
      r.toLinked =
        ks.zipIdx.foldl (fun t x => if chosen x then t.follow x.1.toLinked else t) t.toLinked := by
  refine List.foldl_rel (r := fun (t : IndexedKeyword) l => Built t.trie ∧ t.toLinked = l)
    ⟨ht, rfl⟩ ?_
  rintro x hx t _ ⟨ht, rfl⟩
  have hsource : Built x.1.trie := h x.1 (List.fst_mem_of_mem_zipIdx hx)
  split
  · exact ⟨built_follow ht hsource, toLinked_follow ht hsource⟩
  · exact ⟨ht, rfl⟩

section Pass

variable (links : Keyword → Nat → Keyword → Nat → Bool)

theorem built_pass (h : ∀ k ∈ ks, Built k.trie) : ∀ k ∈ pass links ks, Built k.trie := by
  intro k hk
  obtain ⟨⟨target, i⟩, hmem, rfl⟩ := List.mem_map.mp hk
  have htarget : Built target.trie := h target (List.fst_mem_of_mem_zipIdx hmem)
  exact (foldl_follow h htarget fun x => links x.1.keyword x.2 target.keyword i).1

theorem map_toLinked_pass (h : ∀ k ∈ ks, Built k.trie) :
    (pass links ks).map toLinked = LinkedKeyword.pass links (ks.map toLinked) := by
  rw [pass, LinkedKeyword.pass, List.zipIdx_map, List.map_map, List.map_map]
  refine List.map_congr_left fun ⟨target, i⟩ hmem => ?_
  have htarget : Built target.trie := h target (List.fst_mem_of_mem_zipIdx hmem)
  simp only [Function.comp_apply, List.foldl_map, Prod.map]
  exact (foldl_follow h htarget fun x => links x.1.keyword x.2 target.keyword i).2

end Pass

/-- The linked keywords are built by edits, and stand for those that are linked without
positions. -/
theorem built_linkAll (ps : Patterns) (keywords : List Keyword) :
    (∀ k ∈ linkAll ps keywords, Built k.trie) ∧
      (linkAll ps keywords).map toLinked = LinkedKeyword.linkAll ps keywords := by
  have h₀ : ∀ k ∈ keywords.map (of ps), Built k.trie :=
    List.forall_mem_map.mpr fun k _ => built_of ps k
  have h₁ := built_pass LinkedKeyword.fromAll h₀
  have h₂ := built_pass LinkedKeyword.toAll h₁
  refine ⟨built_pass LinkedKeyword.byType h₂, ?_⟩
  have hof : (keywords.map (of ps)).map toLinked = keywords.map (LinkedKeyword.of ps) := by
    simp only [List.map_map, Function.comp_def, toLinked_of]
  rw [linkAll, map_toLinked_pass _ h₂, map_toLinked_pass _ h₁, map_toLinked_pass _ h₀, hof,
    LinkedKeyword.linkAll]

end Keywords

end IndexedKeyword

namespace IndexedNode

/-! ## Placeholders -/

section Placeholders

variable {ks : List IndexedKeyword} {t : IndexedNode}

theorem simulates_foldl_merge (h : ∀ k ∈ ks, Built k.trie) :
    Simulates (fun n => ks.foldl (fun n k => n.merge k.trie) n)
      (fun n => (ks.map IndexedKeyword.toLinked).foldl (fun n k => n.merge k.trie) n) := by
  induction ks with
  | nil => exact ⟨fun _ => rfl, fun _ hn => hn, fun _ _ => rfl⟩
  | cons k ks ih =>
    rw [List.forall_mem_cons] at h
    exact (simulates_merge h.1.sound).comp (ih h.2)

theorem simulates_finish (h : ∀ k ∈ ks, Built k.trie) (p : Placeholder) :
    Simulates (finish ks p) (p.finish (ks.map IndexedKeyword.toLinked)) := by
  unfold finish Placeholder.finish
  cases p.returnType with
  | none => exact simulates_describe p.description
  | some type =>
    simp only [List.filter_map]
    refine (simulates_describe p.description).comp (simulates_foldl_merge fun k hk => ?_)
    exact h k (List.mem_of_mem_filter hk)

/-- What the keywords add to the end of an inserted path, edits add to the trie. -/
theorem Built.insertWith_foldl_merge {f : IndexedNode → IndexedNode} {path : List Segment}
    (ht : t.Sound) (h : Built (t.insertWith f path)) (hks : ∀ k ∈ ks, Built k.trie) :
    Built (t.insertWith (fun n => ks.foldl (fun n k => n.merge k.trie) (f n)) path) := by
  induction ks generalizing f with
  | nil => exact h
  | cons k ks ih =>
    rw [List.forall_mem_cons] at hks
    exact ih (h.insertWith_merge ht hks.1) hks.2

theorem Built.insertPlaceholder (ht : Built t) (h : ∀ k ∈ ks, Built k.trie) (ps : Patterns)
    (p : Placeholder) : Built (t.insertPlaceholder ps ks p) := by
  have hinsert :
      Built (t.insertWith (IndexedNode.describe p.description) (Segment.ofPath ps p.path)) :=
    ht.insert (Segment.ofPath ps p.path) p.description
  unfold IndexedNode.insertPlaceholder
  split
  · exact ht
  · unfold finish
    cases p.returnType with
    | none => exact hinsert
    | some type =>
      refine hinsert.insertWith_foldl_merge ht.sound fun k hk => ?_
      exact h k (List.mem_of_mem_filter hk)

theorem Built.toNode_insertPlaceholder (ht : Built t) (h : ∀ k ∈ ks, Built k.trie) (ps : Patterns)
    (p : Placeholder) :
    (t.insertPlaceholder ps ks p).toNode =
      p.insertInto ps (ks.map IndexedKeyword.toLinked) t.toNode := by
  unfold IndexedNode.insertPlaceholder Placeholder.insertInto
  split
  · rfl
  · exact ((simulates_finish h p).insertWith _).toNode t ht.sound

end Placeholders

/-! ## The whole trie -/

/-- The trie of all placeholders and keywords is built by edits, and stands for the trie that is
built without positions. -/
theorem built_trieOf (ps : Patterns) (keywords : List Keyword) (placeholders : List Placeholder) :
    Built (trieOf ps keywords placeholders) ∧
      (trieOf ps keywords placeholders).toNode = Placeholder.trieOf ps keywords placeholders := by
  obtain ⟨hbuilt, hlinked⟩ := IndexedKeyword.built_linkAll ps keywords
  rw [trieOf, Placeholder.trieOf, ← hlinked]
  refine List.foldl_rel (r := fun (t : IndexedNode) n => Built t ∧ t.toNode = n) ⟨.root, rfl⟩ ?_
  rintro p - t _ ⟨ht, rfl⟩
  exact ⟨ht.insertPlaceholder hbuilt ps p, ht.toNode_insertPlaceholder hbuilt ps p⟩

end IndexedNode

/-- In the trie of all placeholders and keywords, siblings have different keys. -/
theorem Placeholder.distinct_trieOf (ps : Patterns) (keywords : List Keyword)
    (placeholders : List Placeholder) : (trieOf ps keywords placeholders).Distinct := by
  obtain ⟨hbuilt, htrie⟩ := IndexedNode.built_trieOf ps keywords placeholders
  rw [← htrie]
  exact hbuilt.sound.distinct

end SkillScript
