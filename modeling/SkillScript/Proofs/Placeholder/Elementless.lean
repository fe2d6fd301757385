import SkillScript.Proofs.Placeholder.Chains
import SkillScript.Proofs.Text.Pieces

/-!
# Placeholders without an element

A path of points and blanks has no element, so there is no placeholder to insert. Only a blank path
is skipped, though. A path with a point in it leads to the root, which then gets the description of
the placeholder and the keywords for its type, as if it were the end of a placeholder.

* `Segment.ofPath_eq_nil_iff`: which paths have no element.
* `LinkedKeyword.children_eq_nil`: a keyword without an element brings no nodes along.
* `Placeholder.trieOf_without_element`: such a placeholder changes no trie if and only if it is
  skipped or brings nothing along.
-/

namespace SkillScript

/-- A path has no element when there are only blanks between its points. -/
theorem Segment.ofPath_eq_nil_iff {ps : Patterns} {path : String} :
    ofPath ps path = [] ↔
      ∀ piece ∈ splitAtChar '.' path.toList, ∀ c ∈ piece, isBlank c = true := by
  simp [ofPath, List.filter_eq_nil_iff, trim_eq_nil_iff]

/-! ## What goes to the root -/

namespace Node

/-- A live node whose children end nothing has no children. -/
theorem Live.children_eq_nil {n : Node} (h : n.Live) (hends : ∀ q, q ∉ n.ends) :
    n.children = [] := by
  rw [List.eq_nil_iff_forall_not_mem]
  intro c hc
  have hpath : [c.key] ∈ n.paths := cons_mem_pathsTo.mpr ⟨c, hc, rfl, nil_mem_paths⟩
  rcases h _ hpath with hnil | ⟨q, hq, -⟩
  · cases hnil
  · exact hends q hq

theorem merge_of_children_eq_nil {source : Node} (h : source.children = []) (n : Node) :
    n.merge source = n := by
  cases n
  rw [merge, h, graftAll]

end Node

/-- Nothing is spelled by a keyword without an element. -/
theorem notMem_chains₃ {ps : Patterns} {ks : List Keyword} {k : Keyword}
    (hk : Segment.ofPath ps k.path = []) (i : Nat) (q : List String) : q ∉ chains₃ ps ks i k := by
  have hkeys : keysOf ps k.path = [] := by simp [keysOf, hk]
  rintro (((⟨rfl, hne⟩ | ⟨hne, -⟩) | ⟨hne, -⟩) | ⟨hne, -⟩) <;> exact hne hkeys

theorem LinkedKeyword.children_eq_nil {ps : Patterns} {ks : List Keyword} {l : LinkedKeyword}
    (hl : l ∈ linkAll ps ks) (hpath : Segment.ofPath ps l.keyword.path = []) :
    l.trie.children = [] := by
  have hstage := linkAll_stage ps ks
  obtain ⟨i, hi⟩ := List.getElem?_of_mem hl
  refine (hstage.linked l hl).live.children_eq_nil fun q hq => ?_
  exact notMem_chains₃ hpath i q ((hstage.mem i l hi q).mp hq)

namespace Placeholder

/-- There are only blanks between the points of the path. -/
def HasNoElement (e : Placeholder) : Prop :=
  ∀ piece ∈ splitAtChar '.' e.path.toList, ∀ c ∈ piece, isBlank c = true

instance (e : Placeholder) : Decidable e.HasNoElement :=
  decidable_of_iff (((splitAtChar '.' e.path.toList).all (·.all isBlank)) = true)
    (by simp [HasNoElement])

/-- The placeholder has no description, and no keyword with an element may follow its type. -/
structure BringsNothing (ps : Patterns) (ks : List Keyword) (e : Placeholder) : Prop where
  description : e.description = none
  keywords : ∀ type, e.returnType = some type → ∀ k ∈ ks,
    (sameAscii k.originType type ∨ isUniversal k.originType) → Segment.ofPath ps k.path = []

variable {ps : Patterns} {ks : List Keyword} {e : Placeholder}

/-- A placeholder without an element that is not skipped ends at the root. -/
theorem insertInto_of_hasNoElement (h : e.HasNoElement) (hskip : trim e.path.toList ≠ [])
    (ls : List LinkedKeyword) (trie : Node) : insertInto ps ls trie e = e.finish ls trie := by
  have hpath : Segment.ofPath ps e.path = [] := Segment.ofPath_eq_nil_iff.mpr h
  simp [insertInto, hskip, Node.insertWith, hpath]

theorem description_finish (ls : List LinkedKeyword) (e : Placeholder) (trie : Node) :
    (e.finish ls trie).description = (trie.describe e.description).description := by
  unfold finish
  dsimp only
  split
  · rfl
  · exact List.foldlRecOn
      (motive := fun n : Node => n.description = (trie.describe e.description).description)
      _ _ rfl fun n hn l _ => hn

theorem finish_of_bringsNothing (h : e.BringsNothing ps ks) (trie : Node) :
    e.finish (LinkedKeyword.linkAll ps ks) trie = trie := by
  unfold finish
  simp only [h.description, Node.describe]
  split
  · rfl
  · next type htype =>
    have hmerge : ∀ l ∈ (LinkedKeyword.linkAll ps ks).filter (·.appliesTo type), ∀ n : Node,
        n.merge l.trie = n := by
      intro l hl n
      obtain ⟨hl, happlies⟩ := List.mem_filter.mp hl
      have hk : l.keyword ∈ ks := by
        rw [← (LinkedKeyword.linkAll_stage ps ks).keyword]
        exact List.mem_map_of_mem hl
      have hpath := h.keywords type htype _ hk (by simpa [LinkedKeyword.appliesTo] using happlies)
      exact Node.merge_of_children_eq_nil (LinkedKeyword.children_eq_nil hl hpath) n
    refine List.foldlRecOn (motive := (· = trie)) _ _ rfl fun n hn l hl => ?_
    exact (hmerge l hl n).trans hn

/-- A placeholder that every trie stays the same with can be inserted anywhere. -/
theorem trieOf_of_insertInto
    (h : ∀ trie, insertInto ps (LinkedKeyword.linkAll ps ks) trie e = trie)
    (before after : List Placeholder) :
    trieOf ps ks (before ++ e :: after) = trieOf ps ks (before ++ after) := by
  simp only [trieOf, List.foldl_append, List.foldl_cons, h]

/-- What a placeholder without an element brings along is in the trie of it alone. -/
theorem bringsNothing_of_trieOf (h : e.HasNoElement) (hskip : trim e.path.toList ≠ [])
    (hsame : trieOf ps ks [e] = trieOf ps ks []) : e.BringsNothing ps ks := by
  constructor
  · have hroot : (e.finish (LinkedKeyword.linkAll ps ks) Node.root).description = none := by
      rw [← insertInto_of_hasNoElement h hskip]
      exact congrArg Node.description hsame
    rw [description_finish] at hroot
    cases hdescription : e.description with
    | none => rfl
    | some text => simp [hdescription, Node.describe] at hroot
  · intro type htype k hk happlies
    by_contra hpath
    obtain ⟨i, hi⟩ := List.getElem?_of_mem hk
    have hkeys : keysOf ps e.path = [] := by simp [keysOf, Segment.ofPath_eq_nil_iff.mpr h]
    have hchain : keysOf ps k.path ∈ chains₃ ps ks i k := by
      refine .inl (.inl (.inl ⟨rfl, ?_⟩))
      simpa [keysOf] using hpath
    have hend : keysOf ps k.path ∈ (trieOf ps ks [e]).ends := by
      rw [mem_ends_trieOf]
      refine ⟨e, List.mem_singleton_self e, hskip, .inr ⟨type, htype, i, k, hi, happlies, ?_⟩⟩
      rw [hkeys]
      exact ⟨_, hchain, rfl⟩
    rw [hsame] at hend
    exact Node.notMem_ends_leaf _ _ hend

/-- A placeholder whose path has no element changes no trie, wherever in the list it stands, if and
only if its path is blank or it brings nothing along. Otherwise the chains of the keywords for its
type are added at the root. -/
theorem trieOf_without_element (ps : Patterns) (ks : List Keyword) (e : Placeholder)
    (h : e.HasNoElement) :
    ((∀ before after, trieOf ps ks (before ++ e :: after) = trieOf ps ks (before ++ after)) ↔
      trim e.path.toList = [] ∨ e.BringsNothing ps ks) ∧
    (trim e.path.toList ≠ [] → ∀ before after,
      (trieOf ps ks (before ++ e :: after)).ends = (trieOf ps ks (before ++ after)).ends ∪
        {q | ∃ type, e.returnType = some type ∧ ∃ i k, ks[i]? = some k ∧
          (sameAscii k.originType type ∨ isUniversal k.originType) ∧ q ∈ chains₃ ps ks i k}) := by
  refine ⟨⟨fun hsame => ?_, ?_⟩, fun hskip before after => ?_⟩
  · by_cases hskip : trim e.path.toList = []
    · exact .inl hskip
    · exact .inr (bringsNothing_of_trieOf h hskip (hsame [] []))
  · intro hnothing before after
    refine trieOf_of_insertInto (fun trie => ?_) before after
    by_cases hskip : trim e.path.toList = []
    · simp [insertInto, hskip]
    · rw [insertInto_of_hasNoElement h hskip]
      exact finish_of_bringsNothing (hnothing.resolve_left hskip) trie
  · have hkeys : keysOf ps e.path = [] := by simp [keysOf, Segment.ofPath_eq_nil_iff.mpr h]
    have hspelled : e.spelled ps ks = {q | ∃ type, e.returnType = some type ∧ ∃ i k,
        ks[i]? = some k ∧ (sameAscii k.originType type ∨ isUniversal k.originType) ∧
          q ∈ chains₃ ps ks i k} := by
      ext q
      simp [spelled, hkeys, mem_prefixed]
    rw [← hspelled]
    ext q
    simp only [Set.mem_union, mem_ends_trieOf, List.mem_append, List.mem_cons]
    grind

/-- A path of points and blanks, with a type that only a keyword without an element may follow. -/
theorem trieOf_without_element_idle :
    let size : Keyword := ⟨"size", "INTEGER", "INTEGER", none⟩
    let idle : Keyword := ⟨" .", "all", "ALL", none⟩
    let level : Placeholder := ⟨"caster.level", some "INTEGER", none⟩
    let e : Placeholder := ⟨". \t.", some "STRING", none⟩
    e.HasNoElement ∧ e.BringsNothing .builtIn [size, idle] ∧
      trieOf .builtIn [size, idle] [level, e, level] =
        trieOf .builtIn [size, idle] [level, level] := by
  intro size idle level e
  have h : e.HasNoElement := by decide +kernel
  have hnothing : e.BringsNothing .builtIn [size, idle] := by
    refine ⟨rfl, fun type htype k hk happlies => ?_⟩
    obtain rfl : "STRING" = type := Option.some.inj htype
    rcases List.mem_pair.mp hk with rfl | rfl
    · exact absurd happlies (by decide +kernel)
    · decide +kernel
  exact ⟨h, hnothing,
    (trieOf_without_element .builtIn [size, idle] e h).1.mpr (.inr hnothing) [level] [level]⟩

/-- A point alone puts a keyword at the root. -/
theorem trieOf_without_element_grafted :
    let upper : Keyword := ⟨"toupper", "STRING", "STRING", none⟩
    let e : Placeholder := ⟨".", some "STRING", none⟩
    e.HasNoElement ∧ trieOf .builtIn [upper] [e] ≠ trieOf .builtIn [upper] [] ∧
      (trieOf .builtIn [upper] [e]).children.map Node.key = ["toupper"] := by
  intro upper e
  have hkeys : (trieOf .builtIn [upper] [e]).children.map Node.key = ["toupper"] := by
    decide +kernel
  refine ⟨by decide +kernel, fun hsame => ?_, hkeys⟩
  rw [hsame] at hkeys
  cases hkeys

end Placeholder

end SkillScript
