import SkillScript.Placeholder.Keyword
import SkillScript.Proofs.Placeholder.PathSets

/-!
# The paths of the placeholder trie

Which paths a trie of placeholders and keywords spells, without the trie. A keyword alone spells its
own path (`chains₀`). Each pass of linking adds, behind the path of a keyword, what the pass before
gave to the keywords that it links (`chains₁`, `chains₂`, `chains₃`). A placeholder spells its own
path and, behind it, the chains of the keywords for its type.

* `Stage`: the linked keywords spell the chains of one pass. A pass takes one stage to the next
  (`Stage.pass`), since it reads every keyword as the pass before left it.
* `linkAll_stage`: the three passes spell `chains₃`.
* `mem_ends_trieOf`, `live_trieOf`: the ends of the trie are the paths that the placeholders spell,
  and its nodes are the prefixes of its ends.
* `spelled_perm`: what a placeholder spells does not depend on the order of the keywords.
-/

namespace SkillScript

/-- The keys of a dotted path. -/
def keysOf (ps : Patterns) (path : String) : List String := (Segment.ofPath ps path).map Segment.key

/-! ## Chains of keywords -/

section Chains

variable (ps : Patterns) (ks : List Keyword)

/-- The paths that start with keyword `k` and go on with a path that `S` gives to a keyword for
which `links` holds. Nothing follows a keyword without an element. -/
def behind (k : Keyword) (links : Nat → Keyword → Prop) (S : Nat → Keyword → Set (List String)) :
    Set (List String) :=
  {q | keysOf ps k.path ≠ [] ∧
    ∃ j m, ks[j]? = some m ∧ links j m ∧ q ∈ prefixed (keysOf ps k.path) (S j m)}

/-- A keyword alone, whatever its number. -/
def chains₀ (_i : Nat) (k : Keyword) : Set (List String) := {q | q = keysOf ps k.path ∧ q ≠ []}

/-- The keyword `k` of number `i`, followed by every other keyword from `ALL`. -/
def chains₁ (i : Nat) (k : Keyword) : Set (List String) :=
  chains₀ ps i k ∪ behind ps ks k (fun j m => j ≠ i ∧ isUniversal m.originType) (chains₀ ps)

/-- After that, a keyword to `ALL` is followed by every other keyword. -/
def chains₂ (i : Nat) (k : Keyword) : Set (List String) :=
  chains₁ ps ks i k ∪
    behind ps ks k (fun j _ => isUniversal k.returnType ∧ j ≠ i) (chains₁ ps ks)

/-- After that, a keyword is followed by every keyword from the type that it returns, itself
included. -/
def chains₃ (i : Nat) (k : Keyword) : Set (List String) :=
  chains₂ ps ks i k ∪
    behind ps ks k (fun _ m => sameAscii m.originType k.returnType) (chains₂ ps ks)

/-- The paths that a placeholder spells: its own, and behind it the chains of the keywords from its
type or from `ALL`. -/
def Placeholder.spelled (e : Placeholder) : Set (List String) :=
  {q | (q = keysOf ps e.path ∧ q ≠ []) ∨
    ∃ type, e.returnType = some type ∧ ∃ i k, ks[i]? = some k ∧
      (sameAscii k.originType type ∨ isUniversal k.originType) ∧
      q ∈ prefixed (keysOf ps e.path) (chains₃ ps ks i k)}

end Chains

/-! ## One keyword behind another -/

namespace LinkedKeyword

/-- The keys of the keyword itself. -/
def keys (k : LinkedKeyword) : List String := k.path.map Segment.key

/-- What holds of every keyword while keywords are linked: its own path is there to be followed, and
every node of its trie but the root leads to an end. -/
structure Linked (k : LinkedKeyword) : Prop where
  start : k.path ≠ [] → k.keys ∈ k.trie.ends
  found : (k.trie.descend? k.path).isSome
  root : [] ∉ k.trie.ends
  live : k.trie.Live

/-- `r` is `t` with the paths of `X` behind its own path. -/
structure Extends (t r : LinkedKeyword) (X : Set (List String)) : Prop where
  keyword : r.keyword = t.keyword
  path : r.path = t.path
  linked : r.Linked
  mem : ∀ q, q ∈ r.trie.ends ↔ q ∈ t.trie.ends ∨ (t.path ≠ [] ∧ q ∈ prefixed t.keys X)

theorem Extends.keys {t r : LinkedKeyword} {X : Set (List String)} (h : Extends t r X) :
    r.keys = t.keys := by
  rw [LinkedKeyword.keys, h.path, LinkedKeyword.keys]

/-- A keyword that nothing follows spells its own path. -/
theorem mem_ends_of (ps : Patterns) (k : Keyword) (i : Nat) (q : List String) :
    q ∈ (of ps k).trie.ends ↔ q ∈ chains₀ ps i k := by
  have hE := (Node.adds_describe k.description).insertWith Node.additive_end
    (Segment.ofPath ps k.path)
  have hroot : q ∉ Node.root.ends := Node.notMem_ends_leaf _ q
  have hmem : q ∈ (of ps k).trie.ends ↔ _ := hE.mem_ends Node.root q
  rw [hmem, or_iff_right hroot]
  simp [Node.inserted, Node.mem_along, chains₀, keysOf]

theorem linked_of (ps : Patterns) (k : Keyword) : Linked (of ps k) where
  start hpath := by
    refine (mem_ends_of ps k 0 _).mpr ⟨rfl, ?_⟩
    simpa [keys] using hpath
  found := by
    by_cases hpath : Segment.ofPath ps k.path = []
    · simp [of, hpath, Node.descend?]
    · have hf : ∀ n : Node, (Node.describe k.description n.markEnd).key = n.key := fun n =>
        (Node.adds_describe (p := fun _ => True) k.description).key n.markEnd
      simpa [of, Node.insert, Node.insertWith, hpath] using
        Node.isSome_descend?_alter hf (Segment.ofPath ps k.path) Node.root
  root h := ((mem_ends_of ps k 0 []).mp h).2 rfl
  live :=
    (Node.live_leaf _).insertWith (Node.adds_describe k.description)
      (Node.adds_describe k.description) (fun _ hr => absurd hr (by simp)) _

/-- A keyword behind another spells its chains behind the path of the other. -/
theorem extends_follow {t s : LinkedKeyword} (ht : t.Linked) (hs : s.Linked) :
    Extends t (t.follow s) s.trie.ends := by
  by_cases hpath : t.path = []
  · have hfollow : t.follow s = t := by simp [follow, hpath]
    rw [hfollow]
    exact ⟨rfl, rfl, ht, fun q => by simp [hpath]⟩
  have hN := Node.adds_merge Node.additive_any s.trie
  have hE := Node.adds_merge Node.additive_end s.trie
  have hfollow : t.follow s = { t with trie := t.trie.alter (·.merge s.trie) t.path } := by
    simp [follow, hpath, Node.graftAt?, ht.found]
  have hmem : ∀ q, q ∈ (t.follow s).trie.ends ↔
      q ∈ t.trie.ends ∨ (t.path ≠ [] ∧ q ∈ prefixed t.keys s.trie.ends) := by
    intro q
    rw [hfollow, (hE.alter Node.additive_end t.path).mem_ends]
    -- The root of `s` is no end, so the merge adds every end of `s`.
    have hroot : ∀ r, r ∈ Node.pathsTo (· = true) s.trie ∧ r ≠ [] ↔ r ∈ s.trie.ends :=
      fun r => ⟨fun h => h.1, fun h => ⟨h, fun hr => hs.root (hr ▸ h)⟩⟩
    simp [Node.mem_along, mem_prefixed, hpath, keys, hroot]
  refine ⟨by rw [hfollow], by rw [hfollow], ⟨fun _ => ?_, ?_, ?_, ?_⟩, hmem⟩
  · have hkeys : (t.follow s).keys = t.keys := by rw [hfollow]; rfl
    rw [hkeys, hmem]
    exact .inl (ht.start hpath)
  · rw [hfollow]
    exact Node.isSome_descend?_alter hN.key t.path t.trie
  · rw [hmem]
    rintro (h | ⟨-, r, -, h⟩)
    · exact ht.root h
    · simp [keys, hpath] at h
  · rw [hfollow]
    exact ht.live.alter hN hE hs.live.covers (ht.start hpath)

/-- A keyword followed by the chosen ones of a list, one after the other. -/
theorem extends_foldl {t : LinkedKeyword} (chosen : LinkedKeyword × Nat → Bool)
    {l : List (LinkedKeyword × Nat)} (ht : t.Linked) (hl : ∀ x ∈ l, x.1.Linked) :
    Extends t (l.foldl (fun t x => if chosen x then t.follow x.1 else t) t)
      {q | ∃ x ∈ l, chosen x ∧ q ∈ x.1.trie.ends} := by
  induction l generalizing t with
  | nil => exact ⟨rfl, rfl, ht, fun q => by simp [mem_prefixed]⟩
  | cons x l ih =>
    have hl' : ∀ y ∈ l, y.1.Linked := fun y hy => hl y (List.mem_cons_of_mem x hy)
    rw [List.foldl_cons]
    by_cases hx : chosen x
    · have h₁ := extends_follow ht (hl x List.mem_cons_self)
      have h₂ := ih h₁.linked hl'
      rw [if_pos hx]
      refine ⟨h₂.keyword.trans h₁.keyword, h₂.path.trans h₁.path, h₂.linked, fun q => ?_⟩
      rw [h₂.mem, h₁.mem, h₁.path, h₁.keys]
      simp only [mem_prefixed, Set.mem_ofPred_eq, List.mem_cons, exists_eq_or_imp, hx, true_and]
      grind
    · have h := ih ht hl'
      rw [if_neg hx]
      refine ⟨h.keyword, h.path, h.linked, fun q => ?_⟩
      rw [h.mem]
      simp [mem_prefixed, hx]

/-! ## The passes -/

/-- The linked keywords `ls` are those of `ks`, in order, and each spells what `S` gives to its
number and itself. -/
structure Stage (ps : Patterns) (ks : List Keyword) (ls : List LinkedKeyword)
    (S : Nat → Keyword → Set (List String)) : Prop where
  keyword : ls.map (·.keyword) = ks
  path : ∀ l ∈ ls, l.path = Segment.ofPath ps l.keyword.path
  linked : ∀ l ∈ ls, l.Linked
  mem : ∀ i l, ls[i]? = some l → ∀ q, q ∈ l.trie.ends ↔ q ∈ S i l.keyword

theorem stage_of (ps : Patterns) (ks : List Keyword) :
    Stage ps ks (ks.map (of ps)) (chains₀ ps) where
  keyword := (List.map_map ..).trans (List.map_id ks)
  path l hl := by
    obtain ⟨k, -, rfl⟩ := List.mem_map.mp hl
    rfl
  linked l hl := by
    obtain ⟨k, -, rfl⟩ := List.mem_map.mp hl
    exact linked_of ps k
  mem i l hl q := by
    rw [List.getElem?_map, Option.map_eq_some_iff] at hl
    obtain ⟨k, -, rfl⟩ := hl
    exact mem_ends_of ps k i q

/-- A pass takes each keyword to itself with the linked ones behind it, all as they were before the
pass. -/
theorem extends_pass {links : Keyword → Nat → Keyword → Nat → Bool} {ls : List LinkedKeyword}
    (hls : ∀ l ∈ ls, l.Linked) {i : Nat} {r : LinkedKeyword} (hr : (pass links ls)[i]? = some r) :
    ∃ t, ls[i]? = some t ∧ Extends t r
      {q | ∃ j s, ls[j]? = some s ∧ links s.keyword j t.keyword i ∧ q ∈ s.trie.ends} := by
  simp only [pass, List.getElem?_map, List.getElem?_zipIdx, Option.map_map,
    Option.map_eq_some_iff] at hr
  obtain ⟨t, ht, rfl⟩ := hr
  have hlinked : ∀ x ∈ ls.zipIdx, x.1.Linked := fun x hx =>
    hls x.1 (List.mem_of_getElem? (List.mem_zipIdx_iff_getElem?.mp hx))
  have h := extends_foldl (fun x => links x.1.keyword x.2 t.keyword i)
    (hls t (List.mem_of_getElem? ht)) hlinked
  have hset : {q | ∃ x ∈ ls.zipIdx, links x.1.keyword x.2 t.keyword i ∧ q ∈ x.1.trie.ends} =
      {q | ∃ j s, ls[j]? = some s ∧ links s.keyword j t.keyword i ∧ q ∈ s.trie.ends} := by
    ext q
    constructor
    · rintro ⟨⟨s, j⟩, hx, h⟩
      exact ⟨j, s, List.mem_zipIdx_iff_getElem?.mp hx, h⟩
    · rintro ⟨j, s, hx, h⟩
      exact ⟨(s, j), List.mem_zipIdx_iff_getElem?.mpr hx, h⟩
  rw [hset] at h
  exact ⟨t, ht, by simpa using h⟩

theorem Stage.pass {ps : Patterns} {ks : List Keyword} {ls : List LinkedKeyword}
    {S : Nat → Keyword → Set (List String)} (h : Stage ps ks ls S)
    (links : Keyword → Nat → Keyword → Nat → Bool) :
    Stage ps ks (pass links ls)
      (fun i k => S i k ∪ behind ps ks k (fun j m => links m j k i) S) where
  keyword := by
    rw [← h.keyword]
    apply List.ext_getElem?
    intro i
    rw [List.getElem?_map, List.getElem?_map]
    cases hr : (LinkedKeyword.pass links ls)[i]? with
    | none =>
      have hlen : (LinkedKeyword.pass links ls).length = ls.length := by simp [LinkedKeyword.pass]
      rw [List.getElem?_eq_none_iff, hlen] at hr
      rw [List.getElem?_eq_none_iff.mpr hr]
    | some r =>
      obtain ⟨t, ht, hx⟩ := extends_pass h.linked hr
      rw [ht, Option.map_some, Option.map_some, hx.keyword]
  path r hr := by
    obtain ⟨i, hi⟩ := List.getElem?_of_mem hr
    obtain ⟨t, ht, hx⟩ := extends_pass h.linked hi
    rw [hx.path, hx.keyword]
    exact h.path t (List.mem_of_getElem? ht)
  linked r hr := by
    obtain ⟨i, hi⟩ := List.getElem?_of_mem hr
    obtain ⟨t, -, hx⟩ := extends_pass h.linked hi
    exact hx.linked
  mem i r hr q := by
    obtain ⟨t, ht, hx⟩ := extends_pass h.linked hr
    have hpath := h.path t (List.mem_of_getElem? ht)
    have hkeys : t.keys = keysOf ps t.keyword.path := by rw [keys, hpath, keysOf]
    have hne : t.path ≠ [] ↔ keysOf ps t.keyword.path ≠ [] := by simp [← hkeys, keys]
    rw [hx.mem, hx.keyword, h.mem i t ht, hkeys, hne, Set.mem_union]
    refine or_congr_right (and_congr_right fun _ => ?_)
    constructor
    · rintro ⟨rest, ⟨j, s, hs, hlinks, hrest⟩, rfl⟩
      refine ⟨j, s.keyword, ?_, hlinks, rest, (h.mem j s hs rest).mp hrest, rfl⟩
      rw [← h.keyword, List.getElem?_map, hs, Option.map_some]
    · rintro ⟨j, m, hm, hlinks, rest, hrest, rfl⟩
      rw [← h.keyword, List.getElem?_map, Option.map_eq_some_iff] at hm
      obtain ⟨s, hs, rfl⟩ := hm
      exact ⟨rest, ⟨j, s, hs, hlinks, (h.mem j s hs rest).mpr hrest⟩, rfl⟩

/-- The three passes give every keyword its chains. -/
theorem linkAll_stage (ps : Patterns) (ks : List Keyword) :
    Stage ps ks (linkAll ps ks) (chains₃ ps ks) := by
  have e₁ : (fun i k => chains₀ ps i k ∪
      behind ps ks k (fun j m => fromAll m j k i) (chains₀ ps)) = chains₁ ps ks := by
    funext i k
    have hlinks : (fun j m => fromAll m j k i = true) =
        fun j m => j ≠ i ∧ isUniversal m.originType := by
      funext j m
      rw [fromAll, Bool.and_eq_true, bne_iff_ne, ne_comm, and_comm]
    rw [chains₁, hlinks]
  have e₂ : (fun i k => chains₁ ps ks i k ∪
      behind ps ks k (fun j m => toAll m j k i) (chains₁ ps ks)) = chains₂ ps ks := by
    funext i k
    have hlinks : (fun j m => toAll m j k i = true) =
        fun j _ => isUniversal k.returnType ∧ j ≠ i := by
      funext j m
      rw [toAll, Bool.and_eq_true, bne_iff_ne, ne_comm]
    rw [chains₂, hlinks]
  have h₁ := (stage_of ps ks).pass fromAll
  rw [e₁] at h₁
  have h₂ := h₁.pass toAll
  rw [e₂] at h₂
  exact h₂.pass byType

end LinkedKeyword

/-! ## The trie -/

namespace Placeholder

/-- What the end of a placeholder is followed by: the chains of the keywords for its type. -/
def followers (p : Bool → Prop) (ls : List LinkedKeyword) (e : Placeholder) : Set (List String) :=
  {q | ∃ type, e.returnType = some type ∧
    ∃ l ∈ ls, l.appliesTo type ∧ q ∈ Node.pathsTo p l.trie ∧ q ≠ []}

theorem adds_finish {p : Bool → Prop} (hp : Node.Additive p) (ls : List LinkedKeyword)
    (e : Placeholder) : Node.Adds p (e.finish ls) (followers p ls e) := by
  have hdesc := Node.adds_describe (p := p) e.description
  cases htype : e.returnType with
  | none =>
    refine ⟨fun n => ?_, fun n keys => ?_⟩
    · rw [finish, htype]; exact hdesc.key n
    · rw [finish, htype, hdesc.mem]; simp [followers, htype]
  | some type =>
    have hmerge := Node.Adds.foldl (l := ls.filter (·.appliesTo type))
      fun l _ => Node.adds_merge hp l.trie
    refine ⟨fun n => ?_, fun n keys => ?_⟩
    · rw [finish, htype]; exact (hmerge.comp hdesc).key n
    · rw [finish, htype, (hmerge.comp hdesc).mem]
      simp [followers, htype, and_assoc]

/-- What one more placeholder adds to the trie. A blank path adds nothing. -/
theorem adds_insertInto {p : Bool → Prop} (hp : Node.Additive p) (ps : Patterns)
    (ls : List LinkedKeyword) (e : Placeholder) :
    Node.Adds p (insertInto ps ls · e) {q | trim e.path.toList ≠ [] ∧
      q ∈ Node.inserted p (keysOf ps e.path) (followers p ls e)} := by
  by_cases hblank : trim e.path.toList = []
  · refine ⟨fun n => ?_, fun n keys => ?_⟩ <;> simp [insertInto, hblank]
  · have h := (adds_finish hp ls e).insertWith hp (Segment.ofPath ps e.path)
    refine ⟨fun n => ?_, fun n keys => ?_⟩
    · rw [insertInto, if_neg (by simpa using hblank), h.key]
    · rw [insertInto, if_neg (by simpa using hblank), h.mem]
      simp [hblank, keysOf]

/-- The ends behind a placeholder are the chains of the keywords for its type. -/
theorem mem_followers {ps : Patterns} {ks : List Keyword} {e : Placeholder} {r : List String} :
    r ∈ followers (· = true) (LinkedKeyword.linkAll ps ks) e ↔
      ∃ type, e.returnType = some type ∧ ∃ i k, ks[i]? = some k ∧
        (sameAscii k.originType type ∨ isUniversal k.originType) ∧ r ∈ chains₃ ps ks i k := by
  have hstage := LinkedKeyword.linkAll_stage ps ks
  refine exists_congr fun type => and_congr_right fun _ => ?_
  constructor
  · rintro ⟨l, hl, happlies, hr, -⟩
    obtain ⟨i, hi⟩ := List.getElem?_of_mem hl
    refine ⟨i, l.keyword, ?_, ?_, (hstage.mem i l hi r).mp hr⟩
    · conv_lhs => rw [← hstage.keyword, List.getElem?_map, hi, Option.map_some]
    · simpa [LinkedKeyword.appliesTo] using happlies
  · rintro ⟨i, k, hk, happlies, hr⟩
    conv_lhs at hk => rw [← hstage.keyword, List.getElem?_map]
    obtain ⟨l, hi, rfl⟩ := Option.map_eq_some_iff.mp hk
    have hl := List.mem_of_getElem? hi
    have hr := (hstage.mem i l hi r).mpr hr
    refine ⟨l, hl, by simpa [LinkedKeyword.appliesTo] using happlies, hr, ?_⟩
    rintro rfl
    exact (hstage.linked l hl).root hr

theorem mem_ends_trieOf (ps : Patterns) (ks : List Keyword) (es : List Placeholder)
    (q : List String) :
    q ∈ (trieOf ps ks es).ends ↔
      ∃ e ∈ es, trim e.path.toList ≠ [] ∧ q ∈ e.spelled ps ks := by
  have hadds := Node.Adds.foldl (l := es) fun e _ =>
    adds_insertInto Node.additive_end ps (LinkedKeyword.linkAll ps ks) e
  have hroot : q ∉ Node.root.ends := Node.notMem_ends_leaf _ q
  rw [trieOf, hadds.mem_ends, or_iff_right hroot]
  refine exists_congr fun e => and_congr_right fun _ => and_congr_right fun _ => ?_
  simp only [Node.inserted, Node.mem_along, mem_followers, spelled, mem_prefixed]
  grind

/-- One more placeholder keeps every node of the trie live. -/
theorem live_insertInto {ps : Patterns} {ls : List LinkedKeyword} (hls : ∀ l ∈ ls, l.Linked)
    {n : Node} (h : n.Live) (e : Placeholder) : (insertInto ps ls n e).Live := by
  unfold insertInto
  split
  · exact h
  · refine h.insertWith (adds_finish Node.additive_any ls e) (adds_finish Node.additive_end ls e)
      ?_ _
    rintro r ⟨type, htype, l, hl, happlies, hr⟩
    rcases (hls l hl).live.covers r hr with rfl | ⟨q, hq, hrq⟩
    · exact .inl rfl
    · exact .inr ⟨q, ⟨type, htype, l, hl, happlies, hq⟩, hrq⟩

theorem live_trieOf (ps : Patterns) (ks : List Keyword) (es : List Placeholder) :
    (trieOf ps ks es).Live := by
  have hls := (LinkedKeyword.linkAll_stage ps ks).linked
  have hrun : ∀ n : Node, n.Live →
      (es.foldl (insertInto ps (LinkedKeyword.linkAll ps ks)) n).Live := by
    induction es with
    | nil => exact fun n h => h
    | cons e es ih => exact fun n h => ih _ (live_insertInto hls h e)
  exact hrun _ (Node.live_leaf _)

end Placeholder

/-! ## The order of keywords -/

/-- The numbers after one more element at the front, which keeps its place. -/
def shiftNumbers (σ : Nat → Nat) : Nat → Nat
  | 0 => 0
  | i + 1 => σ i + 1

/-- The numbers after the first two elements change places. -/
def swapNumbers : Nat → Nat
  | 0 => 1
  | 1 => 0
  | i + 2 => i + 2

theorem injective_shiftNumbers {σ : Nat → Nat} (h : Function.Injective σ) :
    Function.Injective (shiftNumbers σ) := by
  rintro (_ | i) (_ | j) hij
  · rfl
  · cases hij
  · cases hij
  · rw [h (Nat.succ.inj hij)]

theorem injective_swapNumbers : Function.Injective swapNumbers := by
  rintro (_ | _ | i) (_ | _ | j) hij <;> simp [swapNumbers] at hij ⊢
  exact hij

/-- A list in another order has every element at a place of its own. -/
theorem exists_renumbering {α : Type} {l₁ l₂ : List α} (h : l₁.Perm l₂) :
    ∃ σ : Nat → Nat, Function.Injective σ ∧ ∀ i a, l₁[i]? = some a → l₂[σ i]? = some a := by
  induction h with
  | nil => exact ⟨id, Function.injective_id, fun _ _ h => h⟩
  | cons x _ ih =>
    obtain ⟨σ, hσ, hget⟩ := ih
    refine ⟨shiftNumbers σ, injective_shiftNumbers hσ, ?_⟩
    rintro (_ | i) a ha
    · exact ha
    · exact hget i a ha
  | swap x y l =>
    refine ⟨swapNumbers, injective_swapNumbers, ?_⟩
    rintro (_ | _ | i) a ha <;> exact ha
  | trans _ _ ih₁ ih₂ =>
    obtain ⟨σ, hσ, hget⟩ := ih₁
    obtain ⟨τ, hτ, hget'⟩ := ih₂
    exact ⟨τ ∘ σ, hτ.comp hσ, fun i a h => hget' _ a (hget i a h)⟩

section Order

variable {ps : Patterns} {ks ks' : List Keyword} {σ : Nat → Nat}

theorem behind_mono (hget : ∀ i k, ks[i]? = some k → ks'[σ i]? = some k) {k : Keyword}
    {links links' : Nat → Keyword → Prop} {S S' : Nat → Keyword → Set (List String)}
    (hlinks : ∀ j m, links j m → links' (σ j) m) (hS : ∀ j m, S j m ⊆ S' (σ j) m) :
    behind ps ks k links S ⊆ behind ps ks' k links' S' := by
  rintro q ⟨hk, j, m, hm, hl, r, hr, rfl⟩
  exact ⟨hk, σ j, m, hget j m hm, hlinks j m hl, r, hS j m hr, rfl⟩

variable (hσ : Function.Injective σ) (hget : ∀ i k, ks[i]? = some k → ks'[σ i]? = some k)
include hσ hget

theorem chains₁_subset (i : Nat) (k : Keyword) : chains₁ ps ks i k ⊆ chains₁ ps ks' (σ i) k :=
  Set.union_subset_union subset_rfl <|
    behind_mono hget (fun _ _ h => ⟨hσ.ne h.1, h.2⟩) fun _ _ => subset_rfl

theorem chains₂_subset (i : Nat) (k : Keyword) : chains₂ ps ks i k ⊆ chains₂ ps ks' (σ i) k :=
  Set.union_subset_union (chains₁_subset hσ hget i k) <|
    behind_mono hget (fun _ _ h => ⟨h.1, hσ.ne h.2⟩) (chains₁_subset hσ hget)

theorem chains₃_subset (i : Nat) (k : Keyword) : chains₃ ps ks i k ⊆ chains₃ ps ks' (σ i) k :=
  Set.union_subset_union (chains₂_subset hσ hget i k) <|
    behind_mono hget (fun _ _ h => h) (chains₂_subset hσ hget)

end Order

namespace Placeholder

theorem spelled_subset_of_perm {ps : Patterns} {ks ks' : List Keyword} (h : ks.Perm ks')
    (e : Placeholder) : e.spelled ps ks ⊆ e.spelled ps ks' := by
  obtain ⟨σ, hσ, hget⟩ := exists_renumbering h
  rintro q (hq | ⟨type, htype, i, k, hk, happlies, r, hr, rfl⟩)
  · exact .inl hq
  · exact .inr ⟨type, htype, σ i, k, hget i k hk, happlies, r, chains₃_subset hσ hget i k hr, rfl⟩

theorem spelled_perm {ps : Patterns} {ks ks' : List Keyword} (h : ks.Perm ks') (e : Placeholder) :
    e.spelled ps ks = e.spelled ps ks' :=
  (spelled_subset_of_perm h e).antisymm (spelled_subset_of_perm h.symm e)

/-- A trie of placeholders and keywords ends at the paths that its placeholders spell, and its other
nodes are on the way to them. The order of the keywords does not change its ends, nor do the order
and the repetition of placeholders. -/
theorem trieOf_spells (ps : Patterns) (ks : List Keyword) (es : List Placeholder) :
    (trieOf ps ks es).ends =
        {q | ∃ e ∈ es, trim e.path.toList ≠ [] ∧ q ∈ e.spelled ps ks} ∧
      (trieOf ps ks es).paths = {q | q = [] ∨ ∃ e ∈ (trieOf ps ks es).ends, q <+: e} ∧
      ∀ ks' es', ks.Perm ks' → (∀ e, e ∈ es ↔ e ∈ es') →
        (trieOf ps ks' es').ends = (trieOf ps ks es).ends := by
  refine ⟨Set.ext (mem_ends_trieOf ps ks es), (live_trieOf ps ks es).paths_eq, ?_⟩
  intro ks' es' hks hes
  ext q
  rw [mem_ends_trieOf, mem_ends_trieOf]
  refine exists_congr fun e => ?_
  rw [hes e, spelled_perm hks e]

/-- Two keywords that follow each other and themselves, in both orders. -/
theorem trieOf_spells_swapped :
    let size : Keyword := ⟨"size", "ALL", "INTEGER", none⟩
    let add : Keyword := ⟨"add.\x7binteger\x7d", "INTEGER", "INTEGER", none⟩
    let level : Placeholder := ⟨"caster.level", some "integer", none⟩
    [size, add].Perm [add, size] ∧
      (trieOf .builtIn [add, size] [level, level]).ends =
        (trieOf .builtIn [size, add] [level]).ends := by
  intro size add level
  have hperm : [size, add].Perm [add, size] := .swap add size []
  exact ⟨hperm, (trieOf_spells .builtIn [size, add] [level]).2.2 _ _ hperm (by simp)⟩

end Placeholder

end SkillScript
