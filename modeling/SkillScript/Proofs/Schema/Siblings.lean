import SkillScript.Proofs.Schema.Typing

/-!
# The keys that a block has already

`Document.siblingKeys` walks down from a key: its block ends at the first key that is not indented
more, and the least indented keys of the block are the ones that are written already. The ancestors
of a line come from a walk up. Here both are read off the tree of keys: what is in a block
(`Document.InBlock`), and what is a child (`Document.IsChild`).

A child is in the block, and a key of the block that is least indented is a child. So when the
children are all indented alike, the two walks give the same keys
(`Document.siblingKeys_of_children`), and what is offered are the keys that no child has.
-/

namespace SkillScript

namespace Document

variable {d : Document} {parent : Option Key} {key : Key}

/-! ## Keys from top to bottom -/

/-- The keys from line `start` on, from top to bottom. -/
def keysFrom (d : Document) (start : Nat) : List Key :=
  ((d.lines.drop start).zipIdx start).filterMap fun l => Key.parse? l.1 l.2

theorem mem_keysFrom {start : Nat} :
    key ∈ d.keysFrom start ↔ start ≤ key.line ∧ d.keyAt? key.line = some key := by
  have hline : ∀ n, start ≤ n → (d.lines.drop start)[n - start]? = d.line? n := by
    intro n hn
    rw [List.getElem?_drop, Nat.add_sub_cancel' hn]
    rfl
  simp only [keysFrom, List.mem_filterMap, Prod.exists, List.mem_zipIdx_iff_le_and_getElem?_sub]
  constructor
  · rintro ⟨text, n, ⟨hn, htext⟩, hkey⟩
    obtain rfl := Key.line_of_parse? hkey
    rw [hline _ hn] at htext
    exact ⟨hn, (keyAt?_of_line? htext).trans hkey⟩
  · rintro ⟨hn, hkey⟩
    obtain ⟨text, htext, hread⟩ := exists_line?_of_keyAt? hkey
    exact ⟨text, key.line, ⟨hn, (hline _ hn).trans htext⟩, hread⟩

theorem pairwise_keysFrom (d : Document) (start : Nat) :
    (d.keysFrom start).Pairwise fun k k' => k.line < k'.line := by
  have hnumbers : ((d.lines.drop start).zipIdx start).Pairwise fun l l' => l.2 < l'.2 := by
    rw [← List.pairwise_map, List.zipIdx_map_snd]
    exact List.pairwise_lt_range'
  refine List.pairwise_filterMap.mpr (hnumbers.imp ?_)
  intro l l' hlt k hk k' hk'
  rwa [Key.line_of_parse? hk, Key.line_of_parse? hk']

/-- A walk down keeps a key when it keeps every key down to it. -/
theorem mem_takeWhile_iff {keys : List Key} (h : keys.Pairwise fun k k' => k.line < k'.line)
    (p : Key → Bool) :
    key ∈ keys.takeWhile p ↔ key ∈ keys ∧ ∀ k ∈ keys, k.line ≤ key.line → p k = true := by
  induction keys with
  | nil => simp
  | cons first keys ih =>
    obtain ⟨hfirst, hkeys⟩ := List.pairwise_cons.mp h
    have ih := ih hkeys
    by_cases hp : p first = true
    · rw [List.takeWhile_cons_of_pos hp, List.mem_cons, ih]
      constructor
      · rintro (rfl | ⟨hmem, hall⟩)
        · refine ⟨List.mem_cons_self, fun k hk hle => ?_⟩
          rcases List.mem_cons.mp hk with rfl | hk
          · exact hp
          · have := hfirst k hk
            omega
        · refine ⟨List.mem_cons_of_mem _ hmem, fun k hk hle => ?_⟩
          rcases List.mem_cons.mp hk with rfl | hk
          · exact hp
          · exact hall k hk hle
      · rintro ⟨hmem, hall⟩
        rcases List.mem_cons.mp hmem with rfl | hmem
        · exact .inl rfl
        · exact .inr ⟨hmem, fun k hk => hall k (List.mem_cons_of_mem _ hk)⟩
    · rw [List.takeWhile_cons_of_neg hp]
      refine ⟨nofun, fun ⟨hmem, hall⟩ => absurd (hall first List.mem_cons_self ?_) hp⟩
      rcases List.mem_cons.mp hmem with rfl | hmem
      · exact Nat.le_refl _
      · exact Nat.le_of_lt (hfirst key hmem)

/-! ## Blocks -/

/-- `key` is in the block of `parent`: it is below, and it and every key between are indented more.
Without a parent the block is the document. -/
structure InBlock (d : Document) (parent : Option Key) (key : Key) : Prop where
  defined : d.keyAt? key.line = some key
  below : ∀ p ∈ parent, p.line < key.line
  nested : ∀ p ∈ parent, ∀ m, p.line < m → m ≤ key.line → ∀ k, d.keyAt? m = some k →
    p.indent < k.indent

theorem blockKeys_eq (d : Document) (parent : Option Key) (skipped : Nat) :
    d.blockKeys parent skipped =
      ((d.keysFrom (parent.elim 0 (·.line + 1))).takeWhile fun key =>
        parent.all fun p => decide (p.indent < key.indent)).filter (·.line != skipped) := by
  cases parent <;> rfl

theorem pairwise_blockKeys (d : Document) (parent : Option Key) (skipped : Nat) :
    (d.blockKeys parent skipped).Pairwise fun k k' => k.line < k'.line := by
  rw [blockKeys_eq]
  exact ((pairwise_keysFrom d _).sublist (List.takeWhile_sublist _)).filter _

/-- The walk down from a key finds its block. -/
theorem mem_blockKeys {skipped : Nat} (hskipped : d.keyAt? skipped = none) :
    key ∈ d.blockKeys parent skipped ↔ d.InBlock parent key := by
  have hstart : ∀ n, parent.elim 0 (·.line + 1) ≤ n ↔ ∀ p ∈ parent, p.line < n := by
    intro n
    cases parent with
    | none => exact ⟨fun _ => nofun, fun _ => Nat.zero_le n⟩
    | some p => exact ⟨fun h => by rintro _ ⟨⟩; exact h, fun h => h p rfl⟩
  have hall : ∀ k : Key, (parent.all fun p => decide (p.indent < k.indent)) = true ↔
      ∀ p ∈ parent, p.indent < k.indent := by
    intro k
    cases parent <;> simp
  simp only [blockKeys_eq, List.mem_filter, mem_takeWhile_iff (pairwise_keysFrom d _), mem_keysFrom,
    hstart, hall, bne_iff_ne]
  constructor
  · rintro ⟨⟨⟨hbelow, hdefined⟩, hnested⟩, -⟩
    refine ⟨hdefined, hbelow, fun p hp m hm hle k hk => ?_⟩
    have hline := line_of_keyAt? hk
    refine hnested k ⟨fun p' hp' => ?_, hline ▸ hk⟩ (by omega) p hp
    cases Option.mem_unique hp hp'
    omega
  · intro h
    refine ⟨⟨⟨h.below, h.defined⟩, fun k hk hle p hp => ?_⟩, ?_⟩
    · exact h.nested p hp k.line (hk.1 p hp) hle k hk.2
    · intro hline
      rw [← hline, h.defined] at hskipped
      cases hskipped

/-! ## Children -/

/-- The keys whose nearest ancestor is `parent`, or that have no ancestor, from top to bottom. -/
def childKeys (d : Document) (parent : Option Key) : List Key :=
  (d.keysFrom 0).filter fun key => (d.ancestors key.line).head? == parent

/-- `key` is a child of `parent`: it is below and indented more, and no key between is indented less
than `key`. Without a parent, no key above is. -/
structure IsChild (d : Document) (parent : Option Key) (key : Key) : Prop where
  defined : d.keyAt? key.line = some key
  below : ∀ p ∈ parent, p.line < key.line
  nests : ∀ p ∈ parent, p.indent < key.indent
  between : ∀ m, (∀ p ∈ parent, p.line < m) → m < key.line → ∀ k, d.keyAt? m = some k →
    key.indent ≤ k.indent

/-- Of the keys above that are indented less than `floor`, one is the nearest. -/
theorem exists_nearest {n floor : Nat} (habove : key.line < n)
    (hdefined : d.keyAt? key.line = some key) (hnests : key.indent < floor) :
    ∃ found, d.Nearest n floor found := by
  induction n with
  | zero => exact absurd habove (Nat.not_lt_zero _)
  | succ n ih =>
    by_cases hn : ∃ k, d.keyAt? n = some k ∧ k.indent < floor
    · obtain ⟨k, hk, hindent⟩ := hn
      exact ⟨k, (nearest_succ_iff_eq hk hindent).mpr rfl⟩
    · have hfloor : ∀ k, d.keyAt? n = some k → floor ≤ k.indent := fun k hk =>
        Nat.le_of_not_lt fun hlt => hn ⟨k, hk, hlt⟩
      have hne : key.line ≠ n := by
        rintro rfl
        exact hn ⟨key, hdefined, hnests⟩
      obtain ⟨found, hfound⟩ := ih (by omega)
      exact ⟨found, (nearest_succ_iff hfloor).mpr hfound⟩

/-- The walk up from a key finds its nearest ancestor. -/
theorem head?_ancestors_iff_nearest (hkey : d.keyAt? key.line = some key) (p : Key) :
    (d.ancestors key.line).head? = some p ↔ d.Nearest key.line key.indent p := by
  obtain ⟨text, htext, hread⟩ := exists_line?_of_keyAt? hkey
  obtain ⟨k, hk, -⟩ := Option.map_eq_some_iff.mp hread
  have hfloor : nestingFloor text = key.indent := by
    rw [nestingFloor, hk, Key.indent_of_parse? hread]
    rfl
  rw [head?_ancestors_iff htext, hfloor]

theorem mem_childKeys (hparent : ∀ p ∈ parent, d.keyAt? p.line = some p) :
    key ∈ d.childKeys parent ↔ d.IsChild parent key := by
  rw [childKeys, List.mem_filter, mem_keysFrom, beq_iff_eq]
  cases parent with
  | none =>
    constructor
    · rintro ⟨⟨-, hdefined⟩, hnone⟩
      refine ⟨hdefined, nofun, nofun, fun m _ hm k hk => Nat.le_of_not_lt fun hlt => ?_⟩
      have hline := line_of_keyAt? hk
      obtain ⟨p, hp⟩ := exists_nearest (hline ▸ hm) (hline ▸ hk) hlt
      rw [← head?_ancestors_iff_nearest hdefined, hnone] at hp
      cases hp
    · intro h
      refine ⟨⟨Nat.zero_le _, h.defined⟩, Option.eq_none_iff_forall_ne_some.mpr fun p hp => ?_⟩
      rw [head?_ancestors_iff_nearest h.defined] at hp
      have := h.between p.line nofun hp.above p hp.defined
      have := hp.nests
      omega
  | some p =>
    constructor
    · rintro ⟨⟨-, hdefined⟩, hp⟩
      rw [head?_ancestors_iff_nearest hdefined] at hp
      refine ⟨hdefined, ?_, ?_, fun m hm => hp.between m (hm p rfl)⟩
      · rintro _ ⟨⟩
        exact hp.above
      · rintro _ ⟨⟩
        exact hp.nests
    · intro h
      refine ⟨⟨Nat.zero_le _, h.defined⟩, (head?_ancestors_iff_nearest h.defined p).mpr ?_⟩
      refine ⟨h.below p rfl, hparent p rfl, h.nests p rfl, fun m hm => h.between m ?_⟩
      rintro _ ⟨⟩
      exact hm

/-! ## Children and blocks -/

theorem IsChild.inBlock (h : d.IsChild parent key) : d.InBlock parent key := by
  refine ⟨h.defined, h.below, fun p hp m hm hle k hk => ?_⟩
  have hnests := h.nests p hp
  rcases Nat.lt_or_eq_of_le hle with hlt | rfl
  · have hbetween : key.indent ≤ k.indent := by
      refine h.between m (fun p' hp' => ?_) hlt k hk
      cases Option.mem_unique hp hp'
      exact hm
    omega
  · rw [h.defined] at hk
    cases hk
    exact hnests

/-- Every key above one of the block is in the block, as far as the parent. -/
theorem InBlock.of_le {k : Key} (h : d.InBlock parent key) (hk : d.keyAt? k.line = some k)
    (hbelow : ∀ p ∈ parent, p.line < k.line) (hle : k.line ≤ key.line) : d.InBlock parent k :=
  ⟨hk, hbelow, fun p hp m hm hmk => h.nested p hp m hm (Nat.le_trans hmk hle)⟩

/-- The least indented keys of a block are children. -/
theorem InBlock.isChild (h : d.InBlock parent key)
    (hleast : ∀ k, d.InBlock parent k → key.indent ≤ k.indent) : d.IsChild parent key := by
  refine ⟨h.defined, h.below, fun p hp => ?_, fun m hm hlt k hk => hleast k ?_⟩
  · exact h.nested p hp key.line (h.below p hp) (Nat.le_refl _) key h.defined
  · obtain rfl := line_of_keyAt? hk
    exact h.of_le hk hm (Nat.le_of_lt hlt)

/-- When the children are indented alike, the least indented keys of the block are the children. -/
theorem siblingKeys_eq {n : Nat} (hline : d.keyAt? n = none)
    (hparent : ∀ p ∈ parent, d.keyAt? p.line = some p)
    (hindent : ∀ k ∈ d.childKeys parent, ∀ k' ∈ d.childKeys parent, k.indent = k'.indent) :
    d.siblingKeys parent n = (d.childKeys parent).map Key.name := by
  unfold siblingKeys
  extract_lets block
  have hblock : ∀ k, k ∈ block ↔ d.InBlock parent k := fun k => mem_blockKeys hline
  have hchild : ∀ k, k ∈ d.childKeys parent ↔ d.IsChild parent k := fun k => mem_childKeys hparent
  cases hmin : (block.map Key.indent).min? with
  | none =>
    have hempty : block = [] := by simpa using hmin
    have hnone : d.childKeys parent = [] := by
      refine List.eq_nil_iff_forall_not_mem.mpr fun k hk => ?_
      have := (hblock k).mpr ((hchild k).mp hk).inBlock
      rw [hempty] at this
      cases this
    rw [hnone]
    rfl
  | some least =>
    obtain ⟨hmem, hle⟩ := List.min?_eq_some_iff.mp hmin
    obtain ⟨first, hfirst, rfl⟩ := List.mem_map.mp hmem
    have hleast : ∀ k, d.InBlock parent k → first.indent ≤ k.indent := fun k hk =>
      hle _ (List.mem_map_of_mem ((hblock k).mpr hk))
    have hfirst := (hchild first).mpr (((hblock first).mp hfirst).isChild hleast)
    -- Both lists go down the document, so it is enough to compare their members.
    refine congrArg (List.map Key.name) ?_
    refine eq_of_pairwise_of_mem_iff (fun _ _ => Nat.lt_asymm)
      ((pairwise_blockKeys d parent n).filter _) ((pairwise_keysFrom d 0).filter _) fun k => ?_
    rw [List.mem_filter, hblock, beq_iff_eq]
    constructor
    · rintro ⟨hk, hsame⟩
      exact (hchild k).mpr (hk.isChild (hsame ▸ hleast))
    · intro hk
      exact ⟨((hchild k).mp hk).inBlock, hindent k hk first hfirst⟩

end Document

/-! ## What is offered -/

namespace Schema

variable {s : Schema} {datasets : Datasets} {settings : Settings} {d : Document}

/-- On a line without a colon that is no list item, keys are offered. -/
theorem complete_eq_completeKey {p : Position} {typed : List Char}
    (htyped : d.linePrefix? p = some typed) (hcolon : ':' ∉ typed)
    (hdash : (trimStart typed).head? ≠ some '-') :
    s.complete datasets settings d p = s.completeKey datasets d p.line (indentation typed) := by
  have hkey : KeyLine.parse? typed = none := by
    refine Option.eq_none_iff_forall_ne_some.mpr fun k hk => hcolon ?_
    rw [(KeyLine.written_of_parse? hk).line_eq]
    simp
  have hrest : ':' ∉ trimStart typed := fun hmem => hcolon ((List.dropWhile_suffix _).subset hmem)
  simp only [complete, htyped, hkey]
  split
  · next item hitem =>
    rw [hitem] at hdash
    exact absurd rfl hdash
  · simp [hrest]

/-- What is offered as a key are the keys of the mapping at the path that are not written yet. -/
theorem mem_completeKey {n indent : Nat} {c : Candidate} :
    c ∈ s.completeKey datasets d n indent ↔
      ∃ mapping key node,
        s.mappingAt? datasets ((d.ancestorsAt n indent).reverse.map Key.name) = some mapping ∧
        (key, node) ∈ mapping.offers datasets ∧ c = keyCandidate key node ∧
        ∀ name ∈ d.siblingKeys (d.ancestorsAt n indent).head? n, sameAscii name key = false := by
  simp only [completeKey]
  cases hmapping :
      s.mappingAt? datasets ((d.ancestorsAt n indent).reverse.map Key.name) with
  | none => simp
  | some mapping =>
    simp only [Mapping.keyCandidates_eq, List.mem_map, List.mem_filter, Prod.exists,
      Option.some.injEq, Bool.not_eq_true', List.any_eq_false, Bool.not_eq_true]
    constructor
    · rintro ⟨key, node, ⟨hoffer, hnew⟩, rfl⟩
      exact ⟨mapping, key, node, rfl, hoffer, rfl, hnew⟩
    · rintro ⟨_, key, node, rfl, hoffer, rfl, hnew⟩
      exact ⟨key, node, ⟨hoffer, hnew⟩, rfl⟩

end Schema

/-- The keys that a block has already are the children of its key by the walk up, in the order of
the document, whenever these are indented alike. So where keys are offered, the keys of the mapping
are, but for those that are the name of a child of the same parent: no child is offered again, and a
line that is no child hides nothing. -/
theorem Document.siblingKeys_of_children (d : Document) (n : Nat) (parent : Option Key)
    (hline : d.keyAt? n = none) (hparent : ∀ p ∈ parent, d.keyAt? p.line = some p)
    (hindent : ∀ k ∈ d.childKeys parent, ∀ k' ∈ d.childKeys parent, k.indent = k'.indent) :
    d.siblingKeys parent n = (d.childKeys parent).map Key.name ∧
      ∀ (s : Schema) (datasets : Datasets) (settings : Settings) (character : Nat)
        (typed : List Char), d.linePrefix? ⟨n, character⟩ = some typed → ':' ∉ typed →
        (trimStart typed).head? ≠ some '-' →
        let ancestors := d.ancestorsAt n (indentation typed)
        ancestors.head? = parent →
        ∀ c, c ∈ s.complete datasets settings d ⟨n, character⟩ ↔
          ∃ mapping key node,
            s.mappingAt? datasets (ancestors.reverse.map Key.name) = some mapping ∧
            (key, node) ∈ mapping.offers datasets ∧ c = keyCandidate key node ∧
            ∀ k ∈ d.childKeys parent, sameAscii k.name key = false := by
  have hsiblings := siblingKeys_eq hline hparent hindent
  refine ⟨hsiblings, ?_⟩
  intro s datasets settings character typed htyped hcolon hdash ancestors hhead c
  rw [Schema.complete_eq_completeKey htyped hcolon hdash, Schema.mem_completeKey, hhead, hsiblings]
  simp only [ancestors, List.forall_mem_map]

/-- A block with a key above the cursor line and one below, between them a deeper key and behind
them a key of another block. -/
theorem Document.siblingKeys_of_children_half :
    let truth := SchemaNode.ofKind .boolean
    let block : Mapping SchemaNode :=
      ⟨[("A", truth), ("B", truth), ("C", truth), ("D", truth)], none, none⟩
    let s : Schema :=
      ⟨⟨[], none, some { SchemaNode.ofKind .key with children := .inline block }⟩, []⟩
    let d := ofText .lineFeed "M:\n  a: x\n     B: y\n  k\n  C: z\nN:\n  D: 1".toList
    let parent : Key := ⟨"M", 0, 0⟩
    d.keyAt? 3 = none ∧ d.keyAt? 0 = some parent ∧
      d.childKeys (some parent) = [⟨"a", 1, 2⟩, ⟨"C", 4, 2⟩] ∧
      d.siblingKeys (some parent) 3 = ["a", "C"] ∧
      d.linePrefix? ⟨3, 3⟩ = some "  k".toList ∧
      (d.ancestorsAt 3 (indentation "  k".toList)).head? = some parent ∧
      keyCandidate "B" truth ∈ s.complete [] .standard d ⟨3, 3⟩ ∧
      keyCandidate "C" truth ∉ s.complete [] .standard d ⟨3, 3⟩ := by
  intro truth block s d parent
  have hline : d.keyAt? 3 = none := by decide +kernel
  have hkey : d.keyAt? 0 = some parent := by decide +kernel
  have hchildren : d.childKeys (some parent) = [⟨"a", 1, 2⟩, ⟨"C", 4, 2⟩] := by decide +kernel
  have htyped : d.linePrefix? ⟨3, 3⟩ = some "  k".toList := by decide +kernel
  have hpath : d.ancestorsAt 3 (indentation "  k".toList) = [parent] := by decide +kernel
  have hparent : ∀ p ∈ some parent, d.keyAt? p.line = some p := by
    rintro _ ⟨⟩
    exact hkey
  obtain ⟨hsiblings, hoffers⟩ :=
    siblingKeys_of_children d 3 (some parent) hline hparent (by rw [hchildren]; decide)
  have hoffers := hoffers s [] .standard 3 _ htyped (by decide +kernel) (by decide +kernel)
    (by rw [hpath]; rfl)
  rw [hchildren] at hsiblings hoffers
  refine ⟨hline, hkey, hchildren, hsiblings, htyped, by rw [hpath]; rfl, (hoffers _).mpr ?_, ?_⟩
  · refine ⟨block, "B", truth, by rw [hpath]; rfl, ?_, rfl, by decide +kernel⟩
    exact List.mem_cons_of_mem _ List.mem_cons_self
  · intro hmem
    obtain ⟨mapping, key, node, -, -, hcandidate, hnew⟩ := (hoffers _).mp hmem
    obtain rfl : "C" = key := congrArg Candidate.label hcandidate
    exact absurd (hnew ⟨"C", 4, 2⟩ (by simp)) (by simp)

end SkillScript
