import SkillScript.Cursor.Target
import SkillScript.Proofs.Key.Nearest

/-!
# What the queries about the cursor read

The queries read three things of a document: the cursor line, the category of its section and the
text of the excerpt before the cursor (`Document.queries_congr`). All three come from the lines
between the section's key and the cursor, so the rest of the document has no part in an answer.
Past the dash of a list item outside square brackets, the excerpt comes from the lines of that item
on, so the items before it have no part in an answer either.

* `Document.linesBetween_congr`: the lines before the cursor are the same where the lines are.
* `restart_append`: what is before a list item outside square brackets does not reach into it.
* `Document.queries_within_block`, `Document.queries_within_item`: two documents with the same
  block, or with the same last item, get the same answers.
-/

namespace SkillScript

namespace Document

variable {d₁ d₂ : Document}

/-- The queries depend on the cursor line, the category of the section and the text of the excerpt
alone. -/
theorem queries_congr (registry : Registry) {settings : Settings} {l₁ l₂ c : Nat}
    (hline : d₁.line? l₁ = d₂.line? l₂)
    (hsection : d₁.sectionCategory? settings l₁ = d₂.sectionCategory? settings l₂)
    (hexcerpt : (d₁.excerpt ⟨l₁, c⟩).text = (d₂.excerpt ⟨l₂, c⟩).text) :
    d₁.found registry settings ⟨l₁, c⟩ = d₂.found registry settings ⟨l₂, c⟩ ∧
      d₁.category? registry settings ⟨l₁, c⟩ = d₂.category? registry settings ⟨l₂, c⟩ ∧
      d₁.contextOwner? registry settings ⟨l₁, c⟩ = d₂.contextOwner? registry settings ⟨l₂, c⟩ := by
  have htarget : d₁.cursorTarget? settings ⟨l₁, c⟩ = d₂.cursorTarget? settings ⟨l₂, c⟩ := by
    simp only [cursorTarget?, wordAt?, beforeWord?, hline, hsection, hexcerpt]
  refine ⟨?_, ?_, ?_⟩
  · simp only [found, htarget]
  · simp only [category?, htarget]
  · -- The excerpts start on different lines, which the answer does not tell.
    simp only [contextOwner?, argumentContext?, hsection, hexcerpt]
    cases Scope.find? (d₂.excerpt ⟨l₂, c⟩).text <;> rfl

/-! ## The lines before the cursor -/

theorem linesBetween_congr {a b m : Nat} (h : SameLines d₁ a d₂ b m) (c : Nat) :
    d₁.linesBetween a ⟨a + m, c⟩ = d₂.linesBetween b ⟨b + m, c⟩ := by
  simp only [linesBetween, Nat.add_sub_cancel_left, linePrefix?, h m (Nat.le_refl m)]
  refine congrArg (· ++ _) ?_
  apply List.ext_getElem?
  intro j
  rw [List.getElem?_map, List.getElem?_map]
  by_cases hj : j < m
  · simp [hj, h j (Nat.le_of_lt hj)]
  · simp [hj]

/-- The excerpt is the same where the lines from its boundary on are. -/
theorem excerpt_text_congr {a b m : Nat} {k₁ k₂ : Key} (h₁ : d₁.boundary? (a + m) = some k₁)
    (h₂ : d₂.boundary? (b + m) = some k₂) (ha : k₁.line = a) (hb : k₂.line = b)
    (h : SameLines d₁ a d₂ b m) (c : Nat) :
    (d₁.excerpt ⟨a + m, c⟩).text = (d₂.excerpt ⟨b + m, c⟩).text := by
  simp only [excerpt, h₁, h₂, ha, hb, linesBetween_congr h c]

/-! ## Blocks -/

/-- The line on which the block of line `n` starts: line `n` itself when objects are listed under
its key, and else the line of its nearest ancestor. -/
def blockStart? (d : Document) (settings : Settings) (n : Nat) : Option Nat :=
  match d.keyAt? n with
  | some key =>
    if settings.isSkillBearing key.name then some n else (d.ancestors n).head?.map Key.line
  | none => (d.ancestors n).head?.map Key.line

theorem blockStart?_eq (d : Document) (settings : Settings) (n : Nat) :
    d.blockStart? settings n = (d.sectionKey? settings n).map Key.line := by
  unfold blockStart? sectionKey?
  cases h : d.keyAt? n with
  | none => rfl
  | some key =>
    dsimp only
    split
    · rw [Option.map_some, line_of_keyAt? h]
    · rfl

/-- A section's key is on its line or above it. -/
theorem le_of_blockStart? {settings : Settings} {n s : Nat}
    (h : d₁.blockStart? settings n = some s) : s ≤ n := by
  have hancestor : (d₁.ancestors n).head?.map Key.line = some s → s ≤ n := by
    intro h
    obtain ⟨key, hkey, rfl⟩ := Option.map_eq_some_iff.mp h
    obtain ⟨text, htext⟩ := exists_line?_of_ancestors hkey
    exact Nat.le_of_lt ((head?_ancestors_iff htext key).mp hkey).above
  unfold blockStart? at h
  split at h
  · split at h
    · cases h
      exact Nat.le_refl _
    · exact hancestor h
  · exact hancestor h

/-- Where the lines of a block are found elsewhere, they have the same section there. -/
theorem sectionKey?_transport {settings : Settings} {a b m : Nat} {key : Key}
    (h : d₁.sectionKey? settings (a + m) = some key) (ha : key.line = a)
    (hlines : SameLines d₁ a d₂ b m) :
    d₂.sectionKey? settings (b + m) = some { key with line := b } := by
  have hkey : d₂.keyAt? (b + m) = (d₁.keyAt? (a + m)).map ({ · with line := b + m }) :=
    keyAt?_renumber (hlines m (Nat.le_refl m))
  unfold sectionKey? at h ⊢
  rw [hkey]
  cases hown : d₁.keyAt? (a + m) with
  | none =>
    rw [hown] at h
    exact head?_ancestors_transport h ha hlines
  | some own =>
    simp only [hown, Option.map_some] at h ⊢
    split at h
    · next hbearing =>
      cases h
      -- The block is the key line alone.
      have hm : m = 0 := by
        have := line_of_keyAt? hown
        omega
      rw [if_pos hbearing, hm, Nat.add_zero]
    · next hbearing =>
      rw [if_neg hbearing]
      exact head?_ancestors_transport h ha hlines

/-- The text before the cursor is in the block of the cursor line. -/
theorem excerpt_transport {settings : Settings} {a b m : Nat} {key : Key}
    (h : d₁.sectionKey? settings (a + m) = some key) (ha : key.line = a)
    (hlines : SameLines d₁ a d₂ b m) (c : Nat) :
    (d₁.excerpt ⟨a + m, c⟩).text = (d₂.excerpt ⟨b + m, c⟩).text := by
  have hkey : d₂.keyAt? (b + m) = (d₁.keyAt? (a + m)).map ({ · with line := b + m }) :=
    keyAt?_renumber (hlines m (Nat.le_refl m))
  cases hown : d₁.keyAt? (a + m) with
  | some own =>
    rw [hown, Option.map_some] at hkey
    have hline := line_of_keyAt? hown
    have h₁ : d₁.boundary? (a + m + 0) = some own := by simp only [boundary?, Nat.add_zero, hown]
    have h₂ : d₂.boundary? (b + m + 0) = some { own with line := b + m } := by
      simp only [boundary?, Nat.add_zero, hkey]
    have hcursor : SameLines d₁ (a + m) d₂ (b + m) 0 := by
      have := hlines.drop (Nat.le_refl m)
      rwa [Nat.sub_self] at this
    exact excerpt_text_congr h₁ h₂ hline rfl hcursor c
  | none =>
    rw [hown, Option.map_none] at hkey
    simp only [sectionKey?, hown] at h
    have h₁ : d₁.boundary? (a + m) = some key := by simp only [boundary?, hown, h]
    have h₂ : d₂.boundary? (b + m) = some { key with line := b } := by
      simp only [boundary?, hkey, head?_ancestors_transport h ha hlines]
    exact excerpt_text_congr h₁ h₂ ha rfl hlines c

/-- The queries read the block of the cursor line and nothing else: where a document has the lines
from the start of the block to the cursor line, it gives the same answers on the last of them. -/
theorem queries_within_block (d₁ d₂ : Document) (registry : Registry) (settings : Settings)
    (l₁ l₂ c s : Nat) (hs : d₁.blockStart? settings l₁ = some s) (hl₂ : l₁ - s ≤ l₂)
    (hlines : ∀ i ≤ l₁ - s, d₂.line? (l₂ - i) = d₁.line? (l₁ - i)) :
    d₁.found registry settings ⟨l₁, c⟩ = d₂.found registry settings ⟨l₂, c⟩ ∧
      d₁.category? registry settings ⟨l₁, c⟩ = d₂.category? registry settings ⟨l₂, c⟩ ∧
      d₁.contextOwner? registry settings ⟨l₁, c⟩ = d₂.contextOwner? registry settings ⟨l₂, c⟩ := by
  have hle := le_of_blockStart? hs
  rw [blockStart?_eq, Option.map_eq_some_iff] at hs
  obtain ⟨key, hkey, hline⟩ := hs
  -- Number the lines from the start of the block on.
  obtain ⟨m, rfl⟩ : ∃ m, l₁ = s + m := ⟨l₁ - s, by omega⟩
  obtain ⟨b, rfl⟩ : ∃ b, l₂ = b + m := ⟨l₂ - m, by omega⟩
  have hsame : SameLines d₁ s d₂ b m := by
    intro j hj
    have := hlines (m - j) (by omega)
    rwa [show b + m - (m - j) = b + j by omega, show s + m - (m - j) = s + j by omega] at this
  have hsection : d₁.sectionCategory? settings (s + m) = d₂.sectionCategory? settings (b + m) := by
    rw [sectionCategory?, sectionCategory?, hkey, sectionKey?_transport hkey hline hsame]
    rfl
  exact queries_congr registry (hsame m (Nat.le_refl m)).symm hsection
    (excerpt_transport hkey hline hsame c)

/-- The cursor in an argument, with a group left open in the block above and a key below, and the
same block alone. -/
theorem queries_within_block_alone :
    let amount : AttributeEntry :=
      { name := "amount", aliases := ["a"], valueType := none, description := none, default := none
        inlineConditions := false, dataset := none }
    let damage : ObjectEntry :=
      { name := "damage", aliases := ["dmg"], description := none, link := none
        attributes := [amount] }
    let registry := { Registry.empty with mechanics := .ofList [damage] }
    let d₁ := ofText .lineFeed "A:\n- x\x7b\nSkills:\n- x\x7b\x7d\n- dmg\x7ba=2\nB: y".toList
    let d₂ := ofText .lineFeed "Skills:\n- x\x7b\x7d\n- dmg\x7ba=2".toList
    d₁.blockStart? .standard 4 = some 2 ∧ 4 - 2 ≤ 2 ∧
      (∀ i ≤ 4 - 2, d₂.line? (2 - i) = d₁.line? (4 - i)) ∧
      d₁.found registry .standard ⟨4, 8⟩ = .argument ⟨⟨.mechanic, damage, "dmg"⟩, amount⟩ ∧
      d₂.found registry .standard ⟨2, 8⟩ = .argument ⟨⟨.mechanic, damage, "dmg"⟩, amount⟩ := by
  intro amount damage registry d₁ d₂
  have hs : d₁.blockStart? .standard 4 = some 2 := by decide +kernel
  have hlines : ∀ i ≤ 4 - 2, d₂.line? (2 - i) = d₁.line? (4 - i) := by decide +kernel
  have hfound : d₁.found registry .standard ⟨4, 8⟩ =
      .argument ⟨⟨.mechanic, damage, "dmg"⟩, amount⟩ := by decide +kernel
  have h := queries_within_block d₁ d₂ registry .standard 4 2 8 2 hs (by decide) hlines
  exact ⟨hs, by decide, hlines, hfound, h.1.symm.trans hfound⟩

end Document

/-! ## List items -/

/-- The lines that are left when the text starts over at its last list item. -/
def restart (lines : List (List Char)) : List (List Char) := lines.drop (lastItem 0 0 0 lines)

theorem lastItem_append (depth index best : Nat) (as bs : List (List Char)) :
    lastItem depth index best (as ++ bs) =
      lastItem (as.flatten.foldl bracketNest depth) (index + as.length)
        (lastItem depth index best as) bs := by
  induction as generalizing depth index best with
  | nil => rfl
  | cons a as ih =>
    rw [List.cons_append, lastItem, ih, List.flatten_cons, List.foldl_append, List.length_cons,
      Nat.add_comm as.length 1, ← Nat.add_assoc]
    rfl

/-- Only the first line is treated by its number, so further lines may be numbered from anywhere. -/
theorem lastItem_add (k depth : Nat) {index : Nat} (hindex : 0 < index) (best : Nat)
    (lines : List (List Char)) :
    lastItem depth (k + index) (k + best) lines = k + lastItem depth index best lines := by
  induction lines generalizing depth index best with
  | nil => rfl
  | cons line lines ih =>
    have hk : 0 < k + index := Nat.add_pos_right k hindex
    simp only [lastItem, hk, hindex, decide_true, Bool.true_and]
    rw [← ih _ (Nat.succ_pos index), Nat.add_assoc]
    congr 1
    split <;> rfl

/-- The lines before a list item that stands outside square brackets are dropped, whatever they
are. -/
theorem restart_append {before : List (List Char)} (hbefore : before ≠ [])
    (hdepth : before.flatten.foldl bracketNest 0 = 0) {item : List Char} (hitem : startsItem item)
    (rest : List (List Char)) : restart (before ++ item :: rest) = restart (item :: rest) := by
  have hlen : 0 < before.length := List.length_pos_iff.mpr hbefore
  have hlast : lastItem 0 0 0 (before ++ item :: rest) =
      before.length + lastItem 0 0 0 (item :: rest) := by
    rw [lastItem_append, hdepth, Nat.zero_add]
    simp only [lastItem, hlen, hitem, decide_true, Bool.true_and, beq_self_eq_true, ↓reduceIte,
      Nat.lt_irrefl, decide_false, Bool.false_and, Bool.false_eq_true]
    exact lastItem_add before.length _ Nat.zero_lt_one 0 rest
  rw [restart, hlast, List.drop_length_add_append]
  rfl

namespace Document

variable {d d₁ d₂ : Document}

/-- The depth of square brackets at the start of line `n`, counted from just past the colon of the
key on line `k`. -/
def bracketDepth (d : Document) (k n : Nat) : Nat :=
  let value := ((d.line? k).bind KeyLine.parse?).elim [] KeyLine.value
  let lines := (List.range' (k + 1) (n - (k + 1))).map fun m => (d.line? m).getD []
  (value ++ lines.flatten).foldl bracketNest 0

/-- Line `n` starts a list item. If it is the cursor line, the cursor is past the dash. -/
def ItemBefore (d : Document) (n : Nat) (p : Position) : Prop :=
  ∃ text, d.line? n = some text ∧ startsItem text ∧ (n = p.line → indentation text < p.character)

/-- The start of an item starts an item when it reaches past the dash. -/
theorem startsItem_take {text : List Char} {c : Nat} (h : startsItem text)
    (hc : indentation text < c) : startsItem (text.take c) := by
  obtain ⟨rest, hrest⟩ : ∃ rest, text.dropWhile isBlank = '-' :: rest := by
    cases hdrop : text.dropWhile isBlank with
    | nil => simp [startsItem, trimStart, hdrop] at h
    | cons x rest =>
      simp only [startsItem, trimStart, hdrop, List.head?_cons, beq_iff_eq, Option.some.injEq] at h
      exact ⟨rest, by rw [h]⟩
  have htext : text = text.takeWhile isBlank ++ '-' :: rest := by
    rw [← hrest, List.takeWhile_append_dropWhile]
  obtain ⟨more, htake⟩ : ∃ more, text.take c = text.takeWhile isBlank ++ '-' :: more := by
    obtain ⟨k, rfl⟩ : ∃ k, c = indentation text + (k + 1) := ⟨c - indentation text - 1, by omega⟩
    refine ⟨rest.take k, ?_⟩
    calc text.take (indentation text + (k + 1))
      _ = (text.takeWhile isBlank ++ '-' :: rest).take
            ((text.takeWhile isBlank).length + (k + 1)) := by rw [← htext]; rfl
      _ = text.takeWhile isBlank ++ '-' :: rest.take k := by
        rw [List.take_length_add_append, List.take_succ_cons]
  have hblank : ∀ x ∈ text.takeWhile isBlank, isBlank x = true :=
    List.all_eq_true.mp List.all_takeWhile
  have hdash : isBlank '-' = false := by decide
  rw [startsItem, trimStart, htake, List.dropWhile_append_of_pos hblank,
    List.dropWhile_cons_of_neg (by simp [hdash])]
  rfl

/-- The first of the lines before the cursor, when it starts an item. -/
theorem linesBetween_of_itemBefore {i l c : Nat} (hi : i ≤ l) (h : d.ItemBefore i ⟨l, c⟩) :
    ∃ item rest, d.linesBetween i ⟨l, c⟩ = item :: rest ∧ startsItem item := by
  obtain ⟨text, htext, hitem, hcursor⟩ := h
  obtain ⟨m, rfl⟩ : ∃ m, l = i + m := ⟨l - i, by omega⟩
  cases m with
  | zero =>
    refine ⟨text.take c, [], ?_, startsItem_take hitem (hcursor rfl)⟩
    simp [linesBetween, linePrefix?, htext]
  | succ m =>
    have hlines : d.linesBetween i ⟨i + (m + 1), c⟩ =
        text :: d.linesBetween (i + 1) ⟨i + (m + 1), c⟩ := by
      have : i + (m + 1) - (i + 1) = m := by omega
      simp only [linesBetween, Nat.add_sub_cancel_left, List.range'_succ, List.map_cons, htext,
        Option.getD_some, List.cons_append, this]
    exact ⟨text, _, hlines, hitem⟩

/-- The lines from line `k` on are line `k`, the lines up to line `i`, and the lines from there. -/
theorem linesBetween_eq_append {k i l : Nat} (hk : k < i) (hi : i ≤ l) (c : Nat) :
    d.linesBetween k ⟨l, c⟩ = (d.line? k).getD [] ::
      ((List.range' (k + 1) (i - (k + 1))).map fun m => (d.line? m).getD []) ++
        d.linesBetween i ⟨l, c⟩ := by
  have hrange : List.range' k (l - k) =
      k :: (List.range' (k + 1) (i - (k + 1)) ++ List.range' i (l - i)) := by
    have := List.range'_append_1 (s := k + 1) (m := i - (k + 1)) (n := l - i)
    rw [show k + 1 + (i - (k + 1)) = i by omega] at this
    rw [this, ← List.range'_succ]
    congr 1
    omega
  simp only [linesBetween, hrange, List.map_cons, List.map_append, List.append_assoc,
    List.cons_append]

/-- Past a list item outside square brackets, the excerpt comes from the lines of the item on. -/
theorem excerpt_text_of_item {l c i : Nat} {key : Key} (hkey : d.boundary? l = some key)
    (hdefined : d.keyAt? key.line = some key) (hline : key.line < i) (hi : i ≤ l)
    (hitem : d.ItemBefore i ⟨l, c⟩) (hdepth : d.bracketDepth key.line i = 0) :
    (d.excerpt ⟨l, c⟩).text = List.intercalate ['\n'] (restart (d.linesBetween i ⟨l, c⟩)) := by
  obtain ⟨text, htext, hread⟩ := exists_line?_of_keyAt? hdefined
  obtain ⟨k, hparse, -⟩ := Option.map_eq_some_iff.mp hread
  obtain ⟨item, rest, hlines, hstarts⟩ := linesBetween_of_itemBefore hi hitem
  -- The lines before the item are the rest of the key line and those after it.
  have hdrop : dropKey (d.linesBetween key.line ⟨l, c⟩) = (k.value ::
      (List.range' (key.line + 1) (i - (key.line + 1))).map fun m => (d.line? m).getD []) ++
        item :: rest := by
    rw [linesBetween_eq_append hline hi c, htext, hlines]
    simp only [Option.getD_some, List.cons_append, dropKey, hparse]
  rw [excerpt, hkey]
  dsimp only
  rw [hdrop, hlines, ← restart_append (List.cons_ne_nil k.value _) ?_ hstarts rest]
  · rfl
  · simpa [bracketDepth, htext, hparse] using hdepth

/-- The items before the one that the cursor is in have no part in an answer. In two documents with
the same lines from a list item on to the cursor, where the nearest ancestors of the cursor line
have the same category and the item stands outside square brackets, the answers are the same. -/
theorem queries_within_item (d₁ d₂ : Document) (registry : Registry) (settings : Settings)
    (l₁ l₂ c i₁ i₂ : Nat) (k₁ k₂ : Key) (hline : d₁.keyAt? l₁ = none)
    (hk₁ : (d₁.ancestors l₁).head? = some k₁) (hk₂ : (d₂.ancestors l₂).head? = some k₂)
    (hcategory : settings.keyCategory? k₁.name = settings.keyCategory? k₂.name)
    (hi₁ : k₁.line < i₁) (hl₁ : i₁ ≤ l₁) (hitem : d₁.ItemBefore i₁ ⟨l₁, c⟩)
    (hdepth₁ : d₁.bracketDepth k₁.line i₁ = 0) (hdepth₂ : d₂.bracketDepth k₂.line i₂ = 0)
    (hl₂ : l₂ = i₂ + (l₁ - i₁)) (hlines : ∀ j ≤ l₁ - i₁, d₂.line? (i₂ + j) = d₁.line? (i₁ + j)) :
    d₁.found registry settings ⟨l₁, c⟩ = d₂.found registry settings ⟨l₂, c⟩ ∧
      d₁.category? registry settings ⟨l₁, c⟩ = d₂.category? registry settings ⟨l₂, c⟩ ∧
      d₁.contextOwner? registry settings ⟨l₁, c⟩ = d₂.contextOwner? registry settings ⟨l₂, c⟩ := by
  obtain ⟨m, rfl⟩ : ∃ m, l₁ = i₁ + m := ⟨l₁ - i₁, by omega⟩
  rw [Nat.add_sub_cancel_left] at hl₂ hlines
  subst hl₂
  obtain ⟨text, htext⟩ := exists_line?_of_ancestors hk₁
  have hsame : SameLines d₁ i₁ d₂ i₂ m := hlines
  have hcursor := hsame m (Nat.le_refl m)
  have hline₂ : d₂.keyAt? (i₂ + m) = none := by rw [keyAt?_renumber hcursor, hline]; rfl
  have hnear₁ := (head?_ancestors_iff htext k₁).mp hk₁
  have hnear₂ := (head?_ancestors_iff (hcursor.trans htext) k₂).mp hk₂
  -- From the item on there is no ancestor in the second document, as there is none in the first.
  have hi₂ : k₂.line < i₂ := by
    rcases Nat.lt_or_ge k₂.line i₂ with h | h
    · exact h
    · have := hnear₂.transport hsame.symm h
      have := (head?_ancestors_iff htext _).mpr this
      rw [hk₁, Option.some.injEq] at this
      rw [this] at hi₁
      dsimp only at hi₁
      omega
  have hitem₂ : d₂.ItemBefore i₂ ⟨i₂ + m, c⟩ := by
    obtain ⟨item, hitem, hstarts, hpast⟩ := hitem
    have hfirst := hsame 0 (Nat.zero_le m)
    exact ⟨item, hfirst.trans hitem, hstarts, fun h => hpast (by dsimp only at h ⊢; omega)⟩
  have hb₁ : d₁.boundary? (i₁ + m) = some k₁ := by simp only [boundary?, hline, hk₁]
  have hb₂ : d₂.boundary? (i₂ + m) = some k₂ := by simp only [boundary?, hline₂, hk₂]
  refine queries_congr registry hcursor.symm ?_ ?_
  · simp only [sectionCategory?, sectionKey?, hline, hline₂, hk₁, hk₂, Option.bind_some, hcategory]
  · rw [excerpt_text_of_item hb₁ hnear₁.defined hi₁ (by omega) hitem hdepth₁,
      excerpt_text_of_item hb₂ hnear₂.defined hi₂ (by omega) hitem₂ hdepth₂,
      linesBetween_congr hsame c]

/-- An item after one with unclosed braces, and the same item after a list that is closed, under
keys of one category. -/
theorem queries_within_item_unclosed :
    let range : AttributeEntry :=
      { name := "distance", aliases := ["d"], valueType := none, description := none
        default := none, inlineConditions := false, dataset := none }
    let distance : ObjectEntry :=
      { name := "distance", aliases := [], description := none, link := none
        attributes := [range] }
    let registry := { Registry.empty with conditions := .ofList [distance] }
    let d₁ := ofText .lineFeed
      "Conditions:\n- a\x7bb=\x7b\x7b\n- distance\x7b\n  d=1".toList
    let d₂ := ofText .lineFeed
      "A: b\nTargetConditions: [\n- a ]\n- b\n- distance\x7b\n  d=1".toList
    let k₁ : Key := ⟨"Conditions", 0, 0⟩
    let k₂ : Key := ⟨"TargetConditions", 1, 0⟩
    (d₁.keyAt? 3 = none ∧ (d₁.ancestors 3).head? = some k₁ ∧ (d₂.ancestors 5).head? = some k₂ ∧
      Settings.standard.keyCategory? k₁.name = Settings.standard.keyCategory? k₂.name ∧
      d₁.ItemBefore 2 ⟨3, 5⟩ ∧ d₁.bracketDepth 0 2 = 0 ∧ d₂.bracketDepth 1 4 = 0 ∧
      ∀ j ≤ 3 - 2, d₂.line? (4 + j) = d₁.line? (2 + j)) ∧
    d₁.found registry .standard ⟨3, 5⟩ = .argument ⟨⟨.condition, distance, "distance"⟩, range⟩ ∧
    d₂.found registry .standard ⟨5, 5⟩ =
      .argument ⟨⟨.condition, distance, "distance"⟩, range⟩ := by
  intro range distance registry d₁ d₂ k₁ k₂
  have hline : d₁.keyAt? 3 = none := by decide +kernel
  have hk₁ : (d₁.ancestors 3).head? = some k₁ := by decide +kernel
  have hk₂ : (d₂.ancestors 5).head? = some k₂ := by decide +kernel
  have hcategory : Settings.standard.keyCategory? k₁.name =
      Settings.standard.keyCategory? k₂.name := by decide +kernel
  have hitem : d₁.ItemBefore 2 ⟨3, 5⟩ :=
    ⟨"- distance\x7b".toList, by decide +kernel, by decide +kernel, by decide⟩
  have hdepth₁ : d₁.bracketDepth 0 2 = 0 := by decide +kernel
  have hdepth₂ : d₂.bracketDepth 1 4 = 0 := by decide +kernel
  have hlines : ∀ j ≤ 3 - 2, d₂.line? (4 + j) = d₁.line? (2 + j) := by decide +kernel
  have hfound : d₁.found registry .standard ⟨3, 5⟩ =
      .argument ⟨⟨.condition, distance, "distance"⟩, range⟩ := by decide +kernel
  have h := queries_within_item d₁ d₂ registry .standard 3 5 5 2 4 k₁ k₂ hline hk₁ hk₂ hcategory
    (by decide) (by decide) hitem hdepth₁ hdepth₂ rfl hlines
  exact ⟨⟨hline, hk₁, hk₂, hcategory, hitem, hdepth₁, hdepth₂, hlines⟩, hfound,
    h.1.symm.trans hfound⟩

end Document

end SkillScript
