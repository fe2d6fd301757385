import SkillScript.Proofs.Line.Tokens

/-!
# Tokens of a text without its groups

The blanks that divide a text into tokens are those at depth zero, and these are the blanks that
stay when its groups are removed. A closer with nothing open changes neither. So it is the same to
remove the groups of a text and read its tokens, or to read its tokens and remove the groups of
each, but for a token that is nothing but groups (`Token.scan_stripGroupsFrom`).

When no token is, the slots of the two texts have the same numbers, and what is typed of the last
one is the same but for its groups (`stripGroups_commutes`).
-/

namespace SkillScript

section Characters

variable {depth : Nat} {c : Char}

/-- What opens a group and what stands inside one is removed. -/
theorem stripGroupsFrom_inside (h : isOpener c = true ∨ 0 < depth) (cs : List Char) :
    stripGroupsFrom depth (c :: cs) = stripGroupsFrom (nest depth c) cs := by
  rcases h with h | h <;> simp [stripGroupsFrom, h]

/-- What stands outside groups and opens none stays, and the depth stays zero. -/
theorem stripGroupsFrom_outside (h : isOpener c = false) (cs : List Char) :
    stripGroupsFrom 0 (c :: cs) = c :: stripGroupsFrom 0 cs ∧ nest 0 c = 0 := by
  simp [stripGroupsFrom, nest, h]

theorem inside_or_outside (depth : Nat) (c : Char) :
    (isOpener c = true ∨ 0 < depth) ∨ depth = 0 ∧ isOpener c = false := by
  cases isOpener c with
  | true => exact .inl (.inl rfl)
  | false => rcases Nat.eq_zero_or_pos depth with h | h <;> simp [h]

end Characters

/-- Without its groups, a text opens nothing. -/
theorem depthAfter_stripGroupsFrom (depth : Nat) (cs : List Char) :
    depthAfter 0 (stripGroupsFrom depth cs) = 0 := by
  induction cs generalizing depth with
  | nil => rfl
  | cons c cs ih =>
    rcases inside_or_outside depth c with h | ⟨rfl, h⟩
    · rw [stripGroupsFrom_inside h]
      exact ih _
    · obtain ⟨hkeep, hnest⟩ := stripGroupsFrom_outside h cs
      rw [hkeep, depthAfter_cons, hnest]
      exact ih 0

/-- A text that is one token stays free of blanks at depth zero. -/
theorem Solid.stripGroupsFrom {depth : Nat} {cs : List Char} (h : Solid depth cs) :
    Solid 0 (stripGroupsFrom depth cs) := by
  induction cs generalizing depth with
  | nil => trivial
  | cons c cs ih =>
    obtain ⟨hc, hcs⟩ := h
    rcases inside_or_outside depth c with hin | ⟨rfl, hout⟩
    · rw [stripGroupsFrom_inside hin]
      exact ih hcs
    · obtain ⟨hkeep, hnest⟩ := stripGroupsFrom_outside hout cs
      rw [hkeep]
      rw [hnest] at hcs
      refine ⟨hc, ?_⟩
      rw [hnest]
      exact ih hcs

/-- A text that ends in a blank at depth zero still does. -/
theorem Finished.stripGroups {cs : List Char} (h : Finished cs) : Finished (stripGroups cs) := by
  rcases h with rfl | ⟨lead, c, rfl, hlead, hc⟩
  · exact .inl rfl
  · have hkeep := (stripGroupsFrom_outside (Token.isPlain_of_isBlank hc).1 []).1
    refine .inr ⟨SkillScript.stripGroups lead, c, ?_, depthAfter_stripGroupsFrom 0 lead, hc⟩
    rw [SkillScript.stripGroups, stripGroupsFrom_append, hlead, hkeep]
    rfl

namespace Token

theorem texts_cons (offset : Nat) (text : List Char) (rest : List Token) :
    (cons offset text rest).map Token.text = [text].filter (· ≠ []) ++ rest.map Token.text := by
  unfold cons
  by_cases h : text = [] <;> simp [h]

theorem strippedTexts_cons (offset : Nat) (text : List Char) (rest : List Token) :
    ((cons offset text rest).map fun t => stripGroups t.text).filter (· ≠ []) =
      [stripGroups text].filter (· ≠ []) ++
        (rest.map fun t => stripGroups t.text).filter (· ≠ []) := by
  unfold cons
  by_cases h : text = []
  · simp [h, stripGroups, stripGroupsFrom]
  · by_cases hs : stripGroups text = [] <;> simp [h, hs]

/-- Reading a text without its groups goes in step with reading the text. -/
theorem scan_stripGroupsFrom (offset offset' depth : Nat) (cs : List Char) :
    (scan offset' 0 (stripGroupsFrom depth cs)).1 =
        stripGroupsFrom depth (scan offset depth cs).1 ∧
      (scan offset' 0 (stripGroupsFrom depth cs)).2.map Token.text =
        ((scan offset depth cs).2.map fun t => stripGroups t.text).filter (· ≠ []) := by
  induction cs generalizing offset offset' depth with
  | nil => simp [scan, stripGroupsFrom]
  | cons c cs ih =>
    by_cases hsplit : (isBlank c && depth == 0) = true
    · -- The blank stays, and ends a token of either text.
      obtain ⟨hc, rfl⟩ : isBlank c = true ∧ depth = 0 := by simpa using hsplit
      obtain ⟨hkeep, -⟩ := stripGroupsFrom_outside (isPlain_of_isBlank hc).1 cs
      obtain ⟨hfirst, hrest⟩ := ih (offset + c.utf8Size) (offset' + c.utf8Size) 0
      rw [hkeep, scan, if_pos hsplit, scan, if_pos hsplit]
      refine ⟨rfl, ?_⟩
      simp only [texts_cons, strippedTexts_cons, hfirst, hrest]
      rfl
    · have hgoes := goes_on_of_not_split hsplit
      rw [scan_cons_of_not_split hgoes]
      rcases inside_or_outside depth c with hin | ⟨rfl, hout⟩
      · simp only [stripGroupsFrom_inside hin]
        exact ih _ _ _
      · obtain ⟨hkeep, hnest⟩ := stripGroupsFrom_outside hout cs
        obtain ⟨hfirst, hrest⟩ := ih (offset + c.utf8Size) (offset' + c.utf8Size) 0
        rw [hkeep, scan_cons_of_not_split hgoes, hnest]
        refine ⟨?_, hrest⟩
        rw [(stripGroupsFrom_outside hout _).1, hfirst]

/-- The tokens of a text without its groups are those of the text without theirs, where anything is
left. -/
theorem texts_tokenize_stripGroups (cs : List Char) :
    (tokenize (stripGroups cs)).map Token.text =
      ((tokenize cs).map fun t => stripGroups t.text).filter (· ≠ []) := by
  obtain ⟨hfirst, hrest⟩ := scan_stripGroupsFrom 0 0 0 cs
  rw [tokenize, tokenize, texts_cons, strippedTexts_cons]
  exact congrArg₂ _ (congrArg _ (congrArg (fun text => [text]) hfirst)) hrest

end Token

/-- Removing the groups of a text and reading its tokens commute, but for tokens that are nothing
but groups. When there are none, the slot that is being typed has the same number in both texts, and
the token that is being typed is the same without its groups. -/
theorem stripGroups_commutes (text : List Char) :
    (Token.tokenize (stripGroups text)).map Token.text =
        ((Token.tokenize text).map fun t => stripGroups t.text).filter (· ≠ []) ∧
      ((∀ t ∈ Token.tokenize text, stripGroups t.text ≠ []) →
        slotIndex (stripGroups text) = slotIndex text ∧
          typedToken? (stripGroups text) = (typedToken? text).map stripGroups) := by
  refine ⟨Token.texts_tokenize_stripGroups text, fun hall => ?_⟩
  obtain ⟨done, typed, rfl, hdone, htyped⟩ := exists_finished_append text
  have hstrip : stripGroups (done ++ typed) = stripGroups done ++ stripGroups typed := by
    rw [stripGroups, stripGroupsFrom_append, hdone.depthAfter]
    rfl
  rw [tokenize_finished_solid hdone htyped] at hall
  have hdone' := hdone.stripGroups
  have htyped' : Solid 0 (stripGroups typed) := htyped.stripGroupsFrom
  rw [hstrip]
  constructor
  · -- No finished token is lost.
    have hlength : (Token.tokenize (stripGroups done)).length = (Token.tokenize done).length := by
      have htexts := congrArg List.length (Token.texts_tokenize_stripGroups done)
      rwa [List.length_map, List.filter_eq_self.mpr, List.length_map] at htexts
      intro text htext
      obtain ⟨t, ht, rfl⟩ := List.mem_map.mp htext
      simpa using hall t (List.mem_append_left _ ht)
    rw [slotIndex_append hdone' htyped', slotIndex_append hdone htyped, hlength]
  · rw [typedToken?_append hdone' htyped', typedToken?_append hdone htyped]
    by_cases hnil : typed = []
    · simp [hnil, stripGroups, stripGroupsFrom]
    · have hne : stripGroups typed ≠ [] :=
        hall ⟨byteLength done, typed⟩ (by simp [Token.cons, hnil])
      simp [hnil, hne]

/-- A stray closer, a blank inside a group, and a group that is still open. -/
theorem stripGroups_commutes_unclosed :
    let text := "a] b\x7bc d\x7d[e] f\x7bg h".toList
    stripGroups text = "a] b f".toList ∧ (∀ t ∈ Token.tokenize text, stripGroups t.text ≠ []) ∧
      (Token.tokenize text).map Token.text =
        ["a]".toList, "b\x7bc d\x7d[e]".toList, "f\x7bg h".toList] ∧
      slotIndex (stripGroups text) = 2 ∧ slotIndex text = 2 ∧
      typedToken? (stripGroups text) = some "f".toList ∧
      typedToken? text = some "f\x7bg h".toList := by
  intro text
  have hall : ∀ t ∈ Token.tokenize text, stripGroups t.text ≠ [] := by decide +kernel
  have hindex : slotIndex text = 2 := by decide +kernel
  have htyped : typedToken? text = some "f\x7bg h".toList := by decide +kernel
  obtain ⟨hindex', htyped'⟩ := (stripGroups_commutes text).2 hall
  refine ⟨by decide +kernel, hall, by decide +kernel, hindex'.trans hindex, hindex, ?_, htyped⟩
  rw [htyped', htyped]
  decide +kernel

end SkillScript
