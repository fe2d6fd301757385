import SkillScript.Line.Word
import SkillScript.Proofs.Text.Pieces
import SkillScript.Text.Blank

/-!
# Where a word stands in its line

A word is part of a run of word characters that nothing can be added to. The run is the word with
the dashes before it (`Word.Stands`). The word under the cursor is decided by the run alone, so
every cursor in the run or at one of its ends has the same word under it.

* `Word.stands_of_between`, `Word.Stands.between_eq`: a word is under the cursor just when the
  cursor is in its run.
* `Word.between_of_within`: the word is the same for all cursors from its start to its end.
-/

namespace SkillScript

/-! ## Word characters -/

theorem isBlank_of_isWordChar {c : Char} (h : isWordChar c = true) : isBlank c = false := by
  by_contra hblank
  have hall : (blankRanges.all fun r => (List.range' r.1 (r.2 + 1 - r.1)).all
      fun n => !isWordChar (Char.ofNat n)) = true := by decide +kernel
  have := of_inRanges hall (Bool.not_eq_false _ ▸ hblank)
  rw [Char.ofNat_toNat, h] at this
  cases this

/-- A sigil has no blank and no dash. -/
theorem not_blank_of_mem_sigil {sigil : Option Sigil} {c : Char} (h : c ∈ Sigil.chars sigil) :
    isBlank c = false ∧ c ≠ '-' := by
  have hall : ∀ s : Sigil, s.text.toList.all (fun c => !isBlank c && c != '-') = true := by
    intro s
    cases s <;> decide
  rcases sigil with _ | s
  · cases h
  · simpa using List.all_eq_true.mp (hall s) c h

theorem between_of_wordAt {line : List Char} {cursor : Nat} {w : Word}
    (h : wordAt line cursor = .ok (some w)) :
    ∃ left right, left ++ right = line ∧ Word.between left right = some w := by
  simp only [wordAt] at h
  split at h
  · next left right hsplit => exact ⟨left, right, splitAtByte?_eq_some hsplit, by simpa using h⟩
  · cases h

namespace Word

/-! ## The run of a word -/

/-- `w` stands in a line behind `lead` and some dashes and before `tail`, and no word character is
next to the run of the dashes and the word. -/
structure Stands (w : Word) (lead dashes tail : List Char) : Prop where
  dash : ∀ c ∈ dashes, c = '-'
  chars : ∀ c ∈ w.text, isWordChar c = true
  starts : ∃ c rest, w.text = c :: rest ∧ c ≠ '-'
  leadEnds : ∀ c, lead.reverse.head? = some c → isWordChar c = false
  tailStarts : ∀ c, tail.head? = some c → isWordChar c = false
  sigil : Sigil.splitEnd (dashes ++ lead.reverse) = (w.sigil, w.before.reverse)

variable {w : Word} {lead dashes tail : List Char}

/-- The first character of a word is no blank and no dash. -/
theorem Stands.head (h : w.Stands lead dashes tail) :
    ∃ c rest, w.text = c :: rest ∧ isBlank c = false ∧ c ≠ '-' := by
  obtain ⟨c, rest, htext, hc⟩ := h.starts
  exact ⟨c, rest, htext, isBlank_of_isWordChar (h.chars c (by simp [htext])), hc⟩

theorem Stands.before_append (h : w.Stands lead dashes tail) :
    w.before ++ Sigil.chars w.sigil = lead ++ dashes := by
  have hdashes : dashes.reverse = dashes := by
    rw [List.eq_replicate_of_mem h.dash, List.reverse_replicate]
  have hsplit := congrArg List.reverse (Sigil.splitEnd_append (dashes ++ lead.reverse))
  rw [h.sigil] at hsplit
  simpa [hdashes] using hsplit

/-- With a dash before it, the word has no sigil. -/
theorem Stands.sigil_eq_none (h : w.Stands lead dashes tail) (hne : dashes ≠ []) :
    w.sigil = none := by
  obtain ⟨c, cs, rfl⟩ := List.exists_cons_of_ne_nil hne
  have hsigil := h.sigil
  rw [h.dash c List.mem_cons_self] at hsigil
  exact (congrArg Prod.fst hsigil).symm

theorem Stands.run (h : w.Stands lead dashes tail) :
    ∀ c ∈ dashes ++ w.text, isWordChar c = true := by
  intro c hc
  rcases List.mem_append.mp hc with hc | hc
  · rw [h.dash c hc]
    decide
  · exact h.chars c hc

/-- A word is under every cursor in its run. -/
theorem Stands.between_eq (h : w.Stands lead dashes tail) {a b : List Char}
    (hrun : a ++ b = dashes ++ w.text) : between (lead ++ a) (b ++ tail) = some w := by
  have ha : ∀ c ∈ a.reverse, isWordChar c = true := fun c hc =>
    h.run c (hrun ▸ List.mem_append_left b (List.mem_reverse.mp hc))
  have hb : ∀ c ∈ b, isWordChar c = true := fun c hc =>
    h.run c (hrun ▸ List.mem_append_right a hc)
  obtain ⟨hleft, hlead⟩ := span_append ha h.leadEnds
  obtain ⟨hright, -⟩ := span_append hb h.tailStarts
  obtain ⟨c, rest, htext, hc⟩ := h.starts
  have hdashes : ∀ x ∈ dashes, (x == '-') = true := fun x hx => by simpa using h.dash x hx
  have hword : ∀ x, w.text.head? = some x → (x == '-') = false := by
    intro x hx
    rw [htext, List.head?_cons, Option.some.injEq] at hx
    simpa [← hx] using hc
  obtain ⟨htake, hdrop⟩ := span_append hdashes hword
  have hne : w.text.isEmpty = false := by simp [htext]
  simp only [between, List.reverse_append, hleft, hlead, hright, List.reverse_reverse, hrun, htake,
    hdrop, hne, h.sigil, Bool.false_eq_true, ↓reduceIte]

/-- The cursor is in the run of the word under it. -/
theorem stands_of_between {left right : List Char} (h : between left right = some w) :
    ∃ lead dashes tail a b, w.Stands lead dashes tail ∧ left = lead ++ a ∧ right = b ++ tail ∧
      a ++ b = dashes ++ w.text := by
  unfold between at h
  extract_lets backward run dashes text at h
  have hrun : ∀ c ∈ run, isWordChar c = true := by
    intro c hc
    rcases List.mem_append.mp hc with hc | hc
    · exact List.mem_takeWhile_imp (List.mem_reverse.mp hc)
    · exact List.mem_takeWhile_imp hc
  split at h
  · cases h
  · next hne =>
    refine ⟨(backward.dropWhile isWordChar).reverse, dashes, right.dropWhile isWordChar,
      (backward.takeWhile isWordChar).reverse, right.takeWhile isWordChar, ?_, ?_,
      List.takeWhile_append_dropWhile.symm, ?_⟩
    · obtain ⟨c, rest, htext⟩ := List.exists_cons_of_ne_nil (by simpa using hne : text ≠ [])
      have hhead : (run.dropWhile (· == '-')).head? = some c := congrArg List.head? htext
      have hfirst : c ≠ '-' := by simpa using of_head?_dropWhile hhead
      generalize hsigil : Sigil.splitEnd (dashes ++ backward.dropWhile isWordChar) = split at h
      obtain ⟨sigil, before⟩ := split
      cases h
      refine ⟨fun x hx => by simpa using List.mem_takeWhile_imp hx, fun x hx => ?_,
        ⟨c, rest, htext, hfirst⟩, fun x hx => ?_, fun x hx => of_head?_dropWhile hx, ?_⟩
      · exact hrun x ((List.dropWhile_suffix _).subset hx)
      · rw [List.reverse_reverse] at hx
        exact of_head?_dropWhile hx
      · simpa using hsigil
    · rw [← List.reverse_append, List.takeWhile_append_dropWhile, List.reverse_reverse]
    · cases h
      exact List.takeWhile_append_dropWhile.symm

/-- A cursor from the start of a word to its end splits the word. -/
theorem exists_piece_of_within {left right tail : List Char}
    (hline : left ++ right = w.before ++ Sigil.chars w.sigil ++ w.text ++ tail)
    (hstart : w.start ≤ byteLength left) (hstop : byteLength left ≤ w.stop) :
    ∃ piece rest, left = w.before ++ Sigil.chars w.sigil ++ piece ∧ w.text = piece ++ rest := by
  have hleft : left <+: w.before ++ Sigil.chars w.sigil ++ w.text ++ tail := ⟨right, hline⟩
  have hword : w.before ++ Sigil.chars w.sigil ++ w.text <+:
      w.before ++ Sigil.chars w.sigil ++ w.text ++ tail := List.prefix_append _ _
  obtain ⟨piece, rfl⟩ :=
    prefix_of_byteLength_le ((List.prefix_append _ w.text).trans hword) hleft hstart
  obtain ⟨rest, hrest⟩ := prefix_of_byteLength_le hleft hword hstop
  rw [List.append_assoc] at hrest
  exact ⟨piece, rest, rfl, (List.append_cancel_left hrest).symm⟩

/-- The word is the same for all cursors from its start to its end. -/
theorem between_of_within {left right left' right' : List Char} (h : between left right = some w)
    (hline : left' ++ right' = left ++ right) (hstart : w.start ≤ byteLength left')
    (hstop : byteLength left' ≤ w.stop) : between left' right' = some w := by
  obtain ⟨lead, dashes, tail, a, b, hstands, rfl, rfl, hrun⟩ := stands_of_between h
  have hwhole : lead ++ a ++ (b ++ tail) = w.before ++ Sigil.chars w.sigil ++ w.text ++ tail := by
    rw [hstands.before_append, List.append_assoc, ← List.append_assoc a, hrun]
    simp
  obtain ⟨piece, rest, rfl, htext⟩ := exists_piece_of_within (hline.trans hwhole) hstart hstop
  have hright : right' = rest ++ tail := by
    have := hline.trans hwhole
    rw [htext, List.append_assoc, List.append_assoc _ (piece ++ rest),
      List.append_assoc piece] at this
    exact List.append_cancel_left (List.append_cancel_left this)
  rw [hstands.before_append, hright, List.append_assoc]
  exact hstands.between_eq (by rw [htext, List.append_assoc])

end Word

end SkillScript
