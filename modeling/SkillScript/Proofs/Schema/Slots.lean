import Mathlib.Data.List.DropRight
import SkillScript.Proofs.Line.Tokens
import SkillScript.Schema.Values

/-!
# From one value of a line to the next

On a line of several values, completion counts the tokens before the cursor, and a candidate brings
a space behind it that is to lead on to the next value. It does when the candidate is one token
whose groups are closed: in the place of what was typed of a value, it and its space finish the
slot, for whatever text was there before (`Token.finished_append_closed`). The candidates are then
those of the next value with nothing typed of it (`SchemaNode.candidates_next`).
-/

namespace SkillScript

/-! ## The candidates of a slot -/

section Candidates

variable {datasets : Datasets} {settings : Settings}

/-- The candidates of a value lead on to the next one, if there is one. -/
theorem slotCandidates_of_getElem? {entries : List SchemaNode} {index : Nat} {entry : SchemaNode}
    (h : entries[index]? = some entry) (typed : List Char) :
    slotCandidates datasets settings entries index typed =
      if index + 1 < entries.length then
        (entry.candidates datasets settings typed).map Candidate.andNext
      else entry.candidates datasets settings typed := by
  induction entries generalizing index with
  | nil => cases h
  | cons first rest ih =>
    cases index with
    | zero =>
      obtain rfl : first = entry := by simpa using h
      rw [slotCandidates]
      cases rest <;> simp
    | succ index =>
      rw [slotCandidates, ih (by simpa using h)]
      simp

theorem SchemaNode.candidates_of_entries {node : SchemaNode} (h : node.entries ≠ [])
    (typed : List Char) :
    node.candidates datasets settings typed =
      slotCandidates datasets settings node.entries (slotIndex typed) (typedBare typed) := by
  obtain ⟨kind, description, link, values, dataset, entries, children, closesDepth, suffix⟩ := node
  rw [SchemaNode.candidates, if_neg (by simpa using h)]

end Candidates

/-! ## Accepting a candidate -/

/-- On a line of several values, a candidate for a value that is not the last leads on to the next
value, in the place of the token that was being typed. If it is one token with closed groups, but
for spaces behind it, the next slot is being typed, nothing is typed of it yet, the menu opens
again, and it has the candidates of the next value, which lead on in turn if another value
follows. -/
theorem SchemaNode.candidates_next (datasets : Datasets) (settings : Settings) (node : SchemaNode)
    (typed : List Char) (hnext : slotIndex typed + 1 < node.entries.length) :
    ∃ done, done ++ (typedToken? typed).getD [] = typed ∧
      ∀ c ∈ node.candidates datasets settings typed,
        (Token.tokenize (c.insertText.toList.rdropWhile (· == ' '))).length = 1 →
        depthAfter 0 (c.insertText.toList.rdropWhile (· == ' ')) = 0 →
        let accepted := done ++ c.insertText.toList
        slotIndex accepted = slotIndex typed + 1 ∧ typedToken? accepted = none ∧
          c.retrigger = true ∧
          node.candidates datasets settings accepted =
            let candidates := node.entries[slotIndex typed + 1].candidates datasets settings []
            if slotIndex typed + 2 < node.entries.length then candidates.map Candidate.andNext
            else candidates := by
  obtain ⟨done, token, rfl, hdone, htoken⟩ := exists_finished_append typed
  have hindex := slotIndex_append hdone htoken
  refine ⟨done, ?_, fun c hc hsingle hclosed => ?_⟩
  · rw [typedToken?_append hdone htoken]
    by_cases hnil : token = [] <;> simp [hnil]
  have hentries : node.entries ≠ [] := by
    rintro hnil
    rw [hnil] at hnext
    exact absurd hnext (Nat.not_lt_zero _)
  -- The candidate has a space behind it, since its value is not the last.
  have hentry : node.entries[slotIndex (done ++ token)]? =
      some node.entries[slotIndex (done ++ token)] := List.getElem?_eq_getElem (by omega)
  rw [candidates_of_entries hentries, slotCandidates_of_getElem? hentry, if_pos hnext] at hc
  obtain ⟨c', -, rfl⟩ := List.mem_map.mp hc
  have hspaces : ∀ x ∈ c'.andNext.insertText.toList.rtakeWhile (· == ' '), isBlank x = true := by
    intro x hx
    have : x = ' ' := by simpa using List.mem_rtakeWhile_imp hx
    rw [this]
    decide
  have hne : c'.andNext.insertText.toList.rtakeWhile (· == ' ') ≠ [] := by
    simp [Candidate.andNext]
  obtain ⟨hfinished, hlength⟩ := Token.finished_append_closed hdone hclosed hspaces hne
  rw [List.rdropWhile_append_rtakeWhile] at hfinished hlength
  have hslot :
      slotIndex (done ++ c'.andNext.insertText.toList) = slotIndex (done ++ token) + 1 := by
    rw [slotIndex_finished hfinished, hlength, hsingle, hindex]
  have htyped := typedToken?_finished hfinished
  refine ⟨hslot, htyped, rfl, ?_⟩
  rw [candidates_of_entries hentries, hslot, typedBare, htyped,
    slotCandidates_of_getElem? (List.getElem?_eq_getElem hnext)]

/-- The second of three values is half typed, behind a first one with a blank inside its group. -/
theorem SchemaNode.candidates_next_drop :
    let amount := { SchemaNode.ofKind .integer with values := ["1", "1-3"] }
    let chance := { SchemaNode.ofKind .float with values := ["0.5", "1"] }
    let node := { SchemaNode.ofKind .list with entries := [.ofKind .string, amount, chance] }
    let done := "STONE\x7bdata=1 2\x7d ".toList
    slotIndex (done ++ "1-".toList) = 1 ∧ typedToken? (done ++ "1-".toList) = some "1-".toList ∧
      (node.candidates [] .standard (done ++ "1-".toList)).map Candidate.insertText =
        ["1 ", "1-3 "] ∧
      slotIndex (done ++ "1-3 ".toList) = 2 ∧
      node.candidates [] .standard (done ++ "1-3 ".toList) = chance.candidates [] .standard [] := by
  intro amount chance node done
  have hslot : slotIndex (done ++ "1-".toList) = 1 := by decide +kernel
  have htoken : typedToken? (done ++ "1-".toList) = some "1-".toList := by decide +kernel
  have hmem : (Candidate.ofLabel "1-3" .value).andNext ∈
      node.candidates [] .standard (done ++ "1-".toList) := by decide +kernel
  obtain ⟨done', hdone, hnext⟩ :=
    candidates_next [] .standard node (done ++ "1-".toList) (by decide +kernel)
  rw [htoken] at hdone
  obtain rfl : done' = done := List.append_cancel_right hdone
  obtain ⟨hslot', -, -, hcandidates⟩ := hnext _ hmem (by decide +kernel) (by decide +kernel)
  rw [hslot] at hslot'
  simp only [hslot] at hcandidates
  exact ⟨hslot, htoken, by decide +kernel, hslot', hcandidates⟩

end SkillScript
