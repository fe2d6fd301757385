import SkillScript.Proofs.Line.Tokens
import SkillScript.Proofs.Text.Pieces

/-!
# The tokens of a text and what lies between them

A text grows at its end in one of two ways: a blank at depth zero follows, or a token follows where
none is being typed (`text_induction`). The first adds no token and the second adds this one. So the
tokens of a text are pieces of it in order, with something between each two of them
(`Token.stop_lt_offset`, `Token.exists_around`), and what no token covers is exactly the blanks at
depth zero (`Token.not_covers_iff`).
-/

namespace SkillScript

/-- Every text is made by blanks at depth zero and by solid texts behind finished ones. -/
@[elab_as_elim]
theorem text_induction {P : List Char → Prop} (cs : List Char) (nil : P [])
    (blank : ∀ cs c, depthAfter 0 cs = 0 → isBlank c = true → P cs → P (cs ++ [c]))
    (token : ∀ done text, Finished done → Solid 0 text → text ≠ [] → P done → P (done ++ text)) :
    P cs := by
  induction hlength : cs.length using Nat.strongRecOn generalizing cs with
  | ind n ih =>
    obtain ⟨done, text, rfl, hdone, htext⟩ := exists_finished_append cs
    have hbefore : P done := by
      rcases hdone with rfl | ⟨lead, c, rfl, hlead, hc⟩
      · exact nil
      · refine blank lead c hlead hc (ih lead.length ?_ lead rfl)
        simp only [List.length_append, List.length_singleton] at hlength
        omega
    by_cases hnil : text = []
    · rwa [hnil, List.append_nil]
    · exact token done text hdone htext hnil hbefore

/-- A character of two texts in a row is in the first one or in the second one. -/
theorem append_cons_cases {a b before after : List Char} {c : Char}
    (h : a ++ b = before ++ c :: after) :
    (∃ rest, a = before ++ c :: rest) ∨ ∃ lead, before = a ++ lead ∧ b = lead ++ c :: after := by
  rcases List.append_eq_append_iff.mp h with ⟨lead, hbefore, hb⟩ | ⟨rest, ha, hafter⟩
  · exact .inr ⟨lead, hbefore, hb⟩
  · cases rest with
    | nil => exact .inr ⟨[], by simpa using ha.symm, hafter.symm⟩
    | cons x rest =>
      obtain ⟨rfl, -⟩ := List.cons.inj hafter
      exact .inl ⟨rest, ha⟩

namespace Token

/-- Byte `i` belongs to the token. -/
def Covers (t : Token) (i : Nat) : Prop := t.offset ≤ i ∧ i < t.stop

instance (t : Token) (i : Nat) : Decidable (t.Covers i) := inferInstanceAs (Decidable (_ ∧ _))

theorem tokenize_concat_solid {done text : List Char} (hdone : Finished done) (htext : Solid 0 text)
    (hne : text ≠ []) : tokenize (done ++ text) = tokenize done ++ [⟨byteLength done, text⟩] := by
  rw [tokenize_finished_solid hdone htext, cons, if_neg (by simpa using hne)]

/-- Between two tokens there is at least one byte. -/
theorem stop_lt_offset (cs : List Char) :
    (tokenize cs).Pairwise fun t u => t.stop < u.offset := by
  induction cs using text_induction with
  | nil => exact List.Pairwise.nil
  | blank cs c hdepth hc ih => rwa [tokenize_concat_blank hdepth hc]
  | token done text hdone htext hne ih =>
    rw [tokenize_concat_solid hdone htext hne, List.pairwise_append]
    refine ⟨ih, List.pairwise_singleton _ _, fun t ht u hu => ?_⟩
    rw [List.mem_singleton.mp hu]
    exact stop_lt_of_finished hdone t ht

/-- A token is a piece of its text that starts at depth zero, and ends there unless it ends the
text. -/
theorem exists_around {cs : List Char} {t : Token} (h : t ∈ tokenize cs) :
    t.text ≠ [] ∧ ∃ before after, cs = before ++ t.text ++ after ∧ byteLength before = t.offset ∧
      depthAfter 0 before = 0 ∧ (after ≠ [] → depthAfter 0 (before ++ t.text) = 0) := by
  induction cs using text_induction with
  | nil => cases h
  | blank cs c hdepth hc ih =>
    rw [tokenize_concat_blank hdepth hc] at h
    obtain ⟨hne, before, after, rfl, hoffset, hstart, hend⟩ := ih h
    refine ⟨hne, before, after ++ [c], by simp, hoffset, hstart, fun _ => ?_⟩
    by_cases hnil : after = []
    · rwa [hnil, List.append_nil] at hdepth
    · exact hend hnil
  | token done text hdone htext hne ih =>
    rw [tokenize_concat_solid hdone htext hne, List.mem_append, List.mem_singleton] at h
    rcases h with h | rfl
    · obtain ⟨hne, before, after, rfl, hoffset, hstart, hend⟩ := ih h
      refine ⟨hne, before, after ++ text, by simp, hoffset, hstart, fun _ => ?_⟩
      by_cases hnil : after = []
      · simpa [hnil] using hdone.depthAfter
      · exact hend hnil
    · exact ⟨hne, done, [], by simp, rfl, hdone.depthAfter, fun hnil => absurd rfl hnil⟩

/-- In a solid text behind a finished one, no character is a blank at depth zero. -/
theorem not_blank_of_solid {done lead after : List Char} {c : Char} (hdone : Finished done)
    (hsolid : Solid 0 (lead ++ c :: after)) :
    ¬ (isBlank c = true ∧ depthAfter 0 (done ++ lead) = 0) := by
  rintro ⟨hblank, hdepth⟩
  rw [depthAfter_append, hdone.depthAfter] at hdepth
  rcases (solid_append.mp hsolid).2.1 with hc | hpos
  · rw [hblank] at hc
    cases hc
  · omega

/-- What no token covers is a blank at depth zero, and no token covers such a blank. -/
theorem not_covers_iff {cs before after : List Char} {c : Char} (h : cs = before ++ c :: after) :
    (∀ t ∈ tokenize cs, ¬ t.Covers (byteLength before)) ↔
      isBlank c = true ∧ depthAfter 0 before = 0 := by
  have hsize := c.utf8Size_pos
  induction cs using text_induction generalizing after with
  | nil => simp at h
  | blank cs b hdepth hb ih =>
    rw [tokenize_concat_blank hdepth hb]
    rcases List.eq_nil_or_concat' after with rfl | ⟨after, last, rfl⟩
    · obtain ⟨rfl, ⟨⟩⟩ := List.append_inj' h rfl
      refine iff_of_true (fun t ht hcovers => ?_) ⟨hb, hdepth⟩
      have := stop_le_of_mem_tokenize t ht
      have := hcovers.2
      omega
    · rw [← List.cons_append, ← List.append_assoc] at h
      exact ih (List.append_inj_left' h rfl)
  | token done text hdone htext hne ih =>
    rw [tokenize_concat_solid hdone htext hne, List.forall_mem_append, List.forall_mem_singleton]
    rcases append_cons_cases h with ⟨rest, rfl⟩ | ⟨lead, rfl, rfl⟩
    · -- The character is before the new token.
      refine Iff.trans (and_iff_left fun hcovers => ?_) (ih rfl)
      have hstart := hcovers.1
      simp only [byteLength_append, byteLength_cons] at hstart
      omega
    · -- The character is in the new token.
      refine iff_of_false (fun hnone => hnone.2 ?_) (not_blank_of_solid hdone htext)
      simp only [Covers, stop, byteLength_append, byteLength_cons]
      omega

/-- Of two tokens of a text, the later one stands behind the earlier one with something between
them, and the groups of the earlier one are closed. -/
theorem exists_gap {cs : List Char} {t u : Token} (ht : t ∈ tokenize cs) (hu : u ∈ tokenize cs)
    (hlt : t.stop < u.offset) :
    ∃ before gap after, cs = before ++ t.text ++ gap ++ u.text ++ after ∧ gap ≠ [] ∧
      byteLength before = t.offset ∧ byteLength (before ++ t.text ++ gap) = u.offset ∧
      depthAfter 0 (before ++ t.text) = 0 := by
  obtain ⟨-, before, rest, htext, hoffset, -, hend⟩ := exists_around ht
  obtain ⟨-, lead, after, hlead, hlength, -⟩ := exists_around hu
  have hstop : byteLength (before ++ t.text) = t.stop := by
    rw [byteLength_append, hoffset, stop]
  obtain ⟨gap, rfl⟩ : before ++ t.text <+: lead := by
    apply prefix_of_byteLength_le ⟨rest, htext.symm⟩ ⟨u.text ++ after, by rw [hlead]; simp⟩
    omega
  have hgap : gap ≠ [] := by
    rintro rfl
    rw [List.append_nil, hstop] at hlength
    omega
  have hrest : rest ≠ [] := by
    rintro rfl
    rw [List.append_nil] at htext
    rw [htext, List.append_assoc, List.append_assoc, List.self_eq_append_right] at hlead
    exact hgap (List.append_eq_nil_iff.mp hlead).1
  exact ⟨before, gap, after, hlead, hgap, hoffset, hlength, hend hrest⟩

/-- The tokens of a text are non-empty pieces of it in order, each at its offset and behind closed
groups. Two tokens in a row have at least one character between them, and the groups of the first of
them are closed. A character is in no token if and only if it is a blank at depth zero. -/
theorem tokenize_partition (cs : List Char) :
    ((tokenize cs).map offset).Pairwise (· < ·) ∧
    (∀ t ∈ tokenize cs, t.text ≠ [] ∧ ∃ before after, cs = before ++ t.text ++ after ∧
      byteLength before = t.offset ∧ depthAfter 0 before = 0) ∧
    (∀ first t u last, tokenize cs = first ++ t :: u :: last →
      ∃ before gap after, cs = before ++ t.text ++ gap ++ u.text ++ after ∧ gap ≠ [] ∧
        byteLength before = t.offset ∧ byteLength (before ++ t.text ++ gap) = u.offset ∧
        depthAfter 0 (before ++ t.text) = 0) ∧
    ∀ before c after, cs = before ++ c :: after →
      ((∀ t ∈ tokenize cs, ¬ t.Covers (byteLength before)) ↔
        isBlank c = true ∧ depthAfter 0 before = 0) := by
  have hgaps := stop_lt_offset cs
  refine ⟨?_, fun t ht => ?_, fun first t u last htokens => ?_, fun _ _ _ h => not_covers_iff h⟩
  · refine List.Pairwise.map offset (fun t u hlt => ?_) hgaps
    exact Nat.lt_of_le_of_lt (Nat.le_add_right _ _) hlt
  · obtain ⟨hne, before, after, htext, hoffset, hstart, -⟩ := exists_around ht
    exact ⟨hne, before, after, htext, hoffset, hstart⟩
  · have hlt : t.stop < u.offset := by
      rw [htokens, List.pairwise_append, List.pairwise_cons] at hgaps
      exact hgaps.2.1.1 u List.mem_cons_self
    exact exists_gap (by simp [htokens]) (by simp [htokens]) hlt

/-- A closer that closes nothing, an object with a blank among its arguments, and one whose group is
left open. The blanks inside the groups belong to the tokens, and the one between them does not. -/
theorem tokenize_partition_unclosed :
    let cs := "\x7d é\x7ba b\x7d\u3000ü\x7bc d".toList
    tokenize cs = [⟨0, "\x7d".toList⟩, ⟨2, "é\x7ba b\x7d".toList⟩, ⟨12, "ü\x7bc d".toList⟩] ∧
      (∃ before gap after,
        cs = before ++ "é\x7ba b\x7d".toList ++ gap ++ "ü\x7bc d".toList ++ after ∧ gap ≠ [] ∧
        byteLength before = 2 ∧ depthAfter 0 (before ++ "é\x7ba b\x7d".toList) = 0) ∧
      (∀ t ∈ tokenize cs, ¬ t.Covers 9) ∧ ¬ ∀ t ∈ tokenize cs, ¬ t.Covers 16 := by
  intro cs
  have htokens : tokenize cs =
      [⟨0, "\x7d".toList⟩] ++ ⟨2, "é\x7ba b\x7d".toList⟩ :: ⟨12, "ü\x7bc d".toList⟩ :: [] := by
    decide +kernel
  obtain ⟨-, -, hgap, hcovers⟩ := tokenize_partition cs
  obtain ⟨before, gap, after, htext, hne, hoffset, -, hend⟩ := hgap _ _ _ _ htokens
  have hwide : cs = "\x7d é\x7ba b\x7d".toList ++ '\u3000' :: "ü\x7bc d".toList := by decide +kernel
  have hinner : cs = "\x7d é\x7ba b\x7d\u3000ü\x7bc".toList ++ ' ' :: "d".toList := by
    decide +kernel
  refine ⟨htokens, ⟨before, gap, after, htext, hne, hoffset, hend⟩, ?_, ?_⟩
  · exact (hcovers _ _ _ hwide).mpr (by decide +kernel)
  · exact fun h => absurd ((hcovers _ _ _ hinner).mp h) (by decide +kernel)

end Token

end SkillScript
