import Mathlib.Data.List.Induction
import SkillScript.Proofs.Line.Enclosing

/-!
# Where the tokens of a text end

A blank at depth zero ends a token, and nothing else does. A text that is empty or ends in such a
blank is finished (`Finished`): its tokens stay what they are whatever follows, and what follows has
the tokens that it has alone, moved behind the text (`Token.tokenize_append_finished`). A text
without such a blank is one token (`Solid`).

Every text is a finished text and a solid one behind it (`exists_finished_append`). The solid part
is the token that is still being typed (`typedToken?_append`), and the slot being typed has the
number of tokens in the finished part (`slotIndex_append`).
-/

namespace SkillScript

/-! ## Finished and solid texts -/

/-- The text is empty or ends in a blank at depth zero. -/
def Finished (cs : List Char) : Prop :=
  cs = [] ∨ ∃ lead c, cs = lead ++ [c] ∧ depthAfter 0 lead = 0 ∧ isBlank c = true

/-- No blank of the text is at depth zero, when the text starts at `depth`. -/
def Solid (depth : Nat) : List Char → Prop
  | [] => True
  | c :: cs => (isBlank c = false ∨ 0 < depth) ∧ Solid (nest depth c) cs

theorem nest_blank {c : Char} (h : isBlank c = true) (depth : Nat) : nest depth c = depth :=
  nest_plain (Token.isPlain_of_isBlank h)

theorem Finished.depthAfter {cs : List Char} (h : Finished cs) : depthAfter 0 cs = 0 := by
  rcases h with rfl | ⟨lead, c, rfl, hlead, hc⟩
  · rfl
  · rw [depthAfter_append, hlead, depthAfter_cons, nest_blank hc, depthAfter_nil]

theorem solid_append {depth : Nat} {a b : List Char} :
    Solid depth (a ++ b) ↔ Solid depth a ∧ Solid (depthAfter depth a) b := by
  induction a generalizing depth with
  | nil => simp [Solid]
  | cons c a ih => simp [Solid, ih, and_assoc]

/-- Every text is a finished one and a solid one behind it. -/
theorem exists_finished_append (cs : List Char) :
    ∃ done typed, cs = done ++ typed ∧ Finished done ∧ Solid 0 typed := by
  -- A further character ends the last token if it is a blank at depth zero, and else goes on with
  -- it.
  induction cs using List.reverseRecOn with
  | nil => exact ⟨[], [], rfl, .inl rfl, trivial⟩
  | append_singleton cs c ih =>
    obtain ⟨done, typed, rfl, hdone, htyped⟩ := ih
    have hdepth : depthAfter 0 (done ++ typed) = depthAfter 0 typed := by
      rw [depthAfter_append, hdone.depthAfter]
    by_cases hc : isBlank c = true ∧ depthAfter 0 typed = 0
    · refine ⟨done ++ typed ++ [c], [], (List.append_nil _).symm, .inr ?_, trivial⟩
      exact ⟨done ++ typed, c, rfl, hdepth.trans hc.2, hc.1⟩
    · refine ⟨done, typed ++ [c], List.append_assoc done typed [c], hdone, ?_⟩
      rw [solid_append]
      refine ⟨htyped, ?_, trivial⟩
      by_cases hblank : isBlank c = true
      · exact .inr (Nat.pos_of_ne_zero fun hzero => hc ⟨hblank, hzero⟩)
      · exact .inl (by simpa using hblank)

namespace Token

/-! ## Tokens behind a blank -/

/-- The token `n` bytes further on. -/
def shift (n : Nat) (t : Token) : Token := { t with offset := n + t.offset }

theorem map_shift_cons (n offset : Nat) (text : List Char) (rest : List Token) :
    (cons offset text rest).map (shift n) = cons (n + offset) text (rest.map (shift n)) := by
  unfold cons
  split <;> rfl

theorem scan_shift (n offset depth : Nat) (cs : List Char) :
    scan (n + offset) depth cs =
      ((scan offset depth cs).1, (scan offset depth cs).2.map (shift n)) := by
  induction cs generalizing offset depth with
  | nil => rfl
  | cons c cs ih =>
    simp only [scan, Nat.add_assoc, ih]
    split
    · simp only [map_shift_cons]
    · rfl

/-- What a blank at depth zero separates from a text is read on its own. -/
theorem scan_append_blank (offset : Nat) {depth : Nat} {a : List Char}
    (ha : depthAfter depth a = 0) {c : Char} (hc : isBlank c = true) (b : List Char) :
    scan offset depth (a ++ c :: b) =
      ((scan offset depth a).1, (scan offset depth a).2 ++
        (tokenize b).map (shift (offset + byteLength a + c.utf8Size))) := by
  induction a generalizing offset depth with
  | nil =>
    obtain rfl : depth = 0 := ha
    have hscan := scan_shift (offset + c.utf8Size) 0 0 b
    rw [Nat.add_zero] at hscan
    simp [scan, hc, hscan, tokenize, map_shift_cons]
  | cons x a ih =>
    have hsize : offset + byteLength (x :: a) = offset + x.utf8Size + byteLength a := by
      rw [byteLength_cons, Nat.add_assoc]
    by_cases hx : (isBlank x && depth == 0) = true
    · obtain ⟨hblank, rfl⟩ : isBlank x = true ∧ depth = 0 := by simpa using hx
      have ha' : depthAfter 0 a = 0 := by rwa [depthAfter_cons, nest_blank hblank] at ha
      rw [List.cons_append, scan, if_pos hx, ih _ ha', scan, if_pos hx, hsize]
      simp only [cons_append]
    · rw [List.cons_append, scan, if_neg hx, ih _ ha, scan, if_neg hx, hsize]

theorem tokenize_append_blank {a : List Char} (ha : depthAfter 0 a = 0) {c : Char}
    (hc : isBlank c = true) (b : List Char) :
    tokenize (a ++ c :: b) =
      tokenize a ++ (tokenize b).map (shift (byteLength a + c.utf8Size)) := by
  have h := scan_append_blank 0 ha hc b
  rw [Nat.zero_add] at h
  rw [tokenize, h, tokenize]
  exact cons_append ..

/-- A blank at depth zero is no token. -/
theorem tokenize_concat_blank {a : List Char} (ha : depthAfter 0 a = 0) {c : Char}
    (hc : isBlank c = true) : tokenize (a ++ [c]) = tokenize a := by
  rw [tokenize_append_blank ha hc []]
  exact List.append_nil _

/-- Blanks behind a text whose groups are closed open nothing and are no token. -/
theorem tokenize_append_blanks {a blanks : List Char} (ha : depthAfter 0 a = 0)
    (hblanks : ∀ c ∈ blanks, isBlank c = true) :
    depthAfter 0 (a ++ blanks) = 0 ∧ tokenize (a ++ blanks) = tokenize a := by
  induction blanks generalizing a with
  | nil => simp [ha]
  | cons c blanks ih =>
    have hc := hblanks c List.mem_cons_self
    have hdepth : depthAfter 0 (a ++ [c]) = 0 := Finished.depthAfter (.inr ⟨a, c, rfl, ha, hc⟩)
    have hrest := ih hdepth fun x hx => hblanks x (List.mem_cons_of_mem c hx)
    rwa [List.append_assoc, List.singleton_append, tokenize_concat_blank ha hc] at hrest

/-- The tokens of a finished text stay, and what follows has the tokens that it has alone. -/
theorem tokenize_append_finished {done : List Char} (h : Finished done) (b : List Char) :
    tokenize (done ++ b) = tokenize done ++ (tokenize b).map (shift (byteLength done)) := by
  rcases h with rfl | ⟨lead, c, rfl, hlead, hc⟩
  · have hzero : shift 0 = id := by
      funext t
      simp [shift]
    simp [hzero, tokenize, scan, cons]
  · rw [tokenize_concat_blank hlead hc, List.append_assoc, List.singleton_append,
      tokenize_append_blank hlead hc, byteLength_append]
    rfl

/-- Behind a text whose groups are closed, blanks finish it. -/
theorem finished_append_blanks {a blanks : List Char} (ha : depthAfter 0 a = 0)
    (hblanks : ∀ c ∈ blanks, isBlank c = true) (hne : blanks ≠ []) : Finished (a ++ blanks) := by
  obtain ⟨others, c, rfl⟩ : ∃ others c, blanks = others ++ [c] :=
    ⟨_, _, (List.dropLast_concat_getLast hne).symm⟩
  have hothers : ∀ x ∈ others, isBlank x = true := fun x hx =>
    hblanks x (List.mem_append_left [c] hx)
  exact .inr ⟨a ++ others, c, by simp, (tokenize_append_blanks ha hothers).1, hblanks c (by simp)⟩

/-- Behind a finished text, a text whose groups are closed and blanks make a finished text, with the
tokens of both. -/
theorem finished_append_closed {done closed blanks : List Char} (hdone : Finished done)
    (hclosed : depthAfter 0 closed = 0) (hblanks : ∀ c ∈ blanks, isBlank c = true)
    (hne : blanks ≠ []) :
    Finished (done ++ (closed ++ blanks)) ∧
      (tokenize (done ++ (closed ++ blanks))).length =
        (tokenize done).length + (tokenize closed).length := by
  constructor
  · rw [← List.append_assoc]
    refine finished_append_blanks ?_ hblanks hne
    rw [depthAfter_append, hdone.depthAfter, hclosed]
  · rw [tokenize_append_finished hdone, List.length_append, List.length_map,
      (tokenize_append_blanks hclosed hblanks).2]

/-! ## Solid texts -/

theorem scan_solid {depth : Nat} {cs : List Char} (h : Solid depth cs) (offset : Nat) :
    scan offset depth cs = (cs, []) := by
  induction cs generalizing offset depth with
  | nil => rfl
  | cons c cs ih => rw [scan_cons_of_not_split h.1, ih h.2]

theorem tokenize_solid {cs : List Char} (h : Solid 0 cs) : tokenize cs = cons 0 cs [] := by
  rw [tokenize, scan_solid h]

/-! ## Where tokens stop -/

theorem stop_le_of_mem_cons {offset bound : Nat} {text : List Char} {rest : List Token}
    (htext : offset + byteLength text ≤ bound) (hrest : ∀ t ∈ rest, t.stop ≤ bound) :
    ∀ t ∈ cons offset text rest, t.stop ≤ bound := by
  unfold cons
  split
  · exact hrest
  · intro t ht
    rcases List.mem_cons.mp ht with rfl | ht
    · exact htext
    · exact hrest t ht

theorem scan_bounds (offset depth : Nat) (cs : List Char) :
    byteLength (scan offset depth cs).1 ≤ byteLength cs ∧
      ∀ t ∈ (scan offset depth cs).2, t.stop ≤ offset + byteLength cs := by
  induction cs generalizing offset depth with
  | nil => simp [scan]
  | cons c cs ih =>
    rw [scan]
    split
    · obtain ⟨htext, hrest⟩ := ih (offset + c.utf8Size) 0
      refine ⟨by simp, stop_le_of_mem_cons ?_ fun t ht => ?_⟩
      · rw [byteLength_cons]
        omega
      · have := hrest t ht
        rw [byteLength_cons]
        omega
    · obtain ⟨htext, hrest⟩ := ih (offset + c.utf8Size) (nest depth c)
      refine ⟨by simpa using htext, fun t ht => ?_⟩
      have := hrest t ht
      rw [byteLength_cons]
      omega

/-- No token goes past the end of its text. -/
theorem stop_le_of_mem_tokenize {cs : List Char} : ∀ t ∈ tokenize cs, t.stop ≤ byteLength cs := by
  obtain ⟨htext, hrest⟩ := scan_bounds 0 0 cs
  rw [Nat.zero_add] at hrest
  exact stop_le_of_mem_cons (by omega) hrest

/-- The tokens of a finished text stop before its last blank. -/
theorem stop_lt_of_finished {cs : List Char} (h : Finished cs) :
    ∀ t ∈ tokenize cs, t.stop < byteLength cs := by
  intro t ht
  rcases h with rfl | ⟨lead, c, rfl, hlead, hc⟩
  · cases ht
  · rw [tokenize_concat_blank hlead hc] at ht
    have := stop_le_of_mem_tokenize t ht
    have := c.utf8Size_pos
    simp
    omega

end Token

/-! ## The token being typed -/

section Typed

variable {done typed : List Char}

theorem tokenize_finished_solid (hdone : Finished done) (htyped : Solid 0 typed) :
    Token.tokenize (done ++ typed) =
      Token.tokenize done ++ Token.cons (byteLength done) typed [] := by
  rw [Token.tokenize_append_finished hdone, Token.tokenize_solid htyped, Token.map_shift_cons]
  rfl

/-- The token being typed is the solid end of the text. -/
theorem typedToken?_append (hdone : Finished done) (htyped : Solid 0 typed) :
    typedToken? (done ++ typed) = if typed = [] then none else some typed := by
  rw [typedToken?, tokenize_finished_solid hdone htyped]
  by_cases hnil : typed = []
  · subst hnil
    have hlast : ∀ t, (Token.tokenize done).getLast? = some t → t.stop ≠ byteLength done :=
      fun t ht => Nat.ne_of_lt (Token.stop_lt_of_finished hdone t (List.mem_of_getLast? ht))
    cases h : (Token.tokenize done).getLast? with
    | none => simp [Token.cons, h]
    | some t => simp [Token.cons, h, hlast t h]
  · have hcons : Token.cons (byteLength done) typed [] = [⟨byteLength done, typed⟩] := by
      simp [Token.cons, hnil]
    rw [hcons, List.getLast?_concat, if_neg hnil]
    simp [Token.stop]

/-- The slot being typed has the number of the tokens that are finished. -/
theorem slotIndex_append (hdone : Finished done) (htyped : Solid 0 typed) :
    slotIndex (done ++ typed) = (Token.tokenize done).length := by
  rw [slotIndex, typedToken?_append hdone htyped, tokenize_finished_solid hdone htyped]
  by_cases hnil : typed = [] <;> simp [Token.cons, hnil]

theorem typedToken?_finished (hdone : Finished done) : typedToken? done = none := by
  have h := typedToken?_append hdone (show Solid 0 [] from trivial)
  rwa [List.append_nil, if_pos rfl] at h

theorem slotIndex_finished (hdone : Finished done) :
    slotIndex done = (Token.tokenize done).length := by
  have h := slotIndex_append hdone (show Solid 0 [] from trivial)
  rwa [List.append_nil] at h

end Typed

end SkillScript
