import SkillScript.Proofs.Line.Tokens
import SkillScript.Proofs.Text.Pieces

/-!
# A text as tokens and the blanks between them

Every text is a first token, which may be empty, then tokens with blanks before each
(`SpacedToken`), and blanks behind them (`exists_spell`). These are its tokens, each `placed` behind
what comes before it (`Token.tokenize_append_spell`).

A group may stay open in the last of them only (`ClosedButLast`), since what follows an open group
belongs to its token. So trimming changes the last token and no other (`trim_append_spell`).
-/

namespace SkillScript

/-- Characters that are no delimiters keep the depth. -/
theorem depthAfter_plain {cs : List Char} (h : ∀ c ∈ cs, IsPlain c) (depth : Nat) :
    depthAfter depth cs = depth := by
  induction cs with
  | nil => rfl
  | cons c cs ih =>
    rw [depthAfter_cons, nest_plain (h c List.mem_cons_self)]
    exact ih fun x hx => h x (List.mem_cons_of_mem c hx)

theorem depthAfter_blanks {blanks : List Char} (h : ∀ c ∈ blanks, isBlank c = true) (depth : Nat) :
    depthAfter depth blanks = depth :=
  depthAfter_plain (fun c hc => Token.isPlain_of_isBlank (h c hc)) depth

/-- Blanks behind a text are no part of its tokens, unless a group is open before them. -/
theorem Token.tokenize_append_trail {cs trail : List Char} (htrail : ∀ c ∈ trail, isBlank c = true)
    (hend : trail = [] ∨ depthAfter 0 cs = 0) : tokenize (cs ++ trail) = tokenize cs := by
  rcases hend with rfl | hzero
  · rw [List.append_nil]
  · exact (tokenize_append_blanks hzero htrail).2

/-! ## Tokens that stand alone -/

/-- A text is one token when it is not empty and has no blank at depth zero. -/
theorem single_iff {text : List Char} :
    Token.tokenize text = [⟨0, text⟩] ↔ text ≠ [] ∧ Solid 0 text := by
  constructor
  · intro h
    have hne : text ≠ [] := by
      rintro rfl
      simp [Token.tokenize, Token.scan, Token.cons] at h
    refine ⟨hne, ?_⟩
    -- A finished part would leave a token that ends inside it, or one that starts behind it.
    obtain ⟨done, typed, rfl, hdone, htyped⟩ := exists_finished_append text
    rw [tokenize_finished_solid hdone htyped] at h
    have hpos := byteLength_pos hne
    rw [byteLength_append] at hpos
    cases htokens : Token.tokenize done with
    | nil =>
      by_cases hnil : typed = []
      · simp [htokens, hnil, Token.cons] at h
      · have hzero : byteLength done = 0 := by
          rw [htokens] at h
          simp only [Token.cons, List.isEmpty_iff, hnil, if_false, List.nil_append] at h
          exact congrArg Token.offset (List.cons.inj h).1
        by_cases hdone : done = []
        · simpa [hdone] using htyped
        · exact absurd hzero (byteLength_pos hdone).ne'
    | cons t ts =>
      have ht : t = ⟨0, done ++ typed⟩ := by
        rw [htokens] at h
        exact (List.cons.inj h).1
      have hstop := Token.stop_lt_of_finished hdone t (by simp [htokens])
      simp only [ht, Token.stop, byteLength_append] at hstop
      omega
  · rintro ⟨hne, hsolid⟩
    rw [Token.tokenize_solid hsolid]
    simp [Token.cons, hne]

section Solid

variable {text : List Char} {c : Char}

theorem Solid.isBlank_head (h : Solid 0 text) (hc : text.head? = some c) : isBlank c = false := by
  obtain ⟨rest, rfl⟩ := List.head?_eq_some_iff.mp hc
  simpa [Solid] using h.1

/-- A text without blanks at depth zero and without open groups does not end in a blank. -/
theorem Solid.isBlank_last (h : Solid 0 text) (hclosed : depthAfter 0 text = 0)
    (hc : text.getLast? = some c) : isBlank c = false := by
  obtain ⟨lead, rfl⟩ := List.getLast?_eq_some_iff.mp hc
  obtain ⟨-, hlast, -⟩ := solid_append.mp h
  cases hblank : isBlank c with
  | false => rfl
  | true =>
    rw [depthAfter_append, depthAfter_cons, nest_blank hblank, depthAfter_nil] at hclosed
    simp [hblank, hclosed] at hlast

theorem Solid.trim (h : Solid 0 text) : trim text = trimEnd text := by
  rw [SkillScript.trim, trimStart_of_head fun c => h.isBlank_head]

theorem Solid.trim_of_closed (h : Solid 0 text) (hclosed : depthAfter 0 text = 0) :
    SkillScript.trim text = text := by
  rw [h.trim, trimEnd_of_last fun c => h.isBlank_last hclosed]

/-- A trimmed token is a token. -/
theorem single_trim (h : Token.tokenize text = [⟨0, text⟩]) :
    Token.tokenize (trim text) = [⟨0, trim text⟩] := by
  obtain ⟨hne, hsolid⟩ := single_iff.mp h
  rw [single_iff, hsolid.trim]
  constructor
  · obtain ⟨c, rest, rfl⟩ := List.exists_cons_of_ne_nil hne
    have hc : isBlank c = false := hsolid.isBlank_head rfl
    intro hnil
    simp [trimEnd_eq_nil_iff.mp hnil c List.mem_cons_self] at hc
  · obtain ⟨rest, hrest⟩ := trimEnd_prefix text
    rw [← hrest, solid_append] at hsolid
    exact hsolid.1

theorem head?_trim (h : Token.tokenize text = [⟨0, text⟩]) : (trim text).head? = text.head? := by
  have hne := (single_iff.mp (single_trim h)).1
  rw [(single_iff.mp h).2.trim] at hne ⊢
  obtain ⟨rest, hrest⟩ := trimEnd_prefix text
  rw [← congrArg List.head? hrest, List.head?_append_of_ne_nil _ hne]

theorem trim_trim (h : Token.tokenize text = [⟨0, text⟩]) : trim (trim text) = trim text := by
  rw [(single_iff.mp (single_trim h)).2.trim, (single_iff.mp h).2.trim, trimEnd_trimEnd]

end Solid

/-! ## Tokens with blanks before them -/

/-- A token, with the blanks before it. -/
structure SpacedToken where
  gap : List Char
  text : List Char
  gap_ne_nil : gap ≠ []
  gap_blank : ∀ c ∈ gap, isBlank c = true
  single : Token.tokenize text = [⟨0, text⟩]

/-- The tokens as they are written, each behind its blanks. -/
def spell (ps : List SpacedToken) : List Char := ps.flatMap fun p => p.gap ++ p.text

/-- The tokens as they are read, behind `offset` bytes. -/
def placed (offset : Nat) : List SpacedToken → List Token
  | [] => []
  | p :: ps =>
    ⟨offset + byteLength p.gap, p.text⟩ :: placed (offset + byteLength (p.gap ++ p.text)) ps

/-- Every text but the last closes its groups. -/
def ClosedButLast (texts : List (List Char)) : Prop :=
  texts.Pairwise fun a _ => depthAfter 0 a = 0

theorem closedButLast_of_closed {texts : List (List Char)}
    (h : ∀ t ∈ texts, depthAfter 0 t = 0) : ClosedButLast texts :=
  List.pairwise_iff_getElem.mpr fun _ _ hi _ _ => h _ (List.getElem_mem hi)

theorem isBlank_of_mem_space : ∀ c ∈ [' '], isBlank c = true := by
  intro c hc
  rw [List.mem_singleton.mp hc]
  decide

namespace SpacedToken

/-- A token behind a single space. -/
def afterSpace (text : List Char) (single : Token.tokenize text = [⟨0, text⟩]) : SpacedToken where
  gap := [' ']
  text
  gap_ne_nil := List.cons_ne_nil _ _
  gap_blank := isBlank_of_mem_space
  single

variable (p : SpacedToken)

theorem text_ne_nil : p.text ≠ [] := (single_iff.mp p.single).1

theorem solid : Solid 0 p.text := (single_iff.mp p.single).2

/-- The token without blanks behind it. -/
def trimmed : SpacedToken := { p with text := trim p.text, single := single_trim p.single }

theorem trimmed_eq {p : SpacedToken} (h : trim p.text = p.text) : p.trimmed = p := by
  cases p
  simpa [trimmed] using h

end SpacedToken

@[simp] theorem spell_nil : spell [] = [] := rfl

@[simp] theorem spell_cons (p : SpacedToken) (ps : List SpacedToken) :
    spell (p :: ps) = p.gap ++ (p.text ++ spell ps) := by
  simp [spell]

@[simp] theorem spell_append (ps qs : List SpacedToken) : spell (ps ++ qs) = spell ps ++ spell qs :=
  List.flatMap_append

theorem placed_append (offset : Nat) (ps qs : List SpacedToken) :
    placed offset (ps ++ qs) = placed offset ps ++ placed (offset + byteLength (spell ps)) qs := by
  induction ps generalizing offset with
  | nil => rfl
  | cons p ps ih => simp [placed, ih, Nat.add_assoc]

theorem texts_placed (offset : Nat) (ps : List SpacedToken) :
    (placed offset ps).map Token.text = ps.map SpacedToken.text := by
  induction ps generalizing offset with
  | nil => rfl
  | cons p ps ih => simp [placed, ih]

theorem map_shift_placed (n offset : Nat) (ps : List SpacedToken) :
    (placed offset ps).map (Token.shift n) = placed (n + offset) ps := by
  induction ps generalizing offset with
  | nil => rfl
  | cons p ps ih => simp [placed, ih, Token.shift, Nat.add_assoc]

section Spelled

variable {first : List Char} {ps : List SpacedToken}

/-- The tokens of a spelled text are those it was spelled from. -/
theorem Token.tokenize_append_spell (hfirst : Solid 0 first)
    (hclosed : ClosedButLast (first :: ps.map SpacedToken.text)) :
    tokenize (first ++ spell ps) = cons 0 first (placed (byteLength first) ps) := by
  induction ps generalizing first with
  | nil => simpa [placed] using tokenize_solid hfirst
  | cons p ps ih =>
    obtain ⟨hall, hrest⟩ := List.pairwise_cons.mp hclosed
    have hzero : depthAfter 0 first = 0 := hall p.text (by simp)
    have hdone := finished_append_blanks hzero p.gap_blank p.gap_ne_nil
    have htokens := (tokenize_append_blanks hzero p.gap_blank).2
    have hnext : tokenize (p.text ++ spell ps) =
        ⟨0, p.text⟩ :: placed (byteLength p.text) ps := by
      rw [ih p.solid hrest]
      simp [cons, p.text_ne_nil]
    rw [spell_cons, ← List.append_assoc, tokenize_append_finished hdone, htokens, hnext,
      tokenize_solid hfirst, List.map_cons, map_shift_placed, ← cons_append, List.nil_append]
    simp [placed, shift, Nat.add_assoc]

/-- When nothing is open at the end of a spelled text, each of its tokens closes its groups. -/
theorem closed_of_depthAfter (hclosed : ClosedButLast (first :: ps.map SpacedToken.text))
    (hzero : depthAfter 0 (first ++ spell ps) = 0) :
    ∀ t ∈ first :: ps.map SpacedToken.text, depthAfter 0 t = 0 := by
  induction ps generalizing first with
  | nil => simpa using hzero
  | cons p ps ih =>
    obtain ⟨hall, hrest⟩ := List.pairwise_cons.mp hclosed
    have hfirst : depthAfter 0 first = 0 := hall p.text (by simp)
    rw [spell_cons, depthAfter_append, hfirst, depthAfter_append,
      depthAfter_blanks p.gap_blank] at hzero
    intro t ht
    rcases List.mem_cons.mp ht with rfl | ht
    · exact hfirst
    · exact ih hrest hzero t ht

/-- A text that starts with a token is trimmed at its end only. -/
theorem trim_append_of_single (hfirst : Token.tokenize first = [⟨0, first⟩]) (rest : List Char) :
    trim (first ++ rest) = trimEnd (first ++ rest) := by
  obtain ⟨hne, hsolid⟩ := single_iff.mp hfirst
  rw [trim, trimStart_of_head]
  intro c hc
  rw [List.head?_append_of_ne_nil _ hne] at hc
  exact hsolid.isBlank_head hc

/-- Trimming a spelled text trims its tokens. -/
theorem trim_append_spell (hfirst : Token.tokenize first = [⟨0, first⟩])
    (hclosed : ClosedButLast (first :: ps.map SpacedToken.text)) :
    trim (first ++ spell ps) = trim first ++ spell (ps.map SpacedToken.trimmed) := by
  induction ps generalizing first with
  | nil => simp
  | cons p ps ih =>
    obtain ⟨hall, hrest⟩ := List.pairwise_cons.mp hclosed
    have hzero : depthAfter 0 first = 0 := hall p.text (by simp)
    -- The next token starts with a character that is no blank.
    obtain ⟨c, cs, hc⟩ := List.exists_cons_of_ne_nil p.text_ne_nil
    have hblank : isBlank c = false := p.solid.isBlank_head (by rw [hc]; rfl)
    calc trim (first ++ spell (p :: ps))
      _ = trimEnd (first ++ p.gap ++ (p.text ++ spell ps)) := by
        rw [trim_append_of_single hfirst, spell_cons, List.append_assoc]
      _ = first ++ p.gap ++ trim (p.text ++ spell ps) := by
        rw [trimEnd_append _ (c := c) (by simp [hc]) hblank, trim_append_of_single p.single]
      _ = trim first ++ spell ((p :: ps).map SpacedToken.trimmed) := by
        rw [ih p.single hrest, (single_iff.mp hfirst).2.trim_of_closed hzero]
        simp [SpacedToken.trimmed]

end Spelled

/-- The blanks before a text only move its tokens. -/
theorem Token.tokenize_blanks_append {blanks : List Char} (h : ∀ c ∈ blanks, isBlank c = true)
    (cs : List Char) :
    tokenize (blanks ++ cs) = (tokenize cs).map (shift (byteLength blanks)) := by
  have hfinished : Finished blanks := by
    by_cases hnil : blanks = []
    · exact .inl hnil
    · exact finished_append_blanks (depthAfter_nil 0) h hnil
  have hnone : tokenize blanks = [] := (tokenize_append_blanks (depthAfter_nil 0) h).2
  rw [tokenize_append_finished hfinished, hnone, List.nil_append]

/-- Every text is a first token, spaced tokens and blanks. -/
theorem exists_spell (cs : List Char) :
    ∃ first ps trail, cs = first ++ spell ps ++ trail ∧ Solid 0 first ∧
      ClosedButLast (first :: ps.map SpacedToken.text) ∧ (∀ c ∈ trail, isBlank c = true) ∧
      (trail = [] ∨ depthAfter 0 (first ++ spell ps) = 0) := by
  -- The induction is on what is before the last token, which is shorter.
  induction hlength : cs.length using Nat.strong_induction_on generalizing cs with
  | _ n ih =>
    obtain ⟨done, typed, rfl, hdone, htyped⟩ := exists_finished_append cs
    rcases hdone with rfl | ⟨lead, c, rfl, hlead, hc⟩
    · refine ⟨typed, [], [], by simp, htyped, ?_, by simp, .inl rfl⟩
      exact List.pairwise_singleton _ _
    · obtain ⟨first, ps, trail, rfl, hfirst, hclosed, htrail, -⟩ :=
        ih lead.length (by rw [← hlength]; simp) lead rfl
      have htrail' : ∀ x ∈ trail ++ [c], isBlank x = true := by
        simpa [or_imp, forall_and, hc] using htrail
      have hzero : depthAfter 0 (first ++ spell ps) = 0 := by
        rwa [depthAfter_append, depthAfter_blanks htrail] at hlead
      by_cases hnil : typed = []
      · exact ⟨first, ps, trail ++ [c], by simp [hnil], hfirst, hclosed, htrail', .inr hzero⟩
      · let last : SpacedToken :=
          ⟨trail ++ [c], typed, by simp, htrail', single_iff.mpr ⟨hnil, htyped⟩⟩
        refine ⟨first, ps ++ [last], [], by simp [last], hfirst, ?_, by simp, .inl rfl⟩
        have hall := closed_of_depthAfter hclosed hzero
        rw [List.map_append, ← List.cons_append]
        refine List.pairwise_append.mpr ⟨hclosed, List.pairwise_singleton _ _, ?_⟩
        exact fun t ht _ _ => hall t ht

/-- A text with tokens is blanks, its first token, spaced tokens and blanks. -/
theorem exists_spell_of_head? {cs : List Char} {t : Token}
    (h : (Token.tokenize cs).head? = some t) :
    ∃ gap ps trail, cs = gap ++ (t.text ++ spell ps ++ trail) ∧ (∀ c ∈ gap, isBlank c = true) ∧
      Token.tokenize t.text = [⟨0, t.text⟩] ∧ ClosedButLast (t.text :: ps.map SpacedToken.text) ∧
      (∀ c ∈ trail, isBlank c = true) ∧
      (trail = [] ∨ depthAfter 0 (t.text ++ spell ps) = 0) := by
  obtain ⟨first, ps, trail, rfl, hfirst, hclosed, htrail, hend⟩ := exists_spell cs
  have htokens : Token.tokenize (first ++ spell ps ++ trail) =
      Token.cons 0 first (placed (byteLength first) ps) := by
    rw [Token.tokenize_append_trail htrail hend, Token.tokenize_append_spell hfirst hclosed]
  rw [htokens] at h
  by_cases hnil : first = []
  · subst hnil
    -- The first token is the first of the spaced ones.
    cases ps with
    | nil => cases h
    | cons p ps =>
      obtain rfl : _ = t := Option.some.inj h
      refine ⟨p.gap, ps, trail, by simp, p.gap_blank, p.single, hclosed.of_cons, htrail, ?_⟩
      refine hend.imp_right fun hzero => ?_
      rwa [List.nil_append, spell_cons, depthAfter_append, depthAfter_blanks p.gap_blank] at hzero
  · rw [Token.cons, if_neg (by simpa using hnil)] at h
    obtain rfl : _ = t := Option.some.inj h
    exact ⟨[], ps, trail, rfl, by simp, single_iff.mpr ⟨hnil, hfirst⟩, hclosed, htrail, hend⟩

end SkillScript
