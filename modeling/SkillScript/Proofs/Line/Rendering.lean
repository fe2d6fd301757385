import SkillScript.Proofs.Line.Parts

/-!
# Writing a skill line anew

What was read from a line can be written again: the parts in their order, with a single space before
each (`SkillLine.render`). Reading the new line gives the same parts, whatever the first line was
(`SkillLine.parse?_render`). A group that is left open takes all the rest of a line into its token,
so the part that holds it is the last one in the new line too, and only this part can have lost
blanks at its end. The new order of a chance and a health modifier does no harm, since no number
opens a group.
-/

namespace SkillScript

namespace SpacedToken

variable (p : SpacedToken)

/-- The token behind a single space. -/
def respaced : SpacedToken := afterSpace p.text p.single

/-- The token behind a single space, without blanks behind it. -/
def tidied : SpacedToken := p.trimmed.respaced

end SpacedToken

theorem ClosedButLast.map_trim {texts : List (List Char)} (h : ClosedButLast texts)
    (hsolid : ∀ t ∈ texts, Solid 0 t) : ClosedButLast (texts.map trim) := by
  rw [ClosedButLast, List.pairwise_map]
  refine h.imp_of_mem fun {a b} ha _ hclosed => ?_
  rwa [(hsolid a ha).trim_of_closed hclosed]

namespace SkillLine

/-- The parts that there are, in order. -/
def present (l : SkillLine) : List (List Char) :=
  l.mechanic :: (l.targeter.toList ++ (l.trigger.toList ++ (l.conditions.toList ++
    (l.chance.toList ++ l.healthModifier.toList))))

/-- The line written anew. -/
def render (l : SkillLine) : List Char := "- ".toList ++ List.intercalate [' '] l.present

/-! ## What was read -/

/-- A chance and a health modifier are read from tokens of their forms. -/
theorem exists_modifiers (chance health : Option SpacedToken) (offset : Nat)
    (ps : List SpacedToken) :
    ∃ chance' health' : Option SpacedToken,
      modifiers (chance.map SpacedToken.text) (health.map SpacedToken.text) (placed offset ps) =
        (chance'.map SpacedToken.text, health'.map SpacedToken.text) ∧
      (∀ p ∈ chance', p ∈ chance ∨ p ∈ ps ∧ isReal p.text = true) ∧
      ∀ p ∈ health', p ∈ health ∨ p ∈ ps ∧ isHealthModifier p.text = true := by
  induction ps generalizing chance health offset with
  | nil => exact ⟨chance, health, rfl, fun _ => .inl, fun _ => .inl⟩
  | cons p ps ih =>
    simp only [placed, modifiers, Bool.and_eq_true]
    split
    · next hreal =>
      obtain ⟨chance', health', heq, hchance, hhealth⟩ := ih (some p) health _
      refine ⟨chance', health', heq, fun q hq => ?_, fun q hq => ?_⟩
      · rcases hchance q hq with hq | ⟨hmem, hform⟩
        · obtain rfl := Option.mem_some_iff.mp hq
          exact .inr ⟨List.mem_cons_self, hreal.2⟩
        · exact .inr ⟨List.mem_cons_of_mem p hmem, hform⟩
      · exact (hhealth q hq).imp_right (And.imp_left (List.mem_cons_of_mem p))
    · split
      · next hmodifier =>
        obtain ⟨chance', health', heq, hchance, hhealth⟩ := ih chance (some p) _
        refine ⟨chance', health', heq, fun q hq => ?_, fun q hq => ?_⟩
        · exact (hchance q hq).imp_right (And.imp_left (List.mem_cons_of_mem p))
        · rcases hhealth q hq with hq | ⟨hmem, hform⟩
          · obtain rfl := Option.mem_some_iff.mp hq
            exact .inr ⟨List.mem_cons_self, hmodifier.2⟩
          · exact .inr ⟨List.mem_cons_of_mem p hmem, hform⟩
      · exact ⟨chance, health, rfl, fun _ => .inl, fun _ => .inl⟩

/-- Every skill line is made of objects and what follows them. -/
theorem exists_objects {line : List Char} {l : SkillLine} (h : parse? line = some l) :
    ∃ o : Objects, ∃ rest, ClosedButLast (o.texts rest) ∧
      l = o.line (modifiers none none (placed 0 rest)) := by
  cases hbody : body? line with
  | none => simp [parse?, hbody] at h
  | some body =>
    obtain ⟨rest, hdash, -⟩ := dashed_of_body? hbody
    have hsome : parse? line ≠ none := by simp [h]
    rw [Ne, parse?_eq_none_iff_of_dashed hdash, not_or, not_exists] at hsome
    obtain ⟨hne, hunmarked⟩ := hsome
    obtain ⟨t, ts, htokens⟩ := List.exists_cons_of_ne_nil hne
    have hhead : (Token.tokenize rest).head? = some t := by rw [htokens]; rfl
    obtain ⟨gap, ps, trail, rfl, hgap, hsingle, hclosed, htrail, hend⟩ :=
      exists_spell_of_head? hhead
    have hmark : ∀ mark ∈ ['@', '~', '?'], t.text.head? ≠ some mark := fun mark hmem hmark =>
      hunmarked t ⟨hhead, mark, hmem, by simp [Token.startsWith, hmark]⟩
    obtain ⟨o, rest, hmechanic, hpieces, hfollowed⟩ :=
      Objects.exists_followedBy hsingle hmark ps
    rw [← hmechanic, ← hpieces] at hdash hclosed hend
    have hread := Objects.parse?_eq hfollowed hclosed hdash hgap htrail hend
    exact ⟨o, rest, hclosed, Option.some.inj (h.symm.trans hread)⟩

/-! ## What is written -/

/-- The tokens without blanks at their ends, the first behind a single space and the others behind
the blanks that they had. -/
def tidiedRun : List SpacedToken → List SpacedToken
  | [] => []
  | p :: ps => p.tidied :: ps.map SpacedToken.trimmed

theorem texts_tidiedRun (ps : List SpacedToken) :
    (tidiedRun ps).map SpacedToken.text = (ps.map SpacedToken.text).map trim := by
  cases ps <;>
    simp [tidiedRun, SpacedToken.tidied, SpacedToken.respaced, SpacedToken.trimmed,
      SpacedToken.afterSpace]

theorem between?_tidiedRun (ps : List SpacedToken) :
    between? (tidiedRun ps) = between? (ps.map SpacedToken.trimmed) := by
  cases ps <;> rfl

theorem spell_tidiedRun (ps : List SpacedToken) :
    spell (tidiedRun ps) = (between? (tidiedRun ps)).toList.flatMap (' ' :: ·) := by
  cases ps with
  | nil => rfl
  | cons p ps =>
    simp [tidiedRun, between?, SpacedToken.tidied, SpacedToken.respaced, SpacedToken.afterSpace]

theorem intercalate_space (t : List Char) (ts : List (List Char)) :
    List.intercalate [' '] (t :: ts) = t ++ ts.flatMap (' ' :: ·) := by
  induction ts generalizing t with
  | nil => simp
  | cons u ts ih => rw [List.intercalate_cons_cons, ih]; simp

/-- A part behind a single space. -/
theorem spell_part {f : SpacedToken → SpacedToken} (hf : ∀ p, (f p).gap = [' '])
    (part : Option SpacedToken) :
    spell (part.map f).toList = ((part.map f).map SpacedToken.text).toList.flatMap (' ' :: ·) := by
  cases part with
  | none => rfl
  | some p => simp [hf]

namespace Objects

/-- The objects behind single spaces and without blanks at their ends. -/
def tidied (o : Objects) : Objects where
  mechanic := trim o.mechanic
  targeter := o.targeter.map SpacedToken.tidied
  trigger := o.trigger.map SpacedToken.tidied
  conditions := tidiedRun o.conditions
  single := single_trim o.single
  unmarked := by
    rw [head?_trim o.single]
    exact o.unmarked
  targeter_marked p hp := by
    obtain ⟨q, hq, rfl⟩ := Option.map_eq_some_iff.mp hp
    exact (head?_trim q.single).trans (o.targeter_marked q hq)
  trigger_marked p hp := by
    obtain ⟨q, hq, rfl⟩ := Option.map_eq_some_iff.mp hp
    exact (head?_trim q.single).trans (o.trigger_marked q hq)
  conditions_marked p hp := by
    have hmem : p.text ∈ (o.conditions.map SpacedToken.text).map trim := by
      rw [← texts_tidiedRun]
      exact List.mem_map_of_mem hp
    simp only [List.mem_map, exists_exists_and_eq_and] at hmem
    obtain ⟨q, hq, hpq⟩ := hmem
    rw [← hpq, head?_trim q.single, o.conditions_marked q hq]

variable {o : Objects} {rest : List SpacedToken}

theorem texts_tidied (o : Objects) : o.tidied.texts [] = (o.texts []).map trim := by
  have hpart : ∀ part : Option SpacedToken, (part.map SpacedToken.tidied).toList.map
      SpacedToken.text = (part.toList.map SpacedToken.text).map trim := by
    intro part
    cases part <;> rfl
  simp only [texts, pieces, tidied, List.append_nil, List.map_append, List.map_cons, hpart,
    texts_tidiedRun]

theorem tidy_tidied {t : List Char} (ht : t ∈ o.tidied.texts []) : trim t = t := by
  rw [texts_tidied] at ht
  obtain ⟨t', ht', rfl⟩ := List.mem_map.mp ht
  exact trim_trim (single_of_mem_texts ht')

end Objects

section Writing

variable {o : Objects} {rest : List SpacedToken} {chance health : Option SpacedToken}
  (hreal : ∀ p ∈ chance, isReal p.text = true)
  (hmodifier : ∀ p ∈ health, isHealthModifier p.text = true)

/-- The line that is written of objects and modifiers. -/
def Objects.written (o : Objects) (chance health : Option SpacedToken)
    (hreal : ∀ p ∈ chance, isReal p.text = true)
    (hmodifier : ∀ p ∈ health, isHealthModifier p.text = true) : Layout where
  toObjects := o.tidied
  lead := []
  gap := [' ']
  chance := chance.map SpacedToken.respaced
  health := health.map SpacedToken.respaced
  healthFirst := false
  lead_blank := by simp
  gap_blank := isBlank_of_mem_space
  chance_real p hp := by
    obtain ⟨q, hq, rfl⟩ := Option.map_eq_some_iff.mp hp
    exact hreal q hq
  health_modifier p hp := by
    obtain ⟨q, hq, rfl⟩ := Option.map_eq_some_iff.mp hp
    exact hmodifier q hq

theorem parts_written (hclosed : ClosedButLast (o.texts rest)) :
    (o.written chance health hreal hmodifier).parts =
      o.line (chance.map SpacedToken.text, health.map SpacedToken.text) := by
  have hconditions : between? (tidiedRun o.conditions) = (between? o.conditions).map trim := by
    rw [between?_tidiedRun, map_trim_between?]
    exact hclosed.sublist (o.conditions_sublist rest)
  simp only [Layout.parts, Objects.written, Objects.tidied, Objects.line, hconditions,
    Option.map_map]
  rfl

theorem render_parts_written :
    (o.written chance health hreal hmodifier).parts.render =
      (o.written chance health hreal hmodifier).text := by
  have htidied : ∀ p : SpacedToken, p.tidied.gap = [' '] := fun _ => rfl
  have hrespaced : ∀ p : SpacedToken, p.respaced.gap = [' '] := fun _ => rfl
  simp only [render, present, intercalate_space, List.flatMap_append, Layout.parts, Layout.text,
    Layout.modifiers, Objects.spelled, Objects.pieces, Objects.written, Objects.tidied,
    Bool.false_eq_true, if_false, spell_append, spell_tidiedRun, spell_part htidied,
    spell_part hrespaced]
  rfl

theorem texts_modifiers_written :
    (o.written chance health hreal hmodifier).modifiers.map SpacedToken.text =
      chance.toList.map SpacedToken.text ++ health.toList.map SpacedToken.text := by
  cases chance <;> cases health <;> rfl

/-- In the new line, too, no token but the last leaves a group open. -/
theorem closedButLast_written (hclosed : ClosedButLast (o.texts rest))
    (hchance : ∀ p ∈ chance, p ∈ rest) (hhealth : ∀ p ∈ health, p ∈ rest) :
    ClosedButLast ((o.written chance health hreal hmodifier).texts
      (o.written chance health hreal hmodifier).modifiers) := by
  rw [Objects.texts_eq] at hclosed
  obtain ⟨hobjects, -, hbefore⟩ := List.pairwise_append.mp hclosed
  have htexts : (o.written chance health hreal hmodifier).texts [] = (o.texts []).map trim :=
    o.texts_tidied
  rw [Objects.texts_eq, htexts, texts_modifiers_written]
  refine List.pairwise_append.mpr ⟨?_, ?_, ?_⟩
  · exact ClosedButLast.map_trim hobjects fun t => Objects.solid_of_mem_texts
  · refine List.pairwise_append.mpr ⟨?_, ?_, fun t ht _ _ => ?_⟩
    · cases chance <;> simp
    · cases health <;> simp
    · -- A number opens no group, so the health modifier may stand behind it.
      obtain ⟨p, hp, rfl⟩ := List.mem_map.mp ht
      exact closed_of_isReal (hreal p (Option.mem_toList.mp hp))
  · intro t ht t' ht'
    obtain ⟨s, hs, rfl⟩ := List.mem_map.mp ht
    have hrest : t' ∈ rest.map SpacedToken.text := by
      rw [← List.map_append] at ht'
      obtain ⟨p, hp, rfl⟩ := List.mem_map.mp ht'
      rcases List.mem_append.mp hp with hp | hp
      · exact List.mem_map_of_mem (hchance p (Option.mem_toList.mp hp))
      · exact List.mem_map_of_mem (hhealth p (Option.mem_toList.mp hp))
    have hzero := hbefore s hs t' hrest
    rwa [(Objects.solid_of_mem_texts hs).trim_of_closed hzero]

end Writing

/-- What was read of any line, written anew, is read as the same. -/
theorem parse?_render {line : List Char} {l : SkillLine} (h : parse? line = some l) :
    parse? l.render = some l := by
  obtain ⟨o, rest, hclosed, rfl⟩ := exists_objects h
  obtain ⟨chance, health, hmodifiers, hchance, hhealth⟩ := exists_modifiers none none 0 rest
  simp only [Option.not_mem_none, false_or] at hchance hhealth
  have hreal : ∀ p ∈ chance, isReal p.text = true := fun p hp => (hchance p hp).2
  have hmodifier : ∀ p ∈ health, isHealthModifier p.text = true := fun p hp => (hhealth p hp).2
  have hclosed' := closedButLast_written hreal hmodifier hclosed (fun p hp => (hchance p hp).1)
    fun p hp => (hhealth p hp).1
  rw [Option.map_none] at hmodifiers
  rw [hmodifiers, ← parts_written hreal hmodifier hclosed, render_parts_written]
  exact Layout.parse?_text hclosed' fun t => Objects.tidy_tidied

/-- A line with a stray closer, wide gaps, and a group that is never closed. -/
theorem parse?_render_unclosed :
    let line := "\t-  a]\x7bb\x7d  ~t   ?c  ?d\x7be @f 0.5  ".toList
    let parts : SkillLine := ⟨"a]\x7bb\x7d".toList, none, some "~t".toList,
      some "?c  ?d\x7be @f 0.5".toList, none, none⟩
    parse? line = some parts ∧ parts.render = "- a]\x7bb\x7d ~t ?c  ?d\x7be @f 0.5".toList ∧
      parse? parts.render = some parts := by
  intro line parts
  have hread : parse? line = some parts := by decide +kernel
  exact ⟨hread, by decide +kernel, parse?_render hread⟩

end SkillLine

end SkillScript
