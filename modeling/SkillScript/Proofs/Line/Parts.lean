import SkillScript.Line.SkillLine
import SkillScript.Proofs.Line.Spacing

/-!
# The parts of a skill line

A skill line is a dash, a mechanic, and then a targeter, a trigger, conditions and modifiers, each
where it is present. The first three are tokens with a mark, and a chance and a health modifier are
told by their form. `Layout` is such a line with the blanks that it is written with, and
`Layout.parts` what it says.

* A token is taken for the part of its mark when its turn comes, so objects are read as such when
  nothing that follows is taken for one (`SkillLine.Objects.parse?_eq`). Every token list behind a
  mechanic is of this form (`SkillLine.Objects.exists_followedBy`).
* No character of a number has a meaning on the line (`disjoint_of_isReal`), so modifiers are taken
  for no object and open no group.
* A line of the grammar is read as exactly its parts, and the lines that are no skill lines are told
  by the dash and the first token behind it (`SkillLine.parse?_exactly`).
-/

namespace SkillScript

/-! ## Chances and health modifiers -/

/-- The characters with a meaning of their own on a skill line. -/
def lineMarks : List Char := ['\x7b', '[', '\x7d', ']', '@', '~', '?', '=', '<', '>']

theorem disjoint_of_class {p : Char → Bool} (hp : lineMarks.all (!p ·) = true) {cs : List Char}
    (h : ∀ c ∈ cs, p c = true) : cs.Disjoint lineMarks := by
  intro c hc hmark
  simpa [h c hc] using List.all_eq_true.mp hp c hmark

theorem disjoint_of_dropSign {cs : List Char} (h : (dropSign cs).Disjoint lineMarks) :
    cs.Disjoint lineMarks := by
  unfold dropSign at h
  split at h
  · exact List.disjoint_cons_left.mpr ⟨by decide, h⟩
  · exact List.disjoint_cons_left.mpr ⟨by decide, h⟩
  · exact h

theorem disjoint_of_isExponent {cs : List Char} (h : isExponent cs = true) :
    cs.Disjoint lineMarks := by
  cases cs with
  | nil => exact List.disjoint_nil_left _
  | cons c cs =>
    simp only [isExponent, isDigits, Bool.and_eq_true, Bool.or_eq_true, beq_iff_eq] at h
    obtain ⟨hc, -, hdigits⟩ := h
    have hdigits := disjoint_of_class (by decide) (List.all_eq_true.mp hdigits)
    refine List.disjoint_cons_left.mpr ⟨?_, disjoint_of_dropSign hdigits⟩
    rcases hc with rfl | rfl <;> decide

theorem disjoint_of_isDecimal {cs : List Char} (h : isDecimal cs = true) :
    cs.Disjoint lineMarks := by
  have hdigits : ∀ text : List Char, (text.takeWhile Char.isDigit).Disjoint lineMarks :=
    fun text => disjoint_of_class (by decide) fun c => List.mem_takeWhile_imp
  simp only [isDecimal, Bool.and_eq_true] at h
  have hrest := disjoint_of_isExponent h.2
  rw [← List.takeWhile_append_dropWhile (p := Char.isDigit) (l := cs)]
  refine List.disjoint_append_left.mpr ⟨hdigits cs, ?_⟩
  unfold fraction at hrest
  split at hrest
  · next text heq =>
    rw [heq, ← List.takeWhile_append_dropWhile (p := Char.isDigit) (l := text)]
    refine List.disjoint_cons_left.mpr ⟨by decide, ?_⟩
    exact List.disjoint_append_left.mpr ⟨hdigits text, hrest⟩
  · exact hrest

/-- No character of a number has a meaning of its own. -/
theorem disjoint_of_isReal {cs : List Char} (h : isReal cs = true) : cs.Disjoint lineMarks := by
  apply disjoint_of_dropSign
  simp only [isReal, Bool.or_eq_true, List.any_eq_true, beq_iff_eq] at h
  rcases h with h | ⟨name, hname, h⟩
  · exact disjoint_of_isDecimal h
  · have hnames : (["inf", "infinity", "nan"].all fun name =>
        lineMarks.all fun c => !name.toList.contains c.toLower) = true := by decide
    refine disjoint_of_class (List.all_eq_true.mp hnames name hname) fun c hc => ?_
    rw [List.contains_iff_mem, ← h]
    exact List.mem_map_of_mem hc

section Modifiers

variable {text : List Char}

theorem closed_of_isReal (h : isReal text = true) : depthAfter 0 text = 0 := by
  refine depthAfter_plain (fun c hc => ?_) 0
  have hc : c ∉ lineMarks := fun hmark => disjoint_of_isReal h hc hmark
  simp only [lineMarks, List.mem_cons, not_or] at hc
  simp [IsPlain, isOpener, isCloser, hc]

theorem head?_of_isReal (h : isReal text = true) {mark : Char} (hmark : mark ∈ lineMarks) :
    text.head? ≠ some mark :=
  fun hhead => disjoint_of_isReal h (List.mem_of_head? hhead) hmark

theorem head?_of_isHealthModifier (h : isHealthModifier text = true) :
    ∃ sign ∈ ['=', '<', '>'], text.head? = some sign := by
  cases text with
  | nil => simp [isHealthModifier] at h
  | cons c cs =>
    simp only [isHealthModifier, Bool.and_eq_true, Bool.or_eq_true, beq_iff_eq] at h
    exact ⟨c, by simpa [or_assoc] using h.1, rfl⟩

/-- A health modifier is no number. -/
theorem isReal_of_isHealthModifier (h : isHealthModifier text = true) : isReal text = false := by
  obtain ⟨sign, hsign, hhead⟩ := head?_of_isHealthModifier h
  have hmark : sign ∈ lineMarks := by
    have hsigns : (['=', '<', '>'].all (lineMarks.contains ·)) = true := by decide
    simpa using List.all_eq_true.mp hsigns sign hsign
  cases hreal : isReal text with
  | false => rfl
  | true => exact absurd hhead (head?_of_isReal hreal hmark)

end Modifiers

namespace SkillLine

/-! ## The dash -/

/-- `line` is a dash, with nothing but blanks before it, and `rest` behind it. -/
def Dashed (line rest : List Char) : Prop :=
  ∃ lead, (∀ c ∈ lead, isBlank c = true) ∧ line = lead ++ '-' :: rest

theorem body?_of_dashed {line rest : List Char} (h : Dashed line rest) :
    body? line = some (trimStart rest) := by
  obtain ⟨lead, hlead, rfl⟩ := h
  have hdash : ∀ c, ('-' :: rest).head? = some c → isBlank c = false := by
    rintro c ⟨⟩
    decide
  have hstart : trimStart (lead ++ '-' :: rest) = '-' :: rest := (span_append hlead hdash).2
  simp only [body?, hstart]

theorem dashed_of_body? {line body : List Char} (h : body? line = some body) :
    ∃ rest, Dashed line rest ∧ body = trimStart rest := by
  unfold body? at h
  split at h
  · next rest hstart =>
    refine ⟨rest, ⟨line.takeWhile isBlank, fun c => List.mem_takeWhile_imp, ?_⟩, ?_⟩
    · rw [← hstart]
      exact List.takeWhile_append_dropWhile.symm
    · exact (Option.some.inj h).symm
  · cases h

/-! ## Reading one part -/

section Reading

variable {mark : Char} {part : Option SpacedToken} {rest : List SpacedToken}

/-- The next token does not have `mark`. -/
def NotNext (mark : Char) (ps : List SpacedToken) : Prop :=
  ∀ p ∈ ps.head?, p.text.head? ≠ some mark

/-- A token is taken for the part of its mark, and one without the mark for no such part. -/
theorem takeMarked_placed (hmarked : ∀ p ∈ part, p.text.head? = some mark)
    (habsent : part = none → NotNext mark rest) (offset : Nat) :
    takeMarked mark (placed offset (part.toList ++ rest)) =
      (part.map fun p => trim p.text, placed (offset + byteLength (spell part.toList)) rest) := by
  cases part with
  | some p => simp [placed, takeMarked, Token.startsWith, hmarked p rfl]
  | none =>
    cases rest with
    | nil => rfl
    | cons p rest => simp [placed, takeMarked, Token.startsWith, habsent rfl p rfl]

theorem exists_part (mark : Char) (ps : List SpacedToken) :
    ∃ part rest, ps = Option.toList part ++ rest ∧ (∀ p ∈ part, p.text.head? = some mark) ∧
      (part = none → NotNext mark rest) := by
  cases ps with
  | nil => exact ⟨none, [], rfl, by simp, by simp [NotNext]⟩
  | cons p ps =>
    by_cases hp : p.text.head? = some mark
    · exact ⟨some p, ps, rfl, by simp [hp], by simp⟩
    · exact ⟨none, p :: ps, rfl, by simp, by simp [NotNext, hp]⟩

/-- The tokens with a mark are the run before the first one without. -/
theorem span_placed {ps : List SpacedToken} (hmarked : ∀ p ∈ ps, p.text.head? = some mark)
    (hrest : NotNext mark rest) (offset : Nat) :
    (placed offset (ps ++ rest)).takeWhile (Token.startsWith mark) = placed offset ps ∧
      (placed offset (ps ++ rest)).dropWhile (Token.startsWith mark) =
        placed (offset + byteLength (spell ps)) rest := by
  rw [placed_append]
  apply span_append
  · intro t ht
    have htext : t.text ∈ ps.map SpacedToken.text := by
      rw [← texts_placed offset]
      exact List.mem_map_of_mem ht
    obtain ⟨p, hp, hpt⟩ := List.mem_map.mp htext
    simp [Token.startsWith, ← hpt, hmarked p hp]
  · intro t ht
    cases rest with
    | nil => simp [placed] at ht
    | cons p rest =>
      simp only [placed, List.head?_cons, Option.some.injEq] at ht
      simp [Token.startsWith, ← ht, hrest p rfl]

/-- The text from the first of the given tokens to the last. -/
def between? : List SpacedToken → Option (List Char)
  | [] => none
  | p :: ps => some (p.text ++ spell ps)

theorem getLast?_placed (offset : Nat) (p : SpacedToken) (ps : List SpacedToken) :
    ∃ last, (placed offset (p :: ps)).getLast? = some last ∧
      last.stop = offset + byteLength (spell (p :: ps)) := by
  induction ps generalizing offset p with
  | nil => exact ⟨⟨offset + byteLength p.gap, p.text⟩, rfl, by simp [Token.stop]; omega⟩
  | cons q ps ih =>
    obtain ⟨last, hlast, hstop⟩ := ih (offset + byteLength (p.gap ++ p.text)) q
    refine ⟨last, ?_, ?_⟩
    · rw [placed, List.getLast?_cons, hlast]
      rfl
    · simp only [hstop, spell_cons, byteLength_append]
      omega

/-- Their offsets cut out of a text what the tokens were spelled as. -/
theorem stretch?_placed (lead : List Char) (ps : List SpacedToken) (rest : List Char) :
    stretch? (lead ++ (spell ps ++ rest)) (placed (byteLength lead) ps) =
      (between? ps).map trim := by
  cases ps with
  | nil => rfl
  | cons p ps =>
    obtain ⟨last, hlast, hstop⟩ := getLast?_placed (byteLength lead) p ps
    have hdrop : dropBytes (byteLength lead + byteLength p.gap)
        (lead ++ (spell (p :: ps) ++ rest)) = p.text ++ spell ps ++ rest := by
      have h := dropBytes_append (lead ++ p.gap) (p.text ++ spell ps ++ rest)
      rw [byteLength_append] at h
      simpa using h
    have htake : last.stop - (byteLength lead + byteLength p.gap) =
        byteLength (p.text ++ spell ps) := by
      simp only [hstop, spell_cons, byteLength_append]
      omega
    unfold stretch?
    rw [hlast]
    simp only [placed, List.head?_cons, hdrop, htake, takeBytes_append, between?, Option.map_some]

/-- Trimming the stretch from the first token to the last trims its tokens. -/
theorem map_trim_between? {ps : List SpacedToken}
    (h : ClosedButLast (ps.map SpacedToken.text)) :
    (between? ps).map trim = between? (ps.map SpacedToken.trimmed) := by
  cases ps with
  | nil => rfl
  | cons p ps => exact congrArg some (trim_append_spell p.single h)

/-- Where the modifiers stand does not matter. -/
theorem modifiers_placed (chance health : Option (List Char)) (offset : Nat)
    (ps : List SpacedToken) :
    modifiers chance health (placed offset ps) = modifiers chance health (placed 0 ps) := by
  -- The offset moves with each token, so the induction is over any two of them.
  suffices h : ∀ offset', modifiers chance health (placed offset ps) =
      modifiers chance health (placed offset' ps) from h 0
  induction ps generalizing chance health offset with
  | nil => exact fun _ => rfl
  | cons p ps ih =>
    intro offset'
    simp only [placed, modifiers]
    split
    · exact ih ..
    · split
      · exact ih ..
      · rfl

end Reading

/-! ## Reading a line -/

/-- The objects of a skill line: a mechanic, and the targeter, the trigger and the conditions that
there are, each a token with its mark. -/
structure Objects where
  mechanic : List Char
  targeter : Option SpacedToken
  trigger : Option SpacedToken
  conditions : List SpacedToken
  single : Token.tokenize mechanic = [⟨0, mechanic⟩]
  unmarked : ∀ mark ∈ ['@', '~', '?'], mechanic.head? ≠ some mark
  targeter_marked : ∀ p ∈ targeter, p.text.head? = some '@'
  trigger_marked : ∀ p ∈ trigger, p.text.head? = some '~'
  conditions_marked : ∀ p ∈ conditions, p.text.head? = some '?'

namespace Objects

/-- The tokens behind the mechanic, with `rest` behind the conditions. -/
def pieces (o : Objects) (rest : List SpacedToken) : List SpacedToken :=
  o.targeter.toList ++ (o.trigger.toList ++ (o.conditions ++ rest))

/-- The texts of all tokens, with `rest` behind the conditions. -/
def texts (o : Objects) (rest : List SpacedToken) : List (List Char) :=
  o.mechanic :: (o.pieces rest).map SpacedToken.text

/-- The objects as they are written, with `rest` behind the conditions. -/
def spelled (o : Objects) (rest : List SpacedToken) : List Char :=
  o.mechanic ++ spell (o.pieces rest)

/-- Nothing that follows is taken for an object. -/
structure FollowedBy (o : Objects) (rest : List SpacedToken) : Prop where
  targeter : o.targeter = none → NotNext '@' (o.trigger.toList ++ (o.conditions ++ rest))
  trigger : o.trigger = none → NotNext '~' (o.conditions ++ rest)
  conditions : NotNext '?' rest

/-- What the objects are read as, with the given modifiers. -/
def line (o : Objects) (modifiers : Option (List Char) × Option (List Char)) : SkillLine where
  mechanic := trim o.mechanic
  targeter := o.targeter.map fun p => trim p.text
  trigger := o.trigger.map fun p => trim p.text
  conditions := (between? o.conditions).map trim
  chance := modifiers.1
  healthModifier := modifiers.2

section Reading

variable {o : Objects} {rest : List SpacedToken} {line gap trail : List Char}

theorem texts_eq (o : Objects) (rest : List SpacedToken) :
    o.texts rest = o.texts [] ++ rest.map SpacedToken.text := by
  simp [texts, pieces]

theorem single_of_mem_texts {t : List Char} (ht : t ∈ o.texts rest) :
    Token.tokenize t = [⟨0, t⟩] := by
  rcases List.mem_cons.mp ht with rfl | ht
  · exact o.single
  · obtain ⟨p, -, rfl⟩ := List.mem_map.mp ht
    exact p.single

theorem solid_of_mem_texts {t : List Char} (ht : t ∈ o.texts rest) : Solid 0 t :=
  (single_iff.mp (single_of_mem_texts ht)).2

theorem conditions_sublist (o : Objects) (rest : List SpacedToken) :
    (o.conditions.map SpacedToken.text).Sublist (o.texts rest) := by
  have hsub : o.conditions.Sublist (o.pieces rest) :=
    (List.sublist_append_left ..).trans
      ((List.sublist_append_right ..).trans (List.sublist_append_right ..))
  exact (hsub.map SpacedToken.text).trans (List.sublist_cons_self ..)

/-- Objects that do not end in blanks are read as they are. -/
theorem line_of_tidy (hclosed : ClosedButLast (o.texts [])) (htidy : ∀ t ∈ o.texts [], trim t = t)
    (modifiers : Option (List Char) × Option (List Char)) :
    o.line modifiers =
      { mechanic := o.mechanic
        targeter := o.targeter.map SpacedToken.text
        trigger := o.trigger.map SpacedToken.text
        conditions := between? o.conditions
        chance := modifiers.1
        healthModifier := modifiers.2 } := by
  have hpiece : ∀ p ∈ o.pieces [], trim p.text = p.text := fun p hp =>
    htidy p.text (List.mem_cons_of_mem _ (List.mem_map_of_mem hp))
  have htrimmed : o.conditions.map SpacedToken.trimmed = o.conditions := by
    refine (List.map_congr_left fun p hp => ?_).trans (List.map_id _)
    exact SpacedToken.trimmed_eq (hpiece p (by simp [pieces, hp]))
  have hconditions : (between? o.conditions).map trim = between? o.conditions := by
    rw [map_trim_between? (hclosed.sublist (o.conditions_sublist [])), htrimmed]
  have hpart : ∀ part : Option SpacedToken, (∀ p ∈ part, p ∈ o.pieces []) →
      (part.map fun p => trim p.text) = part.map SpacedToken.text := fun part hpart =>
    Option.map_congr fun p hp => hpiece p (hpart p hp)
  unfold Objects.line
  rw [hconditions, htidy o.mechanic List.mem_cons_self, hpart o.targeter, hpart o.trigger]
  · intro p hp
    simp [pieces, Option.mem_def.mp hp]
  · intro p hp
    simp [pieces, Option.mem_def.mp hp]

theorem body?_eq (hline : Dashed line (gap ++ (o.spelled rest ++ trail)))
    (hgap : ∀ c ∈ gap, isBlank c = true) : body? line = some (o.spelled rest ++ trail) := by
  obtain ⟨hne, hsolid⟩ := single_iff.mp o.single
  rw [body?_of_dashed hline, trimStart, (span_append hgap fun c hc => ?_).2]
  rw [spelled, List.append_assoc, List.head?_append_of_ne_nil _ hne] at hc
  exact hsolid.isBlank_head hc

theorem tokenize_eq (hclosed : ClosedButLast (o.texts rest))
    (htrail : ∀ c ∈ trail, isBlank c = true)
    (hend : trail = [] ∨ depthAfter 0 (o.spelled rest) = 0) :
    Token.tokenize (o.spelled rest ++ trail) =
      ⟨0, o.mechanic⟩ :: placed (byteLength o.mechanic) (o.pieces rest) := by
  obtain ⟨hne, hsolid⟩ := single_iff.mp o.single
  rw [Token.tokenize_append_trail htrail hend, spelled, Token.tokenize_append_spell hsolid hclosed,
    Token.cons, if_neg (by simpa using hne)]

theorem stretch?_conditions (o : Objects) (rest : List SpacedToken) (trail : List Char) :
    stretch? (o.spelled rest ++ trail)
        (placed (byteLength o.mechanic + byteLength (spell o.targeter.toList) +
          byteLength (spell o.trigger.toList)) o.conditions) =
      (between? o.conditions).map trim := by
  have h := stretch?_placed (o.mechanic ++ (spell o.targeter.toList ++ spell o.trigger.toList))
    o.conditions (spell rest ++ trail)
  simp only [byteLength_append, ← Nat.add_assoc] at h
  rw [← h]
  simp [spelled, pieces]

/-- A line of objects, with nothing behind them that is taken for one, is read as such. -/
theorem parse?_eq (hrest : o.FollowedBy rest) (hclosed : ClosedButLast (o.texts rest))
    (hline : Dashed line (gap ++ (o.spelled rest ++ trail)))
    (hgap : ∀ c ∈ gap, isBlank c = true) (htrail : ∀ c ∈ trail, isBlank c = true)
    (hend : trail = [] ∨ depthAfter 0 (o.spelled rest) = 0) :
    parse? line = some (o.line (modifiers none none (placed 0 rest))) := by
  have hmark : ∀ mark ∈ ['@', '~', '?'], Token.startsWith mark ⟨0, o.mechanic⟩ = false := by
    intro mark hmem
    simp [Token.startsWith, o.unmarked mark hmem]
  have htargeter : takeMarked '@' (placed (byteLength o.mechanic) (o.pieces rest)) = _ :=
    takeMarked_placed o.targeter_marked hrest.targeter (byteLength o.mechanic)
  simp only [parse?, body?_eq hline hgap, tokenize_eq hclosed htrail hend, hmark '@' (by simp),
    hmark '~' (by simp), hmark '?' (by simp), Bool.or_false, Bool.false_eq_true, if_false]
  simp only [htargeter, takeMarked_placed o.trigger_marked hrest.trigger,
    span_placed o.conditions_marked hrest.conditions, o.stretch?_conditions]
  rw [modifiers_placed]
  rfl

end Reading

/-- The tokens behind a mechanic are objects and what follows them. -/
theorem exists_followedBy {mechanic : List Char}
    (hsingle : Token.tokenize mechanic = [⟨0, mechanic⟩])
    (hunmarked : ∀ mark ∈ ['@', '~', '?'], mechanic.head? ≠ some mark) (ps : List SpacedToken) :
    ∃ o : Objects, ∃ rest, o.mechanic = mechanic ∧ o.pieces rest = ps ∧ o.FollowedBy rest := by
  obtain ⟨targeter, ps, rfl, htargeter, hnotargeter⟩ := exists_part '@' ps
  obtain ⟨trigger, ps, rfl, htrigger, hnotrigger⟩ := exists_part '~' ps
  let marked (p : SpacedToken) : Bool := p.text.head? == some '?'
  have hsplit : ps.takeWhile marked ++ ps.dropWhile marked = ps := List.takeWhile_append_dropWhile
  have hconditions : ∀ p ∈ ps.takeWhile marked, p.text.head? = some '?' := fun p hp => by
    simpa [marked] using List.mem_takeWhile_imp hp
  refine ⟨⟨mechanic, targeter, trigger, ps.takeWhile marked, hsingle, hunmarked, htargeter,
    htrigger, hconditions⟩, ps.dropWhile marked, rfl, by simp only [pieces, hsplit], ?_, ?_, ?_⟩
  · simpa only [hsplit] using hnotargeter
  · simpa only [hsplit] using hnotrigger
  · intro p hp
    have := List.head?_dropWhile_not marked ps
    rw [Option.mem_def.mp hp] at this
    simpa [marked] using this

end Objects

/-! ## The grammar -/

/-- A skill line as it is written: a dash with blanks around it, objects, and behind them a chance
and a health modifier in either order, if there are any. -/
structure Layout extends Objects where
  /-- The blanks before the dash. -/
  lead : List Char
  /-- The blanks behind the dash. -/
  gap : List Char
  chance : Option SpacedToken
  health : Option SpacedToken
  /-- The health modifier stands before the chance. -/
  healthFirst : Bool
  lead_blank : ∀ c ∈ lead, isBlank c = true
  gap_blank : ∀ c ∈ gap, isBlank c = true
  chance_real : ∀ p ∈ chance, isReal p.text = true
  health_modifier : ∀ p ∈ health, isHealthModifier p.text = true

namespace Layout

/-- The chance and the health modifier in their order. -/
def modifiers (l : Layout) : List SpacedToken :=
  if l.healthFirst then l.health.toList ++ l.chance.toList else l.chance.toList ++ l.health.toList

/-- The whole line. -/
def text (l : Layout) : List Char := l.lead ++ '-' :: (l.gap ++ l.spelled l.modifiers)

/-- The parts of the line. -/
def parts (l : Layout) : SkillLine where
  mechanic := l.mechanic
  targeter := l.targeter.map SpacedToken.text
  trigger := l.trigger.map SpacedToken.text
  conditions := between? l.conditions
  chance := l.chance.map SpacedToken.text
  healthModifier := l.health.map SpacedToken.text

variable {l : Layout}

theorem unmarked_of_mem_modifiers {p : SpacedToken} (hp : p ∈ l.modifiers) {mark : Char}
    (hmark : mark ∈ ['@', '~', '?']) : p.text.head? ≠ some mark := by
  have hmem : p ∈ l.chance ∨ p ∈ l.health := by
    unfold modifiers at hp
    split at hp <;> simpa [or_comm] using hp
  rcases hmem with hp | hp
  · refine head?_of_isReal (l.chance_real p hp) ?_
    have hmarks : (['@', '~', '?'].all (lineMarks.contains ·)) = true := by decide
    simpa using List.all_eq_true.mp hmarks mark hmark
  · obtain ⟨sign, hsign, hhead⟩ := head?_of_isHealthModifier (l.health_modifier p hp)
    rw [hhead]
    rintro ⟨⟩
    have hnone : (['=', '<', '>'].all fun c => !(['@', '~', '?'].contains c)) = true := by decide
    simpa [hmark] using List.all_eq_true.mp hnone _ hsign

/-- No part is taken for one before it, since each starts with another mark. -/
theorem followedBy (l : Layout) : l.FollowedBy l.modifiers := by
  refine ⟨fun _ p hp => ?_, fun _ p hp => ?_, fun p hp => ?_⟩
  · have hmem := List.mem_of_head? hp
    simp only [List.mem_append, Option.mem_toList] at hmem
    rcases hmem with hmem | hmem | hmem
    · simp [l.trigger_marked p hmem]
    · simp [l.conditions_marked p hmem]
    · exact unmarked_of_mem_modifiers hmem (by simp)
  · rcases List.mem_append.mp (List.mem_of_head? hp) with hmem | hmem
    · simp [l.conditions_marked p hmem]
    · exact unmarked_of_mem_modifiers hmem (by simp)
  · exact unmarked_of_mem_modifiers (List.mem_of_head? hp) (by simp)

/-- Each of the two modifiers is told by its form, in either order. -/
theorem modifiers_read (l : Layout) :
    SkillLine.modifiers none none (placed 0 l.modifiers) =
      (l.chance.map SpacedToken.text, l.health.map SpacedToken.text) := by
  have hreal := l.chance_real
  have hhealth := l.health_modifier
  unfold modifiers
  cases hc : l.chance with
  | none =>
    cases hh : l.health with
    | none => split <;> rfl
    | some h =>
      have hform := hhealth h hh
      split <;> simp [placed, SkillLine.modifiers, hform, isReal_of_isHealthModifier hform]
  | some c =>
    have hnumber := hreal c hc
    cases hh : l.health with
    | none => split <;> simp [placed, SkillLine.modifiers, hnumber]
    | some h =>
      have hform := hhealth h hh
      split <;> simp [placed, SkillLine.modifiers, hnumber, hform, isReal_of_isHealthModifier hform]

/-- A line of the grammar is read as its parts, when only its last token leaves a group open and no
object ends in blanks. -/
theorem parse?_text (hclosed : ClosedButLast (l.texts l.modifiers))
    (htidy : ∀ t ∈ l.texts [], trim t = t) : parse? l.text = some l.parts := by
  have hline : Dashed l.text (l.gap ++ (l.spelled l.modifiers ++ [])) := by
    refine ⟨l.lead, l.lead_blank, ?_⟩
    rw [List.append_nil]
    rfl
  rw [Objects.parse?_eq l.followedBy hclosed hline l.gap_blank (by simp) (.inl rfl),
    modifiers_read, Objects.line_of_tidy ?_ htidy]
  · rfl
  · rw [Objects.texts_eq] at hclosed
    exact hclosed.sublist (List.sublist_append_left ..)

end Layout

/-- The first token behind the dash decides whether there is a line at all. -/
theorem parse?_eq_none_iff_of_dashed {line rest : List Char} (h : Dashed line rest) :
    parse? line = none ↔ Token.tokenize rest = [] ∨
      ∃ t, (Token.tokenize rest).head? = some t ∧ ∃ mark ∈ ['@', '~', '?'], t.startsWith mark := by
  have hsplit : rest.takeWhile isBlank ++ trimStart rest = rest := List.takeWhile_append_dropWhile
  have htokens := Token.tokenize_blanks_append
    (fun c (hc : c ∈ rest.takeWhile isBlank) => List.mem_takeWhile_imp hc) (trimStart rest)
  rw [hsplit] at htokens
  rw [htokens]
  simp only [parse?, body?_of_dashed h]
  cases Token.tokenize (trimStart rest) with
  | nil => simp
  | cons t ts =>
    have hmarks : (∃ mark ∈ ['@', '~', '?'], t.startsWith mark = true) ↔
        (t.startsWith '@' || t.startsWith '~' || t.startsWith '?') = true := by
      simp [or_and_right, exists_or, or_assoc]
    have hshift : ∀ n mark, (t.shift n).startsWith mark = t.startsWith mark := fun _ _ => rfl
    simp only [List.map_cons, List.head?_cons, Option.some.injEq, exists_eq_left', hshift, hmarks]
    cases t.startsWith '@' || t.startsWith '~' || t.startsWith '?' <;> simp

/-- A line of the grammar whose tokens close their groups is read as exactly its parts. There is no
skill line just where the dash is missing, or a first token behind it, or where this token has the
mark of another part. -/
theorem parse?_exactly :
    (∀ l : Layout, (∀ t ∈ l.texts l.modifiers, depthAfter 0 t = 0) →
        parse? l.text = some l.parts) ∧
      ∀ line, parse? line = none ↔ (∀ rest, ¬ Dashed line rest) ∨
        ∃ rest, Dashed line rest ∧ (Token.tokenize rest = [] ∨
          ∃ t, (Token.tokenize rest).head? = some t ∧
            ∃ mark ∈ ['@', '~', '?'], t.startsWith mark) := by
  constructor
  · intro l hclosed
    refine Layout.parse?_text (closedButLast_of_closed hclosed) fun t ht => ?_
    apply (Objects.solid_of_mem_texts ht).trim_of_closed
    apply hclosed
    rw [Objects.texts_eq]
    exact List.mem_append_left _ ht
  · intro line
    constructor
    · intro hnone
      by_cases hdash : ∃ rest, Dashed line rest
      · obtain ⟨rest, hrest⟩ := hdash
        exact .inr ⟨rest, hrest, (parse?_eq_none_iff_of_dashed hrest).mp hnone⟩
      · exact .inl (not_exists.mp hdash)
    · rintro (hdash | ⟨rest, hrest, hfirst⟩)
      · cases hbody : body? line with
        | none => simp only [parse?, hbody]
        | some body =>
          obtain ⟨rest, hrest, -⟩ := dashed_of_body? hbody
          exact absurd hrest (hdash rest)
      · exact (parse?_eq_none_iff_of_dashed hrest).mpr hfirst

/-- A line with a blank and marks inside groups, wide gaps, and the health modifier first. -/
theorem parse?_exactly_healthFirst :
    let text :=
      "  -say\x7bm=\"a @b\"\x7d @PIR\x7br=[1 2]\x7d ~onUse ?x\x7by ?z\x7d \t?!w =1%-3% .5".toList
    parse? text =
      some {
        mechanic := "say\x7bm=\"a @b\"\x7d".toList
        targeter := some "@PIR\x7br=[1 2]\x7d".toList
        trigger := some "~onUse".toList
        conditions := some "?x\x7by ?z\x7d \t?!w".toList
        chance := some ".5".toList
        healthModifier := some "=1%-3%".toList } := by
  intro text
  let l : Layout := {
    mechanic := "say\x7bm=\"a @b\"\x7d".toList
    targeter := some (.afterSpace "@PIR\x7br=[1 2]\x7d".toList (by decide +kernel))
    trigger := some (.afterSpace "~onUse".toList (by decide +kernel))
    conditions := [.afterSpace "?x\x7by ?z\x7d".toList (by decide +kernel),
      ⟨" \t".toList, "?!w".toList, by decide, List.all_eq_true.mp (by decide), by decide +kernel⟩]
    single := by decide +kernel
    unmarked := by simp
    targeter_marked := by
      rintro _ ⟨⟩
      rfl
    trigger_marked := by
      rintro _ ⟨⟩
      rfl
    conditions_marked := by simp [SpacedToken.afterSpace]
    lead := "  ".toList
    gap := []
    chance := some (.afterSpace ".5".toList (by decide +kernel))
    health := some (.afterSpace "=1%-3%".toList (by decide +kernel))
    healthFirst := true
    lead_blank := List.all_eq_true.mp (by decide)
    gap_blank := by simp
    chance_real := by
      rintro _ ⟨⟩
      decide +kernel
    health_modifier := by
      rintro _ ⟨⟩
      decide +kernel }
  have hread := parse?_exactly.1 l (by decide +kernel)
  have htext : l.text = text := by decide +kernel
  rw [← htext, hread]
  decide +kernel

end SkillLine

end SkillScript
