import Mathlib.Data.List.TakeWhile
import SkillScript.Line.Token
import SkillScript.Proofs.Line.OpenGroups

/-!
# The scope around the end of a text

`Scope.find?` reports the innermost open group of a text, with its owner. When a group is open, it
lies in the last token, which runs to the end of the text. It has an owner exactly when an
identifier stands before it, which blanks and an equals sign may follow.

* `Token.getLast?_tokenize`: the last token holds the innermost open group.
* `Scope.isSome_owner?_iff`: when a group has an owner.
* `Scope.openGroups_of_find?`: the groups around a scope are those that are open before its owner.
-/

namespace SkillScript

/-- Groups are removed from what follows `a` at the depth after `a`. -/
theorem stripGroupsFrom_append (depth : Nat) (a b : List Char) :
    stripGroupsFrom depth (a ++ b) =
      stripGroupsFrom depth a ++ stripGroupsFrom (depthAfter depth a) b := by
  induction a generalizing depth with
  | nil => rfl
  | cons c a ih =>
    rw [List.cons_append, stripGroupsFrom, stripGroupsFrom, depthAfter_cons]
    split
    · exact ih (nest depth c)
    · next h =>
      -- A character that is kept stands at depth zero and opens nothing.
      simp only [Bool.or_eq_true, Bool.and_eq_true, decide_eq_true_eq, not_or, not_and,
        Nat.not_lt, Nat.le_zero] at h
      obtain ⟨⟨ho, -⟩, rfl⟩ := h
      have hnest : nest 0 c = 0 := by simp [nest, ho]
      rw [hnest, ih, List.cons_append]

/-! ## The last token -/

namespace Token

theorem scan_cons_of_not_split {c : Char} {depth : Nat} (h : isBlank c = false ∨ 0 < depth)
    (offset : Nat) (cs : List Char) :
    scan offset depth (c :: cs) =
      (c :: (scan (offset + c.utf8Size) (nest depth c) cs).1,
        (scan (offset + c.utf8Size) (nest depth c) cs).2) := by
  have hsplit : ¬ ((isBlank c && depth == 0) = true) := by
    rcases h with h | h
    · simp [h]
    · simp [Nat.ne_of_gt h]
  rw [scan, if_neg hsplit]

/-- A character that does not end the token that is being read belongs to it. -/
theorem goes_on_of_not_split {c : Char} {depth : Nat} (h : ¬ (isBlank c && depth == 0) = true) :
    isBlank c = false ∨ 0 < depth := by
  simp only [Bool.and_eq_true, beq_iff_eq, not_and] at h
  by_cases hc : isBlank c = true
  · exact .inr (Nat.pos_of_ne_zero (h hc))
  · exact .inl (by simpa using hc)

theorem isBlank_opener (d : Delimiter) : isBlank d.opener = false := by cases d <;> decide

theorem isPlain_of_isBlank {c : Char} (h : isBlank c = true) : IsPlain c :=
  isPlain_of_class (by decide) h

theorem cons_append (offset : Nat) (text : List Char) (a b : List Token) :
    cons offset text (a ++ b) = cons offset text a ++ b := by
  unfold cons
  split <;> rfl

/-- Balanced text inside a group belongs to the token that is being read. -/
theorem scan_balanced {g : List Char} (hg : Balanced g) {depth : Nat} (hd : 0 < depth)
    (offset : Nat) (rest : List Char) :
    scan offset depth (g ++ rest) =
      (g ++ (scan (offset + byteLength g) depth rest).1,
        (scan (offset + byteLength g) depth rest).2) := by
  induction hg generalizing depth offset rest with
  | nil => simp
  | plain hc =>
    rw [List.singleton_append, scan_cons_of_not_split (.inr hd), nest_plain hc]
    simp
  | @group g c d _ hc ih =>
    rw [List.cons_append, scan_cons_of_not_split (.inr hd), nest_opener, List.append_assoc,
      ih (Nat.succ_pos depth), List.singleton_append,
      scan_cons_of_not_split (.inr (Nat.succ_pos depth)), nest_closer hc]
    simp [Nat.add_assoc]
  | append _ _ iha ihb =>
    rw [List.append_assoc, iha hd, ihb hd]
    simp [Nat.add_assoc]

/-- From an opener on, what stays inside its group is one piece. -/
theorem scan_group {inner : List Char} (hinner : Balanced inner) (d : Delimiter)
    (offset depth : Nat) :
    scan offset depth (d.opener :: inner) = (d.opener :: inner, []) := by
  have h := scan_balanced hinner (Nat.succ_pos depth) (offset + d.opener.utf8Size) []
  rw [List.append_nil] at h
  rw [scan_cons_of_not_split (.inl (isBlank_opener d)), nest_opener, h]
  simp [scan]

/-- After `a`, the scan goes on at the depth after `a`. What it reads next belongs to the first
token when no blank of `a` has ended that, and else to a token that starts inside `a`. -/
theorem scan_append (offset depth : Nat) (a : List Char) :
    (∀ b, scan offset depth (a ++ b) =
        (a ++ (scan (offset + byteLength a) (depthAfter depth a) b).1,
          (scan (offset + byteLength a) (depthAfter depth a) b).2)) ∨
      ∃ first done lead start, a = lead ++ start ∧ ∀ b, scan offset depth (a ++ b) =
        (first, done ++ cons (offset + byteLength lead)
          (start ++ (scan (offset + byteLength a) (depthAfter depth a) b).1)
          (scan (offset + byteLength a) (depthAfter depth a) b).2) := by
  induction a generalizing offset depth with
  | nil => left; simp
  | cons c a ih =>
    have hsize : ∀ cs, offset + byteLength (c :: cs) = offset + c.utf8Size + byteLength cs := by
      intro cs
      rw [byteLength_cons, Nat.add_assoc]
    have ih := ih (offset + c.utf8Size) (nest depth c)
    simp only [hsize, depthAfter_cons, List.cons_append]
    by_cases hsplit : (isBlank c && depth == 0) = true
    · -- The blank ends the first token, and what follows starts the next one.
      obtain ⟨hc, rfl⟩ : isBlank c = true ∧ depth = 0 := by simpa using hsplit
      rw [nest_plain (isPlain_of_isBlank hc)] at ih ⊢
      right
      rcases ih with h | ⟨first, done, lead, start, rfl, h⟩
      · refine ⟨[], [], [c], a, rfl, fun b => ?_⟩
        rw [scan, if_pos hsplit, h]
        simp
      · refine ⟨[], cons (offset + c.utf8Size) first done, c :: lead, start, rfl, fun b => ?_⟩
        rw [scan, if_pos hsplit, h, hsize]
        simp only [cons_append]
    · have hstep := goes_on_of_not_split hsplit
      rcases ih with h | ⟨first, done, lead, start, rfl, h⟩
      · left
        intro b
        rw [scan_cons_of_not_split hstep, h]
      · right
        refine ⟨c :: first, done, c :: lead, start, rfl, fun b => ?_⟩
        rw [scan_cons_of_not_split hstep, h, hsize]

/-- After `a`, the tokens of a text go on with the token that the end of `a` is in, and at the depth
after `a`. -/
theorem tokenize_append (a : List Char) :
    ∃ done lead start, a = lead ++ start ∧ ∀ b, tokenize (a ++ b) =
      done ++ cons (byteLength lead) (start ++ (scan (byteLength a) (depthAfter 0 a) b).1)
        (scan (byteLength a) (depthAfter 0 a) b).2 := by
  have h := scan_append 0 0 a
  simp only [Nat.zero_add] at h
  rcases h with h | ⟨first, done, lead, start, hlead, h⟩
  · refine ⟨[], [], a, rfl, fun b => ?_⟩
    rw [tokenize, h]
    rfl
  · refine ⟨cons 0 first done, lead, start, hlead, fun b => ?_⟩
    rw [tokenize, h]
    exact cons_append ..

/-- A group that is still open lies in the last token, which runs to the end of the text. -/
theorem getLast?_tokenize (before : List Char) (d : Delimiter) {inner : List Char}
    (hinner : Balanced inner) :
    ∃ lead start, before = lead ++ start ∧
      (tokenize (before ++ d.opener :: inner)).getLast? =
        some ⟨byteLength lead, start ++ d.opener :: inner⟩ := by
  obtain ⟨done, lead, start, hlead, h⟩ := tokenize_append before
  refine ⟨lead, start, hlead, ?_⟩
  rw [h, scan_group hinner]
  simp [cons]

end Token

/-! ## The owner -/

namespace Scope

/-- The name of an owner. -/
def IsName (name : List Char) : Prop :=
  ∃ c cs, name = c :: cs ∧ isNameStart c = true ∧ ∀ x ∈ cs, isNameChar x = true

/-- Without its trailing blanks, the text ends in a name, or in a name, blanks and an equals
sign. -/
def EndsInName (text : List Char) : Prop :=
  ∃ lead name gap, trimEnd text = lead ++ name ++ gap ∧ IsName name ∧
    (gap = [] ∨ ∃ blanks, gap = blanks ++ ['='] ∧ ∀ c ∈ blanks, isBlank c = true)

theorem isNameChar_of_isNameStart {c : Char} (h : isNameStart c = true) : isNameChar c = true := by
  simp [isNameChar, h]

theorem IsName.isNameChar {name : List Char} (h : IsName name) :
    ∀ c ∈ name, isNameChar c = true := by
  obtain ⟨c, cs, rfl, hc, hcs⟩ := h
  intro x hx
  rcases List.mem_cons.mp hx with rfl | hx
  · exact isNameChar_of_isNameStart hc
  · exact hcs x hx

theorem toNat_of_isNameChar {c : Char} (h : isNameChar c = true) :
    45 ≤ c.toNat ∧ c.toNat ≤ 122 := by
  have hval : c.toNat = c.val.toNat := rfl
  delta isNameChar isNameStart Char.isAlphanum Char.isAlpha Char.isUpper Char.isLower Char.isDigit
    at h
  simp only [Bool.or_eq_true, Bool.and_eq_true, decide_eq_true_eq, beq_iff_eq, ge_iff_le,
    UInt32.le_iff_toNat_le, ← hval] at h
  rcases h with ((((⟨h₁, h₂⟩ | ⟨h₁, h₂⟩) | ⟨h₁, h₂⟩) | rfl) | rfl) | rfl
  · exact ⟨Nat.le_trans (by decide) h₁, Nat.le_trans h₂ (by decide)⟩
  · exact ⟨Nat.le_trans (by decide) h₁, Nat.le_trans h₂ (by decide)⟩
  · exact ⟨Nat.le_trans (by decide) h₁, Nat.le_trans h₂ (by decide)⟩
  · decide
  · decide
  · decide

theorem isBlank_of_isNameChar {c : Char} (h : isNameChar c = true) : isBlank c = false := by
  have hc := toNat_of_isNameChar h
  simp only [isBlank, inRanges, blankRanges, List.any_cons, List.any_nil, Bool.or_false,
    Bool.or_eq_false_iff, Bool.and_eq_false_iff, decide_eq_false_iff_not]
  omega

/-! The texts of the next lemmas are given last character first. -/

/-- What stands before the gap, and the gap without the blanks next to the opener. -/
theorem dropWhile_eq_splitGap (rev : List Char) :
    rev.dropWhile isBlank = (splitGap rev).2 ∨
      ∃ blanks, (∀ c ∈ blanks, isBlank c = true) ∧
        rev.dropWhile isBlank = '=' :: (blanks ++ (splitGap rev).2) := by
  unfold splitGap
  split
  · next rest h =>
    refine .inr ⟨rest.takeWhile isBlank, fun c hc => List.mem_takeWhile_imp hc, ?_⟩
    rw [h, List.takeWhile_append_dropWhile]
  · exact .inl rfl

theorem splitGap_of_name {rev rest : List Char} {c : Char} (hc : isNameChar c = true)
    (h : rev.dropWhile isBlank = c :: rest) : (splitGap rev).2 = c :: rest := by
  have hne : c ≠ '=' := by
    rintro rfl
    exact absurd hc (by decide)
  unfold splitGap
  split
  · next rest' h' =>
    rw [h] at h'
    exact absurd (List.cons.inj h').1 hne
  · exact h

theorem splitGap_of_equals {rev rest blanks : List Char} {c : Char} (hc : isNameChar c = true)
    (hblanks : ∀ c ∈ blanks, isBlank c = true)
    (h : rev.dropWhile isBlank = '=' :: (blanks ++ c :: rest)) : (splitGap rev).2 = c :: rest := by
  unfold splitGap
  split
  · next rest' h' =>
    rw [h] at h'
    rw [← (List.cons.inj h').2, List.dropWhile_append_of_pos hblanks,
      List.dropWhile_cons_of_neg (by simp [isBlank_of_isNameChar hc])]
  · next hno => exact absurd h (hno _)

theorem isSome_owner?_iff_exists (text : List Char) :
    (owner? text).isSome ↔
      ∃ c ∈ (splitGap text.reverse).2.takeWhile isNameChar, isNameStart c = true := by
  unfold owner?
  generalize splitGap text.reverse = gap
  obtain ⟨gap, rest⟩ := gap
  have hempty : ((rest.takeWhile isNameChar).reverse.dropWhile fun c => !isNameStart c).isEmpty ↔
      ¬ ∃ c ∈ rest.takeWhile isNameChar, isNameStart c = true := by
    simp [List.dropWhile_eq_nil_iff]
  simp only
  split
  · next h => simpa using hempty.mp h
  · next h => simpa using not_not.mp (mt hempty.mpr h)

/-- A group has an owner when the text before it ends in a name. -/
theorem isSome_owner?_iff (text : List Char) : (owner? text).isSome ↔ EndsInName text := by
  have htrim : trimEnd text = (text.reverse.dropWhile isBlank).reverse := rfl
  rw [isSome_owner?_iff_exists]
  constructor
  · rintro ⟨c, hc, hstart⟩
    -- The name goes from `c` on to the end of the run of name characters.
    obtain ⟨u, v, huv⟩ := List.append_of_mem hc
    have hu : ∀ x ∈ u, isNameChar x = true := fun x hx =>
      List.mem_takeWhile_imp (by rw [huv]; exact List.mem_append_left _ hx)
    have hname : IsName (c :: u.reverse) := ⟨c, u.reverse, rfl, hstart, by simpa using hu⟩
    obtain ⟨lead, hrest⟩ : ∃ lead, (splitGap text.reverse).2 = u ++ c :: lead :=
      ⟨v ++ (splitGap text.reverse).2.dropWhile isNameChar, by
        rw [← List.cons_append, ← List.append_assoc, ← huv, List.takeWhile_append_dropWhile]⟩
    rcases dropWhile_eq_splitGap text.reverse with h | ⟨blanks, hblanks, h⟩
    · refine ⟨lead.reverse, c :: u.reverse, [], ?_, hname, .inl rfl⟩
      rw [htrim, h, hrest]
      simp
    · refine ⟨lead.reverse, c :: u.reverse, blanks.reverse ++ ['='], ?_, hname,
        .inr ⟨blanks.reverse, rfl, by simpa using hblanks⟩⟩
      rw [htrim, h, hrest]
      simp
  · rintro ⟨lead, name, gap, htext, ⟨c, cs, rfl, hstart, hcs⟩, hgap⟩
    have hall : ∀ x ∈ (c :: cs).reverse, isNameChar x = true := fun x hx =>
      IsName.isNameChar ⟨c, cs, rfl, hstart, hcs⟩ x (List.mem_reverse.mp hx)
    have hrev : text.reverse.dropWhile isBlank =
        gap.reverse ++ ((c :: cs).reverse ++ lead.reverse) := by
      rw [htrim, List.reverse_eq_iff] at htext
      rw [htext]
      simp
    have hsplit : (splitGap text.reverse).2 = (c :: cs).reverse ++ lead.reverse := by
      obtain ⟨l, ls, hl⟩ := List.exists_cons_of_ne_nil (l := (c :: cs).reverse) (by simp)
      have hl' : isNameChar l = true := hall l (by rw [hl]; exact List.mem_cons_self)
      rw [hl] at hrev ⊢
      rcases hgap with rfl | ⟨blanks, rfl, hblanks⟩
      · exact splitGap_of_name hl' hrev
      · have hblanks' : ∀ x ∈ blanks.reverse, isBlank x = true := by simpa using hblanks
        refine splitGap_of_equals hl' hblanks' ?_
        rw [hrev]
        simp
    refine ⟨c, ?_, hstart⟩
    rw [hsplit, List.takeWhile_append_of_pos hall]
    simp

theorem blank_or_equals_of_mem_gap {rev : List Char} {c : Char} (h : c ∈ (splitGap rev).1) :
    isBlank c = true ∨ c = '=' := by
  unfold splitGap at h
  split at h
  · rcases List.mem_append.mp h with h | h
    · exact .inl (List.mem_takeWhile_imp h)
    · rcases List.mem_cons.mp h with h | h
      · exact .inr h
      · exact .inl (List.mem_takeWhile_imp h)
  · exact .inl (List.mem_takeWhile_imp h)

private theorem isName_dropWhile {run : List Char} (hrun : ∀ c ∈ run, isNameChar c = true)
    (hne : run.dropWhile (fun c => !isNameStart c) ≠ []) :
    IsName (run.dropWhile fun c => !isNameStart c) := by
  obtain ⟨c, cs, h⟩ := List.exists_cons_of_ne_nil hne
  have hhead := List.head?_dropWhile_not (fun c => !isNameStart c) run
  rw [h] at hhead
  refine ⟨c, cs, h, by simpa using hhead, fun x hx => hrun x ?_⟩
  exact (List.dropWhile_suffix _).subset (h ▸ List.mem_cons_of_mem c hx)

/-- The name of an owner is one, and nothing but blanks and an equals sign follows it. -/
theorem owner?_parts {text before name gap : List Char} {sigil : Option Sigil}
    (h : owner? text = some (before, sigil, name, gap)) :
    IsName name ∧ ∀ c ∈ gap, isBlank c = true ∨ c = '=' := by
  have hgap : ∀ c ∈ (splitGap text.reverse).1, isBlank c = true ∨ c = '=' := fun c hc =>
    blank_or_equals_of_mem_gap hc
  unfold owner? at h
  generalize splitGap text.reverse = split at h hgap
  obtain ⟨gap', rest⟩ := split
  simp only at h
  split at h
  · cases h
  · next hne =>
    simp only [Option.some.injEq, Prod.mk.injEq] at h
    obtain ⟨-, -, rfl, rfl⟩ := h
    refine ⟨isName_dropWhile ?_ (by simpa using hne), by simpa using hgap⟩
    exact fun c hc => List.mem_takeWhile_imp (List.mem_reverse.mp hc)

theorem isPlain_of_isNameChar {c : Char} (h : isNameChar c = true) : IsPlain c :=
  isPlain_of_class (by decide) h

theorem isPlain_of_mem_sigil {c : Char} {sigil : Option Sigil} (h : c ∈ Sigil.chars sigil) :
    IsPlain c := by
  have hall : ∀ s : Sigil, s.text.toList.all (fun c => !isOpener c && !isCloser c) = true := by
    intro s
    cases s <;> decide
  cases sigil with
  | none => cases h
  | some s => simpa [IsPlain] using List.all_eq_true.mp (hall s) c h

/-- No group opens or closes between the owner of a group and its opener. -/
theorem openGroups_of_owner? {text before name gap : List Char} {sigil : Option Sigil}
    (h : owner? text = some (before, sigil, name, gap)) : openGroups before = openGroups text := by
  obtain ⟨hname, hgap⟩ := owner?_parts h
  have hplain : ∀ x ∈ Sigil.chars sigil ++ name ++ gap, IsPlain x := by
    intro x hx
    rcases List.mem_append.mp hx with hx | hx
    · rcases List.mem_append.mp hx with hx | hx
      · exact isPlain_of_mem_sigil hx
      · exact isPlain_of_isNameChar (hname.isNameChar x hx)
    · rcases hgap x hx with hx | rfl
      · exact Token.isPlain_of_isBlank hx
      · exact ⟨rfl, rfl⟩
  have htext := (owner?_eq_some h).1
  rw [List.append_assoc, List.append_assoc, ← List.append_assoc (Sigil.chars sigil)] at htext
  rw [htext, openGroups_append_balanced before (balanced_of_plain hplain)]

/-! ## The innermost open group -/

/-- What is told of a scope besides the text inside it: its owner, its kind, and the byte offsets of
its opener and of its owner. -/
def report (s : Scope) : Option Sigil × List Char × Delimiter × Nat × Nat :=
  (s.sigil, s.name, s.delimiter, s.openOffset, s.nameOffset)

theorem outer_eq_of_owner? {text before name gap : List Char} {sigil : Option Sigil}
    {d : Delimiter} {inner : List Char} (h : owner? text = some (before, sigil, name, gap)) :
    outer ⟨before, sigil, name, gap, d, inner⟩ = text :=
  (owner?_eq_some h).1.symm

/-- The scope that is found is the innermost open group, and the groups around it are open before
its owner. -/
theorem openGroups_of_find? {cs : List Char} {s : Scope} (h : find? cs = some s) :
    openGroups cs = ⟨s.outer, s.delimiter⟩ :: openGroups s.before ∧
      owner? s.outer = some (s.before, s.sigil, s.name, s.gap) := by
  cases hopen : openGroups cs with
  | nil => rw [find?_eq_none_of_openGroups hopen] at h; cases h
  | cons g outer =>
    obtain ⟨inner, hcs, -, houter⟩ := openGroups_eq_cons hopen
    rw [find?_eq_owner? hopen hcs, Option.map_eq_some_iff] at h
    obtain ⟨⟨before, sigil, name, gap⟩, ho, rfl⟩ := h
    rw [outer_eq_of_owner? ho, openGroups_of_owner? ho, houter]
    exact ⟨rfl, ho⟩

/-- No scope is found when no group is open or the innermost one has no owner. -/
theorem openGroups_of_find?_none {cs : List Char} (h : find? cs = none) :
    openGroups cs = [] ∨ ∃ g outer, openGroups cs = g :: outer ∧ owner? g.before = none := by
  cases hopen : openGroups cs with
  | nil => exact .inl rfl
  | cons g outer =>
    obtain ⟨inner, hcs, -, -⟩ := openGroups_eq_cons hopen
    rw [find?_eq_owner? hopen hcs, Option.map_eq_none_iff] at h
    exact .inr ⟨g, outer, rfl, h⟩

/-- A scope is found when the innermost open group has an owner, and it is that group. -/
theorem exists_find?_iff (cs : List Char) (offset : Nat) (d : Delimiter) :
    (∃ s, find? cs = some s ∧ s.openOffset = offset ∧ s.delimiter = d) ↔
      ∃ g, (openGroups cs).head? = some g ∧ byteLength g.before = offset ∧ g.delimiter = d ∧
        EndsInName g.before := by
  cases h : openGroups cs with
  | nil => simp [find?_eq_none_of_openGroups h]
  | cons g outer =>
    obtain ⟨inner, hcs, -, -⟩ := openGroups_eq_cons h
    rw [find?_eq_owner? h hcs, List.head?_cons]
    cases ho : owner? g.before with
    | none =>
      have hname : ¬ EndsInName g.before := by simp [← isSome_owner?_iff, ho]
      simp [hname]
    | some o =>
      obtain ⟨before, sigil, name, gap⟩ := o
      have hname : EndsInName g.before := by simp [← isSome_owner?_iff, ho]
      simp [openOffset, outer_eq_of_owner? ho, hname]

/-- The backward walk and the forward counter agree on every text. The walk stops at the innermost
group that is open at the end. There is one when the depth is positive, which is the depth at which
tokens and groups are read on. It lies in the last token, which runs to the end, with balanced text
behind the opener. It is reported when the text before it ends in a name, and balanced text behind
it does not change the report. -/
theorem find?_innermost (cs : List Char) :
    (lastOpener? 0 [] cs.reverse).map (fun r => (⟨r.1, r.2.1⟩ : OpenGroup)) =
        (openGroups cs).head? ∧
      ((openGroups cs).head?.isSome ↔ 0 < depthAfter 0 cs) ∧
      (∀ rest, stripGroups (cs ++ rest) =
        stripGroups cs ++ stripGroupsFrom (depthAfter 0 cs) rest) ∧
      (∃ done lead start, cs = lead ++ start ∧ ∀ rest, Token.tokenize (cs ++ rest) =
        done ++ Token.cons (byteLength lead)
          (start ++ (Token.scan (byteLength cs) (depthAfter 0 cs) rest).1)
          (Token.scan (byteLength cs) (depthAfter 0 cs) rest).2) ∧
      (∀ g, (openGroups cs).head? = some g →
        ∃ inner, cs = g.before ++ g.delimiter.opener :: inner ∧ Balanced inner ∧
          ∃ lead t, (Token.tokenize cs).getLast? = some t ∧ cs = lead ++ t.text ∧
            t.offset = byteLength lead ∧ t.offset ≤ byteLength g.before ∧
            byteLength g.before < t.stop ∧ t.stop = byteLength cs) ∧
      (∀ offset d, (∃ s, find? cs = some s ∧ s.openOffset = offset ∧ s.delimiter = d) ↔
        ∃ g, (openGroups cs).head? = some g ∧ byteLength g.before = offset ∧ g.delimiter = d ∧
          EndsInName g.before) ∧
      ∀ g, Balanced g → (find? (cs ++ g)).map report = (find? cs).map report := by
  refine ⟨?_, ?_, stripGroupsFrom_append 0 cs, Token.tokenize_append cs, fun g hg => ?_,
    exists_find?_iff cs, fun g hg => ?_⟩
  · rw [lastOpener?_eq_getElem?, List.reverse_reverse, List.head?_eq_getElem?]
  · rw [← length_openGroups]
    cases openGroups cs <;> simp
  · obtain ⟨outer, h⟩ : ∃ outer, openGroups cs = g :: outer := List.head?_eq_some_iff.mp hg
    obtain ⟨inner, hcs, hinner, -⟩ := openGroups_eq_cons h
    obtain ⟨lead, start, hlead, hlast⟩ := Token.getLast?_tokenize g.before g.delimiter hinner
    have hsize : 0 < g.delimiter.opener.utf8Size := Char.utf8Size_pos _
    refine ⟨inner, hcs, hinner, lead, _, hcs ▸ hlast, ?_, rfl, ?_, ?_, ?_⟩
    · rw [hcs, hlead, List.append_assoc]
    · rw [hlead, byteLength_append]
      exact Nat.le_add_right _ _
    · simp only [Token.stop, hlead, byteLength_append, byteLength_cons]
      omega
    · simp only [Token.stop, hcs, hlead, byteLength_append, byteLength_cons]
      omega
  · rw [find?_append_balanced cs hg, Option.map_map]
    rfl

/-- A text with a stray closer, a closed group, and an open group inside another. -/
theorem find?_innermost_nested :
    let cs := "\x7d a\x7bb=[ c\x7b\x7d d".toList
    let g := "\x7bx]".toList
    (openGroups cs).head? = some ⟨"\x7d a\x7bb=".toList, .bracket⟩ ∧ Balanced g ∧
      (∃ inner, cs = "\x7d a\x7bb=".toList ++ '[' :: inner ∧ Balanced inner) ∧
      (find? (cs ++ g)).map report = (find? cs).map report := by
  intro cs g
  have hg : Balanced g := .group .brace (.plain (c := 'x') ⟨rfl, rfl⟩) (c := ']') rfl
  have htop : (openGroups cs).head? = some ⟨"\x7d a\x7bb=".toList, .bracket⟩ := by decide
  have h := find?_innermost cs
  obtain ⟨inner, hcs, hinner, -⟩ := h.2.2.2.2.1 _ htop
  exact ⟨htop, hg, ⟨inner, hcs, hinner⟩, h.2.2.2.2.2.2 g hg⟩

end Scope

end SkillScript
