import SkillScript.Line.Scope

/-!
# The groups that are open in a text

Reading a text forward, an opener pushes a group and a closer pops the innermost one, whatever its
kind; a closer with nothing open does nothing. `openGroups` is the stack at the end of the text. The
scans of this library count instead: forward a depth that stays at zero (`depthAfter`), backward the
closers that are still to be matched (`Scope.lastOpener?`). Both agree with the stack.

* `length_openGroups`: the depth is the height of the stack.
* `lastOpener?_eq_getElem?`: the backward walk that has met `k` closers stops at group `k`.
* `openGroups_eq_cons`: behind the innermost open group the text is balanced, and the groups around
  it are those that were open at its opener.
* `openGroups_append_balanced`: balanced text does not change the stack.
* `Scope.find?_append_balanced`: nor does it change the scope that is found.
-/

namespace SkillScript

/-- A group that is not closed yet, by the text before its opener and its kind. -/
structure OpenGroup where
  before : List Char
  delimiter : Delimiter
  deriving DecidableEq, Repr

/-- The open groups after `c`, innermost first, where `read` is the text before it. -/
def nextGroups (read : List Char) (groups : List OpenGroup) (c : Char) : List OpenGroup :=
  match Delimiter.ofOpener? c with
  | some delimiter => ⟨read, delimiter⟩ :: groups
  | none => if isCloser c then groups.tail else groups

/-- The open groups at the end of a text that is read on from `read`. -/
def openGroupsFrom (read : List Char) (groups : List OpenGroup) : List Char → List OpenGroup
  | [] => groups
  | c :: cs => openGroupsFrom (read ++ [c]) (nextGroups read groups c) cs

/-- The groups that are open at the end of a text, innermost first. -/
def openGroups (cs : List Char) : List OpenGroup := openGroupsFrom [] [] cs

/-! ## Characters -/

/-- The character neither opens nor closes a group. -/
def IsPlain (c : Char) : Prop := isOpener c = false ∧ isCloser c = false

theorem isOpener_opener (d : Delimiter) : isOpener d.opener = true := by cases d <;> rfl

theorem ofOpener?_opener (d : Delimiter) : Delimiter.ofOpener? d.opener = some d := by
  cases d <;> rfl

theorem isOpener_of_isCloser {c : Char} (h : isCloser c = true) : isOpener c = false := by
  simp only [isCloser, Bool.or_eq_true, beq_iff_eq] at h
  rcases h with rfl | rfl <;> rfl

theorem ofOpener?_eq_none {c : Char} (h : isOpener c = false) : Delimiter.ofOpener? c = none := by
  simp only [isOpener, Bool.or_eq_false_iff, beq_eq_false_iff_ne] at h
  rw [Delimiter.ofOpener?, if_neg h.1, if_neg h.2]

/-- A character opens a group, closes one or is plain. -/
theorem opener_or_closer_or_plain (c : Char) :
    (∃ d : Delimiter, c = d.opener) ∨ isCloser c = true ∨ IsPlain c := by
  cases ho : isOpener c with
  | true =>
    simp only [isOpener, Bool.or_eq_true, beq_iff_eq] at ho
    rcases ho with rfl | rfl
    · exact .inl ⟨.brace, rfl⟩
    · exact .inl ⟨.bracket, rfl⟩
  | false =>
    cases hc : isCloser c with
    | true => exact .inr (.inl rfl)
    | false => exact .inr (.inr ⟨ho, hc⟩)

/-- The characters of a class that no delimiter belongs to are plain. -/
theorem isPlain_of_class {p : Char → Bool}
    (hp : ['\x7b', '[', '\x7d', ']'].all (!p ·) = true) {c : Char} (h : p c = true) :
    IsPlain c := by
  have hne : ∀ d ∈ ['\x7b', '[', '\x7d', ']'], c ≠ d := by
    rintro d hd rfl
    simpa [h] using List.all_eq_true.mp hp c hd
  simp only [List.mem_cons, List.not_mem_nil, or_false, forall_eq_or_imp, forall_eq] at hne
  simp [IsPlain, isOpener, isCloser, hne]

section Step

variable {read : List Char} {groups : List OpenGroup} {c : Char} {depth : Nat}

@[simp] theorem nextGroups_opener (d : Delimiter) :
    nextGroups read groups d.opener = ⟨read, d⟩ :: groups := by
  rw [nextGroups, ofOpener?_opener]

theorem nextGroups_closer (h : isCloser c = true) : nextGroups read groups c = groups.tail := by
  rw [nextGroups, ofOpener?_eq_none (isOpener_of_isCloser h), if_pos h]

theorem nextGroups_plain (h : IsPlain c) : nextGroups read groups c = groups := by
  rw [nextGroups, ofOpener?_eq_none h.1, if_neg (by simp [h.2])]

@[simp] theorem nest_opener (d : Delimiter) : nest depth d.opener = depth + 1 := by
  rw [nest, if_pos (isOpener_opener d)]

theorem nest_closer (h : isCloser c = true) : nest depth c = depth - 1 := by
  rw [nest, if_neg (by simp [isOpener_of_isCloser h]), if_pos h]

theorem nest_plain (h : IsPlain c) : nest depth c = depth := by
  rw [nest, if_neg (by simp [h.1]), if_neg (by simp [h.2])]

/-- The depth moves with the height of the stack. -/
theorem length_nextGroups : (nextGroups read groups c).length = nest groups.length c := by
  rcases opener_or_closer_or_plain c with ⟨d, rfl⟩ | h | h
  · simp
  · rw [nextGroups_closer h, nest_closer h, List.length_tail]
  · rw [nextGroups_plain h, nest_plain h]

end Step

/-! ## The stack -/

theorem openGroupsFrom_append (read : List Char) (groups : List OpenGroup) (a b : List Char) :
    openGroupsFrom read groups (a ++ b) =
      openGroupsFrom (read ++ a) (openGroupsFrom read groups a) b := by
  induction a generalizing read groups with
  | nil => simp [openGroupsFrom]
  | cons c a ih =>
    rw [List.cons_append, openGroupsFrom, openGroupsFrom, ih, List.append_assoc,
      List.singleton_append]

theorem openGroups_append (a b : List Char) :
    openGroups (a ++ b) = openGroupsFrom a (openGroups a) b := by
  rw [openGroups, openGroupsFrom_append, List.nil_append, openGroups]

@[simp] theorem openGroups_nil : openGroups [] = [] := rfl

theorem openGroups_concat (cs : List Char) (c : Char) :
    openGroups (cs ++ [c]) = nextGroups cs (openGroups cs) c := by
  rw [openGroups_append, openGroupsFrom, openGroupsFrom]

theorem length_openGroupsFrom (read : List Char) (groups : List OpenGroup) (cs : List Char) :
    (openGroupsFrom read groups cs).length = depthAfter groups.length cs := by
  induction cs generalizing read groups with
  | nil => rfl
  | cons c cs ih => rw [openGroupsFrom, ih, length_nextGroups, depthAfter_cons]

/-- The depth at the end of a text is the number of groups that are open there. -/
theorem length_openGroups (cs : List Char) : (openGroups cs).length = depthAfter 0 cs :=
  length_openGroupsFrom [] [] cs

/-! ## Balanced text -/

/-- Every group of the text is closed in it, and every closer closes one. The kinds of an opener
and its closer may differ. -/
inductive Balanced : List Char → Prop
  | nil : Balanced []
  | plain {c : Char} (h : IsPlain c) : Balanced [c]
  | group {g : List Char} {c : Char} (d : Delimiter) (hg : Balanced g) (hc : isCloser c = true) :
      Balanced (d.opener :: (g ++ [c]))
  | append {a b : List Char} (ha : Balanced a) (hb : Balanced b) : Balanced (a ++ b)

theorem balanced_of_plain {cs : List Char} (h : ∀ c ∈ cs, IsPlain c) : Balanced cs := by
  induction cs with
  | nil => exact .nil
  | cons c cs ih =>
    exact .append (.plain (h c List.mem_cons_self)) (ih fun x hx => h x (List.mem_cons_of_mem c hx))

theorem openGroupsFrom_balanced {g : List Char} (h : Balanced g) (read : List Char)
    (groups : List OpenGroup) : openGroupsFrom read groups g = groups := by
  induction h generalizing read groups with
  | nil => rfl
  | plain h => rw [openGroupsFrom, nextGroups_plain h, openGroupsFrom]
  | group d _ hc ih =>
    rw [openGroupsFrom, openGroupsFrom_append, ih, openGroupsFrom, nextGroups_closer hc,
      openGroupsFrom, nextGroups_opener, List.tail_cons]
  | append _ _ iha ihb => rw [openGroupsFrom_append, iha, ihb]

/-- Balanced text leaves the open groups as they are. -/
theorem openGroups_append_balanced (t : List Char) {g : List Char} (h : Balanced g) :
    openGroups (t ++ g) = openGroups t := by
  rw [openGroups_append, openGroupsFrom_balanced h]

/-- Behind the innermost open group the text is balanced, and the groups around it are those that
were open at its opener. -/
theorem openGroups_eq_cons {cs : List Char} {g : OpenGroup} {outer : List OpenGroup}
    (h : openGroups cs = g :: outer) :
    ∃ inner, cs = g.before ++ g.delimiter.opener :: inner ∧ Balanced inner ∧
      openGroups g.before = outer := by
  induction hn : cs.length using Nat.strongRecOn generalizing cs g outer with
  | ind n ih =>
    subst hn
    obtain rfl | ⟨init, c, hcs⟩ := List.eq_nil_or_concat cs
    · cases h
    rw [List.concat_eq_append] at hcs
    subst hcs
    rw [openGroups_concat] at h
    rcases opener_or_closer_or_plain c with ⟨d, rfl⟩ | hc | hc
    · rw [nextGroups_opener] at h
      cases h
      exact ⟨[], rfl, .nil, rfl⟩
    · -- The closer takes the group that was innermost with it, so the text of `g` goes on through
      -- all of that group.
      rw [nextGroups_closer hc] at h
      obtain ⟨g', hg'⟩ : ∃ g', openGroups init = g' :: g :: outer := by
        cases hi : openGroups init with
        | nil => rw [hi] at h; cases h
        | cons g' rest => rw [hi, List.tail_cons] at h; exact ⟨g', by rw [h]⟩
      obtain ⟨inner', hinit, hinner', hbefore⟩ := ih init.length (by simp) hg' rfl
      have hlt : g'.before.length < (init ++ [c]).length := by
        rw [hinit]
        simp only [List.length_append, List.length_cons]
        omega
      obtain ⟨inner, hbefore', hinner, houter⟩ := ih g'.before.length hlt hbefore rfl
      refine ⟨inner ++ g'.delimiter.opener :: (inner' ++ [c]), ?_, ?_, houter⟩
      · rw [hinit, hbefore']
        simp
      · exact .append hinner (.group g'.delimiter hinner' hc)
    · rw [nextGroups_plain hc] at h
      obtain ⟨inner, hinit, hinner, houter⟩ := ih init.length (by simp) h rfl
      refine ⟨inner ++ [c], ?_, .append hinner (.plain hc), houter⟩
      rw [hinit]
      simp

/-! ## The backward walk -/

namespace Scope

/-- A backward walk that has met `k` closers without an opener stops at the group that is open
around `k` others. -/
theorem lastOpener?_eq_getElem? (k : Nat) (after rev : List Char) :
    (lastOpener? k after rev).map (fun r => (⟨r.1, r.2.1⟩ : OpenGroup)) =
      (openGroups rev.reverse)[k]? := by
  fun_induction lastOpener? k after rev with
  | case1 => simp
  | case2 k after c rev hc ih =>
    rw [ih, List.reverse_cons, openGroups_concat, nextGroups_closer hc, List.getElem?_tail]
  | case3 k after c rev hc ho ih =>
    rw [ih, List.reverse_cons, openGroups_concat, nextGroups, ho, if_neg hc]
  | case4 after c rev hc d ho =>
    rw [List.reverse_cons, openGroups_concat, nextGroups, ho]
    rfl
  | case5 after c rev hc d ho k ih =>
    rw [ih, List.reverse_cons, openGroups_concat, nextGroups, ho]
    rfl

/-- The walk from the end of a text stops at the innermost open group. -/
theorem lastOpener?_of_openGroups {cs : List Char} {g : OpenGroup} {outer : List OpenGroup}
    {inner : List Char} (h : openGroups cs = g :: outer)
    (hcs : cs = g.before ++ g.delimiter.opener :: inner) :
    lastOpener? 0 [] cs.reverse = some (g.before, g.delimiter, inner) := by
  have htop := lastOpener?_eq_getElem? 0 [] cs.reverse
  rw [List.reverse_reverse, h, List.getElem?_cons_zero, Option.map_eq_some_iff] at htop
  obtain ⟨⟨before, delimiter, after⟩, hlast, rfl⟩ := htop
  have htext := lastOpener?_eq_some hlast
  rw [List.reverse_reverse, List.append_nil, hcs] at htext
  have hinner := (List.cons.inj (List.append_cancel_left htext)).2
  rw [hlast, hinner]

/-- The scope at the end of a text is the innermost open group with its owner. -/
theorem find?_eq_owner? {cs : List Char} {g : OpenGroup} {outer : List OpenGroup}
    {inner : List Char} (h : openGroups cs = g :: outer)
    (hcs : cs = g.before ++ g.delimiter.opener :: inner) :
    find? cs = (owner? g.before).map fun (before, sigil, name, gap) =>
      { before, sigil, name, gap, delimiter := g.delimiter, inner } := by
  rw [find?, lastOpener?_of_openGroups h hcs]
  cases ho : owner? g.before <;> simp [ho]

theorem find?_eq_none_of_openGroups {cs : List Char} (h : openGroups cs = []) :
    find? cs = none := by
  have htop := lastOpener?_eq_getElem? 0 [] cs.reverse
  rw [List.reverse_reverse, h, List.getElem?_nil, Option.map_eq_none_iff] at htop
  rw [find?, htop]

/-- Balanced text at the end of a scope becomes part of the text inside it and changes nothing
else. -/
theorem find?_append_balanced (t : List Char) {g : List Char} (hg : Balanced g) :
    find? (t ++ g) = (find? t).map fun s => { s with inner := s.inner ++ g } := by
  have hopen := openGroups_append_balanced t hg
  cases h : openGroups t with
  | nil =>
    rw [find?_eq_none_of_openGroups h, find?_eq_none_of_openGroups (hopen.trans h), Option.map_none]
  | cons top outer =>
    obtain ⟨inner, ht, -, -⟩ := openGroups_eq_cons h
    have htg : t ++ g = top.before ++ top.delimiter.opener :: (inner ++ g) := by
      rw [ht]
      simp
    rw [find?_eq_owner? h ht, find?_eq_owner? (hopen.trans h) htg, Option.map_map]
    rfl

end Scope

end SkillScript
