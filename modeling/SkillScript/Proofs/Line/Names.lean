import SkillScript.Proofs.Line.Enclosing
import SkillScript.Proofs.Line.Words

/-!
# A name as a word and as an owner

A name is met in two ways: as the word under the cursor, by a scan in both directions over the
letters of all scripts, and as the owner of the group that is open behind it, by a scan backward
over ASCII. Both scans stop at the ends of the name and agree on the sigil before it, but for a lone
trigger sigil, which an owner does not have.

* `Scope.isLongest_splitSigil`: the sigil of an owner is the longest that it can be.
* `Scope.wordAt_append`: the word under every cursor in a name.
* `Scope.owner?_append`: the owner that a gap and an opener follow.
* `Scope.find?_of_wordAt`: the two scans agree.
-/

namespace SkillScript

namespace Scope

/-! ## Sigils -/

/-- `sigil` is the longest sigil of an owner that ends the text, and `none` when there is none. -/
structure IsLongest (sigil : Option Sigil) (text : List Char) : Prop where
  ends : Sigil.chars sigil <:+ text
  ne_trigger : sigil ≠ some .trigger
  longest : ∀ s : Sigil, s ≠ .trigger → s.text.toList <:+ text →
    s.text.toList.length ≤ (Sigil.chars sigil).length

theorem splitSigil_of_trigger {rev : List Char} (h : (Sigil.splitEnd rev).1 = some .trigger) :
    splitSigil rev = (none, rev) := by
  unfold splitSigil
  split
  · rfl
  · next hother => exact (hother (Sigil.splitEnd rev).2 (Prod.ext h rfl)).elim

theorem splitSigil_of_ne_trigger {rev : List Char} (h : (Sigil.splitEnd rev).1 ≠ some .trigger) :
    splitSigil rev = Sigil.splitEnd rev := by
  unfold splitSigil
  split
  · next hsplit =>
    rw [hsplit] at h
    exact absurd rfl h
  · rfl

theorem splitSigil_ne_trigger (rev : List Char) : (splitSigil rev).1 ≠ some .trigger := by
  by_cases h : (Sigil.splitEnd rev).1 = some .trigger
  · simp [splitSigil_of_trigger h]
  · rwa [splitSigil_of_ne_trigger h]

/-- No sigil of an owner ends another one, so the one at the end of a text is found. -/
theorem splitSigil_sigil_append {s : Sigil} (hs : s ≠ .trigger) (rev : List Char) :
    splitSigil (s.text.toList.reverse ++ rev) = (some s, rev) := by
  cases s with
  | trigger => exact absurd rfl hs
  | targeter | condition | negatedCondition | triggerCondition | negatedTriggerCondition => rfl

theorem isLongest_splitSigil (text : List Char) : IsLongest (splitSigil text.reverse).1 text := by
  refine ⟨?_, splitSigil_ne_trigger _, fun s hs hends => ?_⟩
  · exact List.reverse_prefix.mp ⟨_, splitSigil_append text.reverse⟩
  · obtain ⟨lead, rfl⟩ := hends
    rw [List.reverse_append, splitSigil_sigil_append hs]
    exact Nat.le_refl _

/-! ## Names -/

theorem isWordChar_of_isNameChar {c : Char} (h : isNameChar c = true) : isWordChar c = true := by
  have hc := (toNat_of_isNameChar h).2
  have hascii : c.toNat < 128 := by omega
  simp only [isNameChar, isNameStart, Bool.or_eq_true] at h
  simp only [isWordChar, isAlphanumeric, hascii, ↓reduceIte, Bool.or_eq_true]
  tauto

theorem utf8Size_of_isNameChar {c : Char} (h : isNameChar c = true) : c.utf8Size = 1 := by
  have hc := (toNat_of_isNameChar h).2
  rw [Char.utf8Size_eq_one_iff, UInt32.le_iff_toNat_le]
  exact Nat.le_trans hc (by decide)

variable {lead name gap : List Char}

/-- Every byte of a name starts a character. -/
theorem IsName.exists_split (h : IsName name) {n : Nat} (hn : n ≤ byteLength name) :
    ∃ a b, name = a ++ b ∧ byteLength a = n := by
  have hlength : ∀ cs : List Char, (∀ c ∈ cs, Scope.isNameChar c = true) →
      byteLength cs = cs.length := by
    intro cs hcs
    induction cs with
    | nil => rfl
    | cons c cs ih =>
      rw [byteLength_cons, utf8Size_of_isNameChar (hcs c List.mem_cons_self),
        ih fun x hx => hcs x (List.mem_cons_of_mem c hx), List.length_cons]
      omega
  refine ⟨name.take n, name.drop n, (List.take_append_drop n name).symm, ?_⟩
  rw [hlength name h.isNameChar] at hn
  rw [hlength _ fun c hc => h.isNameChar c (List.mem_of_mem_take hc), List.length_take]
  omega

/-! ## The word under the cursor -/

/-- The word that a name makes behind a text. -/
def wordOf (lead name : List Char) : Word where
  before := (Sigil.splitEnd lead.reverse).2.reverse
  sigil := (Sigil.splitEnd lead.reverse).1
  text := name

theorem stands_wordOf (hlead : ∀ c, lead.getLast? = some c → isWordChar c = false)
    (hname : IsName name) : (wordOf lead name).Stands lead [] [] := by
  refine ⟨by simp, fun c hc => isWordChar_of_isNameChar (hname.isNameChar c hc), ?_, ?_, by simp,
    ?_⟩
  · obtain ⟨c, cs, rfl, hc, -⟩ := hname
    refine ⟨c, cs, rfl, ?_⟩
    rintro rfl
    exact absurd hc (by decide)
  · simpa using hlead
  · simp [wordOf]

/-- Every cursor from the start of a name to its end has the name under it. -/
theorem wordAt_append (hlead : ∀ c, lead.getLast? = some c → isWordChar c = false)
    (hname : IsName name) {cursor : Nat} (hstart : byteLength lead ≤ cursor)
    (hstop : cursor ≤ byteLength (lead ++ name)) :
    wordAt (lead ++ name) cursor = .ok (some (wordOf lead name)) := by
  rw [byteLength_append] at hstop
  obtain ⟨a, b, hab, ha⟩ := hname.exists_split (n := cursor - byteLength lead) (by omega)
  have hsplit : splitAtByte? (lead ++ name) cursor = some (lead ++ a, b) := by
    have := splitAtByte?_append (lead ++ a) b
    rwa [byteLength_append, ha, List.append_assoc, ← hab,
      show byteLength lead + (cursor - byteLength lead) = cursor by omega] at this
  have hbetween := (stands_wordOf hlead hname).between_eq (a := a) (b := b) hab.symm
  rw [List.append_nil] at hbetween
  have hmin : min cursor (byteLength (lead ++ name)) = cursor := by
    rw [byteLength_append]
    omega
  simp only [wordAt, hmin, hsplit, hbetween]

theorem start_wordOf (lead name : List Char) : (wordOf lead name).start = byteLength lead := by
  have hsplit := congrArg List.reverse (Sigil.splitEnd_append lead.reverse)
  rw [List.reverse_append, List.reverse_reverse, List.reverse_reverse] at hsplit
  rw [Word.start, wordOf, hsplit]

/-! ## The owner -/

/-- The text may stand between an owner and its opener: blanks and at most one equals sign. -/
structure IsGap (gap : List Char) : Prop where
  chars : ∀ c ∈ gap, isBlank c = true ∨ c = '='
  equals : gap.count '=' ≤ 1

/-- A gap is blanks, or blanks around an equals sign. -/
theorem IsGap.blanks_or (h : IsGap gap) :
    (∀ c ∈ gap, isBlank c = true) ∨ ∃ a b, gap = a ++ '=' :: b ∧
      (∀ c ∈ a, isBlank c = true) ∧ ∀ c ∈ b, isBlank c = true := by
  by_cases hmem : '=' ∈ gap
  · obtain ⟨a, b, rfl⟩ := List.append_of_mem hmem
    have hcount := h.equals
    rw [List.count_append, List.count_cons_self] at hcount
    have ha : '=' ∉ a := List.count_eq_zero.mp (by omega)
    have hb : '=' ∉ b := List.count_eq_zero.mp (by omega)
    refine .inr ⟨a, b, rfl, fun c hc => ?_, fun c hc => ?_⟩
    · exact (h.chars c (by simp [hc])).resolve_right fun heq => ha (heq ▸ hc)
    · exact (h.chars c (by simp [hc])).resolve_right fun heq => hb (heq ▸ hc)
  · exact .inl fun c hc => (h.chars c hc).resolve_right fun heq => hmem (heq ▸ hc)

/-- A gap behind a name is split off whole. The texts are given last character first. -/
theorem IsGap.splitGap_append (h : IsGap gap) {c : Char} (hc : isNameChar c = true)
    (rest : List Char) : splitGap (gap.reverse ++ c :: rest) = (gap.reverse, c :: rest) := by
  have hsnd : (splitGap (gap.reverse ++ c :: rest)).2 = c :: rest := by
    have hblank : (c :: rest).dropWhile isBlank = c :: rest := by
      simp [isBlank_of_isNameChar hc]
    rcases h.blanks_or with hblanks | ⟨a, b, rfl, ha, hb⟩
    · refine splitGap_of_name hc ?_
      rw [List.dropWhile_append_of_pos (by simpa using hblanks), hblank]
    · have ha' : ∀ x ∈ a.reverse, isBlank x = true := by simpa using ha
      refine splitGap_of_equals hc ha' ?_
      have hequals : isBlank '=' = false := by decide
      rw [List.reverse_append, List.reverse_cons, List.append_assoc, List.append_assoc,
        List.dropWhile_append_of_pos (by simpa using hb)]
      simp [hequals]
  have hwhole := Scope.splitGap_append (gap.reverse ++ c :: rest)
  rw [hsnd] at hwhole
  exact Prod.ext (List.append_cancel_right hwhole) hsnd

/-- The name that ends a text before a gap owns what opens behind the gap. -/
theorem owner?_append (hlead : ∀ c, lead.getLast? = some c → isWordChar c = false)
    (hname : IsName name) (hgap : IsGap gap) :
    owner? (lead ++ name ++ gap) = some ((splitSigil lead.reverse).2.reverse,
      (splitSigil lead.reverse).1, name, gap) := by
  have hsplit : splitGap (lead ++ name ++ gap).reverse =
      (gap.reverse, name.reverse ++ lead.reverse) := by
    obtain ⟨c, rest, hrev⟩ : ∃ c rest, name.reverse = c :: rest := by
      obtain ⟨c, cs, rfl, -, -⟩ := hname
      exact List.exists_cons_of_ne_nil (by simp)
    have hc : isNameChar c = true :=
      hname.isNameChar c (List.mem_reverse.mp (by rw [hrev]; exact List.mem_cons_self))
    rw [List.reverse_append, List.reverse_append, hrev, List.cons_append]
    exact hgap.splitGap_append hc _
  obtain ⟨htake, hdrop⟩ : (name.reverse ++ lead.reverse).takeWhile isNameChar = name.reverse ∧
      (name.reverse ++ lead.reverse).dropWhile isNameChar = lead.reverse := by
    apply span_append
    · simpa using hname.isNameChar
    · intro c hc
      rw [List.head?_reverse] at hc
      by_contra hnot
      have := isWordChar_of_isNameChar (Bool.not_eq_false _ ▸ hnot)
      simp [hlead c hc] at this
  obtain ⟨c, cs, rfl, hstart, -⟩ := hname
  simp only [owner?, hsplit, htake, hdrop]
  simp [hstart]

/-- The group that opens behind a name and a gap is owned by the name. -/
theorem find?_append (hlead : ∀ c, lead.getLast? = some c → isWordChar c = false)
    (hname : IsName name) (hgap : IsGap gap) (d : Delimiter) :
    find? (lead ++ name ++ gap ++ [d.opener]) = some
      ⟨(splitSigil lead.reverse).2.reverse, (splitSigil lead.reverse).1, name, gap, d, []⟩ := by
  have hopen := openGroups_concat (lead ++ name ++ gap) d.opener
  rw [nextGroups_opener] at hopen
  rw [find?_eq_owner? hopen rfl, owner?_append hlead hname hgap]
  rfl

/-- Behind a text that does not end in a word character, a name is the word under every cursor from
its start to its end, and it owns the group that opens behind it and a gap. The sigil of the owner
is the longest that ends the text before the name. It is that of the word, and both start in the
same place, unless the word has a lone trigger sigil. Then the owner has none and starts with the
name. -/
theorem find?_of_wordAt (lead name gap : List Char) (d : Delimiter)
    (hlead : ∀ c, lead.getLast? = some c → isWordChar c = false) (hname : IsName name)
    (hgap : IsGap gap) :
    ∃ w s,
      (∀ cursor, byteLength lead ≤ cursor → cursor ≤ byteLength lead + byteLength name →
        wordAt (lead ++ name) cursor = .ok (some w)) ∧
      w.text = name ∧ w.start = byteLength lead ∧
      find? (lead ++ name ++ gap ++ [d.opener]) = some s ∧
      s.name = name ∧ s.openOffset = byteLength (lead ++ name ++ gap) ∧ s.delimiter = d ∧
      IsLongest s.sigil lead ∧
      (w.sigil ≠ some .trigger → s.sigil = w.sigil ∧ s.nameOffset = w.sigilStart) ∧
      (w.sigil = some .trigger → s.sigil = none ∧ s.nameOffset = w.start) := by
  refine ⟨wordOf lead name, _, fun cursor hstart hstop => ?_, rfl, start_wordOf lead name,
    find?_append hlead hname hgap d, rfl, ?_, rfl, isLongest_splitSigil lead, fun h => ?_,
    fun h => ?_⟩
  · exact wordAt_append hlead hname hstart (by rwa [byteLength_append])
  · rw [openOffset, outer_eq_of_owner? (owner?_append hlead hname hgap)]
  · rw [splitSigil_of_ne_trigger h]
    exact ⟨rfl, rfl⟩
  · rw [start_wordOf, splitSigil_of_trigger h]
    simp [nameOffset]

/-- A negated condition with its list behind a line break and an equals sign, and a name behind a
lone trigger sigil. -/
theorem find?_of_wordAt_sigils :
    let lead := "ä ?~!".toList
    let name := "is-Night:2".toList
    let gap := " \n= ".toList
    IsName name ∧ IsGap gap ∧
      (∃ w s, wordAt (lead ++ name) 13 = .ok (some w) ∧
        w.sigil = some .negatedTriggerCondition ∧
        find? (lead ++ name ++ gap ++ ['[']) = some s ∧ s.sigil = w.sigil ∧
        s.nameOffset = w.sigilStart) ∧
      ∃ w s, wordAt (['~'] ++ name) 11 = .ok (some w) ∧ w.sigil = some .trigger ∧
        find? (['~'] ++ name ++ gap ++ ['\x7b']) = some s ∧ s.sigil = none ∧
        s.nameOffset = w.start := by
  intro lead name gap
  have hname : IsName name :=
    ⟨'i', "s-Night:2".toList, by decide +kernel, by decide, List.all_eq_true.mp (by decide +kernel)⟩
  have hgap : IsGap gap := by
    have hall : (gap.all fun c => isBlank c || c == '=') = true := by decide +kernel
    exact ⟨fun c hc => by simpa using List.all_eq_true.mp hall c hc, by decide +kernel⟩
  have hbang : isWordChar '!' = false := by decide +kernel
  have htilde : isWordChar '~' = false := by decide +kernel
  have hlead : ∀ c, lead.getLast? = some c → isWordChar c = false := by
    rintro c ⟨⟩
    exact hbang
  obtain ⟨w, s, hword, -, -, hfind, -, -, -, -, hsame, -⟩ :=
    find?_of_wordAt lead name gap .bracket hlead hname hgap
  obtain ⟨w', s', hword', -, -, hfind', -, -, -, -, -, hbare⟩ :=
    find?_of_wordAt ['~'] name gap .brace (by rintro c ⟨⟩; exact htilde) hname hgap
  have hw := hword 13 (by decide +kernel) (by decide +kernel)
  have hw' := hword' 11 (by decide +kernel) (by decide +kernel)
  have hread : wordAt (lead ++ name) 13 =
      .ok (some ⟨"ä ".toList, some .negatedTriggerCondition, name⟩) := by decide +kernel
  have hread' : wordAt (['~'] ++ name) 11 = .ok (some ⟨[], some .trigger, name⟩) := by
    decide +kernel
  cases hw.symm.trans hread
  cases hw'.symm.trans hread'
  exact ⟨hname, hgap, ⟨_, s, hw, rfl, hfind, hsame (by decide)⟩, _, s', hw', rfl, hfind', hbare rfl⟩

end Scope

end SkillScript
