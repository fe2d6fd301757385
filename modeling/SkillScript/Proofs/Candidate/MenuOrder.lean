import Mathlib.Algebra.Group.Nat.Defs
import SkillScript.Candidate.Basic

/-!
# The order of an editor's menu

An editor sorts a menu by the sort texts of its entries, character by character. The sort text of an
entry is its number with zeros in front up to four digits (`sortWidth`).

* `lastDigits_lt_iff`: texts with the same number of digits are sorted as numbers.
* `sortText_lt_iff`, `sortText_gt_iff`: a text is sorted against a longer one by the first digits of
  this one, as many as it has itself (`leadingFor`).

So an entry is sorted behind every earlier one up to number 9999, and from 10000 on it may be sorted
before an earlier one (`IsOvertaken`). The menu is in order just when it has no more than 10000
entries (`Candidate.menu_sorted`).
-/

namespace SkillScript

/-! ## Texts that go on -/

section Lists

variable {a b rest : List Char}

/-- A text is smaller than one that goes on past its length when it is smaller than the start of it,
or is the start and something follows. -/
theorem lt_append_iff (h : a.length = b.length) :
    a < b ++ rest ↔ a < b ∨ a = b ∧ rest ≠ [] := by
  induction a generalizing b with
  | nil =>
    obtain rfl := List.length_eq_zero_iff.mp h.symm
    cases rest <;> simp
  | cons x a ih =>
    obtain ⟨y, b, rfl⟩ := List.exists_cons_of_length_eq_add_one h.symm
    have ih := ih (Nat.succ.inj h)
    simp only [List.cons_append, List.cons_lt_cons_iff, ih, List.cons.injEq]
    grind

/-- What follows past the length of the other text does not count for the larger one. -/
theorem append_lt_iff (h : a.length = b.length) : a ++ rest < b ↔ a < b := by
  induction a generalizing b with
  | nil =>
    obtain rfl := List.length_eq_zero_iff.mp h.symm
    cases rest <;> simp
  | cons x a ih =>
    obtain ⟨y, b, rfl⟩ := List.exists_cons_of_length_eq_add_one h.symm
    rw [List.cons_append, List.cons_lt_cons_iff, List.cons_lt_cons_iff, ih (Nat.succ.inj h)]

end Lists

/-! ## Digits -/

theorem digitChar_lt_iff {a b : Nat} (ha : a < 10) (hb : b < 10) :
    a.digitChar < b.digitChar ↔ a < b := by
  have hta := Nat.toNat_digitChar_of_lt_ten ha
  have htb := Nat.toNat_digitChar_of_lt_ten hb
  rw [Char.lt_def, UInt32.lt_iff_toNat_lt]
  unfold Char.toNat at hta htb
  omega

theorem digitChar_inj {a b : Nat} (ha : a < 10) (hb : b < 10) :
    a.digitChar = b.digitChar ↔ a = b := by
  have hta := Nat.toNat_digitChar_of_lt_ten ha
  have htb := Nat.toNat_digitChar_of_lt_ten hb
  rw [← Char.toNat_inj]
  omega

/-- The last `width` decimal digits of `n`. -/
def lastDigits : Nat → Nat → List Char
  | 0, _ => []
  | width + 1, n => (n / 10 ^ width % 10).digitChar :: lastDigits width n

@[simp] theorem length_lastDigits (width n : Nat) : (lastDigits width n).length = width := by
  induction width with
  | zero => rfl
  | succ width ih => rw [lastDigits, List.length_cons, ih]

/-- The first of the last digits are the last digits of what is left without the others. -/
theorem lastDigits_add (first last n : Nat) :
    lastDigits (first + last) n = lastDigits first (n / 10 ^ last) ++ lastDigits last n := by
  induction first with
  | zero => simp [lastDigits]
  | succ first ih =>
    have hdigit : n / 10 ^ (first + last) = n / 10 ^ last / 10 ^ first := by
      rw [Nat.div_div_eq_div_mul, ← Nat.pow_add, Nat.add_comm]
    rw [Nat.succ_add, lastDigits, ih, hdigit, lastDigits, List.cons_append]

theorem lastDigits_zero (width : Nat) : lastDigits width 0 = List.replicate width '0' := by
  induction width with
  | zero => rfl
  | succ width ih =>
    rw [lastDigits, ih, Nat.zero_div]
    rfl

/-- A number with no more than `width` digits has zeros in front of them. -/
theorem lastDigits_eq_toDigits {width n : Nat} (h : n < 10 ^ width) (hwidth : 0 < width) :
    lastDigits width n =
      List.replicate (width - (Nat.toDigits 10 n).length) '0' ++ Nat.toDigits 10 n := by
  induction width generalizing n with
  | zero => omega
  | succ width ih =>
    have hlast : lastDigits (width + 1) n = lastDigits width (n / 10) ++ [(n % 10).digitChar] := by
      rw [lastDigits_add width 1 n]
      simp [lastDigits]
    rw [hlast, Nat.toDigits_eq_if (by decide)]
    by_cases hn : n < 10
    · rw [if_pos hn, Nat.div_eq_of_lt hn, Nat.mod_eq_of_lt hn, lastDigits_zero]
      rfl
    · have hpos : 0 < width := by
        rcases Nat.eq_zero_or_pos width with rfl | hpos
        · exact absurd h hn
        · exact hpos
      have hdiv : n / 10 < 10 ^ width := by
        rw [Nat.pow_succ] at h
        omega
      rw [if_neg hn, ih hdiv hpos, List.length_append, List.length_singleton, Nat.add_sub_add_right,
        List.append_assoc]

/-- Of two numbers with the same number of digits, the first digit decides before the others. -/
theorem add_mul_lt_iff {unit a b r s : Nat} (hr : r < unit) (hs : s < unit) :
    r + unit * a < s + unit * b ↔ a < b ∨ a = b ∧ r < s := by
  rcases Nat.lt_trichotomy a b with hlt | rfl | hgt
  · have := Nat.mul_le_mul_left unit hlt
    rw [Nat.mul_succ] at this
    omega
  · omega
  · have := Nat.mul_le_mul_left unit hgt
    rw [Nat.mul_succ] at this
    omega

/-- The last digits are sorted as the numbers that they make. -/
theorem lastDigits_lt_iff (width i j : Nat) :
    lastDigits width i < lastDigits width j ↔ i % 10 ^ width < j % 10 ^ width := by
  induction width with
  | zero => simp [lastDigits, Nat.mod_one]
  | succ width ih =>
    have hten : ∀ n : Nat, n % 10 < 10 := fun n => Nat.mod_lt n (by decide)
    have hunit : ∀ n : Nat, n % 10 ^ width < 10 ^ width :=
      fun n => Nat.mod_lt n (Nat.pow_pos (by decide))
    rw [lastDigits, lastDigits, List.cons_lt_cons_iff, ih, digitChar_lt_iff (hten _) (hten _),
      digitChar_inj (hten _) (hten _), Nat.mod_pow_succ, Nat.mod_pow_succ,
      add_mul_lt_iff (hunit i) (hunit j)]

/-! ## Sort texts -/

/-- The number of characters of a sort text. -/
def sortWidth (n : Nat) : Nat := max 4 (Nat.toDigits 10 n).length

theorem lt_pow_sortWidth (n : Nat) : n < 10 ^ sortWidth n := by
  unfold sortWidth
  rw [← Nat.length_toDigits_le_iff (by decide) (by omega)]
  omega

theorem toList_sortText (n : Nat) : (sortText n).toList = lastDigits (sortWidth n) n := by
  have hwidth : 0 < sortWidth n := by
    unfold sortWidth
    omega
  have hzeros : 4 - (Nat.toDigits 10 n).length = sortWidth n - (Nat.toDigits 10 n).length := by
    unfold sortWidth
    omega
  rw [lastDigits_eq_toDigits (lt_pow_sortWidth n) hwidth, sortText, String.toList_ofList, hzeros]

theorem sortWidth_mono {i j : Nat} (h : i ≤ j) : sortWidth i ≤ sortWidth j := by
  have hj : j < 10 ^ (Nat.toDigits 10 j).length :=
    (Nat.length_toDigits_le_iff (by decide) Nat.length_toDigits_pos).mp (Nat.le_refl _)
  have hlength : (Nat.toDigits 10 i).length ≤ (Nat.toDigits 10 j).length :=
    (Nat.length_toDigits_le_iff (by decide) Nat.length_toDigits_pos).mpr (Nat.lt_of_le_of_lt h hj)
  unfold sortWidth
  omega

theorem sortWidth_eq_four {n : Nat} (h : n < 10000) : sortWidth n = 4 := by
  have hlength : (Nat.toDigits 10 n).length ≤ 4 :=
    (Nat.length_toDigits_le_iff (by decide) (by decide)).mpr h
  unfold sortWidth
  omega

/-- The number that the first digits of `n` make, so many that they are as long as the sort text of
`i`. -/
def leadingFor (i n : Nat) : Nat := n / 10 ^ (sortWidth n - sortWidth i)

/-- Entry `j` of a menu is sorted before the earlier entry `i`, since its first digits make a
smaller number. -/
def IsOvertaken (i j : Nat) : Prop := leadingFor i j < i

instance (i j : Nat) : Decidable (IsOvertaken i j) := inferInstanceAs (Decidable (_ < _))

section Compare

variable {i j : Nat}

theorem lastDigits_leadingFor (h : sortWidth i ≤ sortWidth j) :
    lastDigits (sortWidth j) j = lastDigits (sortWidth i) (leadingFor i j) ++
      lastDigits (sortWidth j - sortWidth i) j := by
  have hsplit := lastDigits_add (sortWidth i) (sortWidth j - sortWidth i) j
  rwa [Nat.add_sub_cancel' h] at hsplit

theorem leadingFor_lt (h : sortWidth i ≤ sortWidth j) : leadingFor i j < 10 ^ sortWidth i := by
  unfold leadingFor
  rw [Nat.div_lt_iff_lt_mul (Nat.pow_pos (by decide)), ← Nat.pow_add, Nat.add_sub_cancel' h]
  exact lt_pow_sortWidth j

theorem lastDigits_lt_leadingFor_iff (h : sortWidth i ≤ sortWidth j) :
    (lastDigits (sortWidth i) i < lastDigits (sortWidth i) (leadingFor i j) ↔ i < leadingFor i j) ∧
      (lastDigits (sortWidth i) (leadingFor i j) < lastDigits (sortWidth i) i ↔
        leadingFor i j < i) := by
  rw [lastDigits_lt_iff, lastDigits_lt_iff, Nat.mod_eq_of_lt (lt_pow_sortWidth i),
    Nat.mod_eq_of_lt (leadingFor_lt h)]
  exact ⟨Iff.rfl, Iff.rfl⟩

theorem not_isOvertaken (h : i ≤ j) (hj : j < 10000) : ¬ IsOvertaken i j := by
  unfold IsOvertaken leadingFor
  rw [sortWidth_eq_four hj, sortWidth_eq_four (by omega), Nat.sub_self, Nat.pow_zero, Nat.div_one]
  omega

/-- A later entry is sorted before an earlier one when it overtakes it. -/
theorem sortText_gt_iff (h : i ≤ j) : sortText j < sortText i ↔ IsOvertaken i j := by
  have hwidth := sortWidth_mono h
  rw [String.lt_iff, toList_sortText, toList_sortText, lastDigits_leadingFor hwidth,
    append_lt_iff (by simp), (lastDigits_lt_leadingFor_iff hwidth).2, IsOvertaken]

/-- A later entry is sorted behind an earlier one when it does not overtake it. -/
theorem sortText_lt_iff (h : i < j) : sortText i < sortText j ↔ ¬ IsOvertaken i j := by
  have hwidth := sortWidth_mono (Nat.le_of_lt h)
  obtain ⟨hless, hmore⟩ := lastDigits_lt_leadingFor_iff hwidth
  rw [String.lt_iff, toList_sortText, toList_sortText, lastDigits_leadingFor hwidth,
    lt_append_iff (by simp), hless]
  unfold IsOvertaken
  constructor
  · rintro (hlt | ⟨hsame, -⟩) hovertaken
    · omega
    · rw [← hmore, hsame] at hovertaken
      exact List.lt_irrefl _ hovertaken
  · intro hnot
    rcases Nat.lt_or_eq_of_le (Nat.le_of_not_lt hnot) with hlt | heq
    · exact .inl hlt
    · -- The first digits are those of the earlier entry, so the later one has further digits.
      refine .inr ⟨congrArg _ heq, fun hnil => ?_⟩
      have hzero : sortWidth j - sortWidth i = 0 := by
        rw [← length_lastDigits (sortWidth j - sortWidth i) j, hnil, List.length_nil]
      unfold leadingFor at heq
      rw [hzero, Nat.pow_zero, Nat.div_one] at heq
      omega

end Compare

/-! ## Menus -/

theorem Candidate.length_menu (cs : List Candidate) : (menu cs).length = cs.length := by
  simp [menu]

theorem Candidate.sortText_menu (cs : List Candidate) {i : Nat} (hi : i < (menu cs).length) :
    (menu cs)[i].sortText = sortText i := by
  simp [menu, item]

/-- The entries of a menu are sorted in their order if and only if there are no more than 10000 of
them. Of two entries the later one is sorted behind the earlier one unless it overtakes it, and then
it is sorted before it. -/
theorem Candidate.menu_sorted (cs : List Candidate) :
    ((menu cs).Pairwise (fun x y => x.sortText < y.sortText) ↔ cs.length ≤ 10000) ∧
    ∀ i j c d, i < j → cs[i]? = some c → cs[j]? = some d →
      ((c.item i).sortText < (d.item j).sortText ↔ ¬ IsOvertaken i j) ∧
      ((d.item j).sortText < (c.item i).sortText ↔ IsOvertaken i j) := by
  have hpairs : (menu cs).Pairwise (fun x y => x.sortText < y.sortText) ↔
      ∀ i j, i < j → j < cs.length → ¬ IsOvertaken i j := by
    rw [List.pairwise_iff_getElem]
    simp only [sortText_menu, length_menu]
    constructor
    · intro h i j hij hj
      exact (sortText_lt_iff hij).mp (h i j (by omega) hj hij)
    · intro h i j _ hj hij
      exact (sortText_lt_iff hij).mpr (h i j hij hj)
  refine ⟨hpairs.trans ⟨fun h => ?_, fun hlength i j hij hj => ?_⟩, fun i j c d hij _ _ => ?_⟩
  · -- Entry 10000 overtakes the one before it.
    apply Nat.le_of_not_lt
    intro hlong
    exact h 9999 10000 (by decide) hlong (by decide)
  · exact not_isOvertaken (Nat.le_of_lt hij) (by omega)
  · exact ⟨sortText_lt_iff hij, sortText_gt_iff (Nat.le_of_lt hij)⟩

/-- Entry 10100 stands behind entry 1009, and before entry 1011. -/
theorem Candidate.menu_sorted_across :
    let c := Candidate.ofLabel "STONE" .enumMember
    let cs := List.replicate 10101 c
    ¬ IsOvertaken 1009 10100 ∧ (c.item 1009).sortText < (c.item 10100).sortText ∧
      IsOvertaken 1011 10100 ∧ (c.item 10100).sortText < (c.item 1011).sortText ∧
      ¬ (menu cs).Pairwise (fun x y => x.sortText < y.sortText) := by
  intro c cs
  have hentry : ∀ i, i < 10101 → cs[i]? = some c := fun i hi => by
    simp only [cs, List.getElem?_replicate, hi, ↓reduceIte]
  obtain ⟨hmenu, hpairs⟩ := menu_sorted cs
  have hbehind : ¬ IsOvertaken 1009 10100 := by decide +kernel
  have hbefore : IsOvertaken 1011 10100 := by decide +kernel
  refine ⟨hbehind, ?_, hbefore, ?_, ?_⟩
  · exact (hpairs 1009 10100 c c (by decide) (hentry _ (by decide)) (hentry _ (by decide))).1.mpr
      hbehind
  · exact (hpairs 1011 10100 c c (by decide) (hentry _ (by decide)) (hentry _ (by decide))).2.mpr
      hbefore
  · rw [hmenu, List.length_replicate]
    decide

/-- The sort text of entry 10000 is smaller than that of entry 9999. -/
theorem Candidate.menu_sorted_overtaken :
    let c := Candidate.ofLabel "STONE" .enumMember
    let cs := List.replicate 10001 c
    cs[9999]? = some c ∧ cs[10000]? = some c ∧ (c.item 9999).sortText = "9999" ∧
      (c.item 10000).sortText = "10000" ∧
      ¬ (c.item 9999).sortText < (c.item 10000).sortText := by
  intro c cs
  have hentry : ∀ i, i < 10001 → cs[i]? = some c := fun i hi => by
    simp only [cs, List.getElem?_replicate, hi, ↓reduceIte]
  exact ⟨hentry _ (by decide), hentry _ (by decide), by decide +kernel, by decide +kernel,
    by decide +kernel⟩

end SkillScript
