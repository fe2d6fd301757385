import SkillScript.Key.Ancestors
import SkillScript.Proofs.Key.Grammar

/-!
# The nearest ancestor of a line

`Document.ancestors` walks up from a line and gathers keys. Its first key is found without the
walk: it is the last key line above that is indented less than the line counts as being
(`nestingFloor`). Whether a key is the nearest ancestor is thus decided by the lines from the key
on (`Document.Nearest`), and nothing above the key has a part in it.

* `head?_ancestors_iff`: the first ancestor is the nearest one.
* `Nearest.transport`: lines that are the same elsewhere have the same nearest ancestor there.
-/

namespace SkillScript

/-! ## The key of a line -/

namespace Key

theorem line_of_parse? {text : List Char} {n : Nat} {key : Key} (h : parse? text n = some key) :
    key.line = n := by
  obtain ⟨k, -, rfl⟩ := Option.map_eq_some_iff.mp h
  rfl

theorem indent_of_parse? {text : List Char} {n : Nat} {key : Key} (h : parse? text n = some key) :
    key.indent = indentation text := by
  obtain ⟨k, hk, rfl⟩ := Option.map_eq_some_iff.mp h
  rw [indentation, ← KeyLine.indent_of_parse? hk]

/-- The same text on another line defines the same key there. -/
theorem parse?_renumber (text : List Char) (m n : Nat) :
    parse? text m = (parse? text n).map ({ · with line := m }) := by
  simp [parse?, Function.comp_def]

end Key

/-- The indentation below which a key must be for a line with this text to nest under it. -/
def nestingFloor (text : List Char) : Nat :=
  if (KeyLine.parse? text).isSome then indentation text else indentation text + 1

namespace Document

variable {d d' : Document}

/-- A key is read from a line of the document. -/
theorem exists_line?_of_keyAt? {n : Nat} {key : Key} (h : d.keyAt? n = some key) :
    ∃ text, d.line? n = some text ∧ Key.parse? text n = some key := by
  unfold keyAt? at h
  split at h
  · next text htext => exact ⟨text, htext, h⟩
  · cases h

theorem line_of_keyAt? {n : Nat} {key : Key} (h : d.keyAt? n = some key) : key.line = n := by
  obtain ⟨text, -, hkey⟩ := exists_line?_of_keyAt? h
  exact Key.line_of_parse? hkey

theorem keyAt?_of_line? {n : Nat} {text : List Char} (h : d.line? n = some text) :
    d.keyAt? n = Key.parse? text n := by
  simp only [keyAt?, h]

theorem keyAt?_renumber {m n : Nat} (h : d'.line? m = d.line? n) :
    d'.keyAt? m = (d.keyAt? n).map ({ · with line := m }) := by
  simp only [keyAt?, h]
  cases d.line? n with
  | none => rfl
  | some text => exact Key.parse?_renumber text m n

/-- No key of a line is indented less than what the line nests by. -/
theorem nestingFloor_le_of_keyAt? {n : Nat} {text : List Char} {key : Key}
    (htext : d.line? n = some text) (h : d.keyAt? n = some key) :
    nestingFloor text ≤ key.indent := by
  rw [keyAt?_of_line? htext] at h
  obtain ⟨k, hk, -⟩ := Option.map_eq_some_iff.mp h
  rw [Key.indent_of_parse? h, nestingFloor, hk]
  exact Nat.le_refl _

/-! ## The walk up -/

/-- The lines above line `n` with their numbers, nearest first. -/
def numberedAbove (d : Document) (n : Nat) : List (List Char × Nat) :=
  (d.lines.take n).zipIdx.reverse

theorem numberedAbove_succ {n : Nat} {text : List Char} (h : d.line? n = some text) :
    d.numberedAbove (n + 1) = (text, n) :: d.numberedAbove n := by
  have hn : n < d.lines.length := (List.getElem?_eq_some_iff.mp h).1
  have htake : d.lines.take (n + 1) = d.lines.take n ++ [text] := by
    rw [List.take_add_one, show d.lines[n]? = some text from h]
    rfl
  rw [numberedAbove, htake, List.zipIdx_append, List.reverse_append]
  simp [numberedAbove, Nat.min_eq_left (Nat.le_of_lt hn)]

/-- `key` is the last key above line `n` that is indented less than `floor`. -/
structure Nearest (d : Document) (n floor : Nat) (key : Key) : Prop where
  above : key.line < n
  defined : d.keyAt? key.line = some key
  nests : key.indent < floor
  between : ∀ m, key.line < m → m < n → ∀ k, d.keyAt? m = some k → floor ≤ k.indent

/-- A line whose key is not indented less than `floor` does not change the nearest key. -/
theorem nearest_succ_iff {n floor : Nat} {key : Key}
    (hfloor : ∀ k, d.keyAt? n = some k → floor ≤ k.indent) :
    d.Nearest (n + 1) floor key ↔ d.Nearest n floor key := by
  constructor
  · intro h
    have habove := h.above
    have hne : key.line ≠ n := by
      intro hline
      have := hfloor key (hline ▸ h.defined)
      have := h.nests
      omega
    exact ⟨by omega, h.defined, h.nests, fun m hm hmn => h.between m hm (by omega)⟩
  · intro h
    refine ⟨Nat.lt_succ_of_lt h.above, h.defined, h.nests, fun m hm hmn k hk => ?_⟩
    rcases Nat.lt_succ_iff_lt_or_eq.mp hmn with hmn | rfl
    · exact h.between m hm hmn k hk
    · exact hfloor k hk

/-- A key that is indented less than `floor` is the nearest to the next line. -/
theorem nearest_succ_iff_eq {n floor : Nat} {key found : Key} (hfound : d.keyAt? n = some found)
    (hindent : found.indent < floor) : d.Nearest (n + 1) floor key ↔ found = key := by
  constructor
  · intro h
    have hline : key.line = n := by
      have habove := h.above
      rcases Nat.lt_succ_iff_lt_or_eq.mp habove with hlt | heq
      · have := h.between n hlt (Nat.lt_succ_self n) found hfound
        omega
      · exact heq
    have hdefined := h.defined
    rw [hline, hfound] at hdefined
    exact Option.some.inj hdefined
  · rintro rfl
    have hline := line_of_keyAt? hfound
    exact ⟨by omega, by rw [hline, hfound], hindent, fun m hm hmn => by omega⟩

/-- The walk up from line `n` first gathers the nearest key. -/
theorem head?_keysBelow_iff (floor : Nat) {n : Nat} (hn : n ≤ d.lineCount) (key : Key) :
    (keysBelow floor (d.numberedAbove n)).head? = some key ↔ d.Nearest n floor key := by
  induction n with
  | zero =>
    constructor
    · intro h
      simp [numberedAbove, keysBelow] at h
    · intro h
      exact absurd h.above (Nat.not_lt_zero _)
  | succ n ih =>
    have hlt : n < d.lines.length := hn
    obtain ⟨text, htext⟩ : ∃ text, d.line? n = some text := ⟨_, List.getElem?_eq_getElem hlt⟩
    have hkey := keyAt?_of_line? htext
    have ih := ih (Nat.le_of_lt hlt)
    rw [numberedAbove_succ htext, keysBelow]
    split
    · next hfloor =>
      constructor
      · intro h
        cases h
      · intro h
        have := h.nests
        omega
    · cases hparse : Key.parse? text n with
      | none =>
        rw [hparse] at hkey
        refine ih.trans (nearest_succ_iff fun k hk => ?_).symm
        rw [hkey] at hk
        cases hk
      | some found =>
        rw [hparse] at hkey
        dsimp only
        split
        · next hindent =>
          rw [nearest_succ_iff_eq hkey hindent, List.head?_cons, Option.some.injEq]
        · next hindent =>
          refine ih.trans (nearest_succ_iff fun k hk => ?_).symm
          rw [hkey, Option.some.injEq] at hk
          subst hk
          omega

theorem head?_ancestors_iff {n : Nat} {text : List Char} (htext : d.line? n = some text)
    (key : Key) :
    (d.ancestors n).head? = some key ↔ d.Nearest n (nestingFloor text) key := by
  have hlt : n < d.lines.length := (List.getElem?_eq_some_iff.mp htext).1
  have hancestors : d.ancestors n = keysBelow (nestingFloor text) (d.numberedAbove (n + 1)) := by
    simp only [ancestors, htext, nestingFloor, keysAbove, numberedAbove]
  rw [hancestors, head?_keysBelow_iff _ hlt]
  exact nearest_succ_iff fun k hk => nestingFloor_le_of_keyAt? htext hk

theorem exists_line?_of_ancestors {n : Nat} {key : Key} (h : (d.ancestors n).head? = some key) :
    ∃ text, d.line? n = some text := by
  cases htext : d.line? n with
  | none => simp [ancestors, htext] at h
  | some text => exact ⟨text, rfl⟩

/-! ## The same lines elsewhere -/

/-- The lines of `d` from `a` to `a + m` are those of `d'` from `b` to `b + m`. -/
def SameLines (d : Document) (a : Nat) (d' : Document) (b m : Nat) : Prop :=
  ∀ j ≤ m, d'.line? (b + j) = d.line? (a + j)

theorem SameLines.symm {a b m : Nat} (h : SameLines d a d' b m) : SameLines d' b d a m :=
  fun j hj => (h j hj).symm

/-- The last lines of two equal runs of lines. -/
theorem SameLines.drop {a b m k : Nat} (h : SameLines d a d' b m) (hk : k ≤ m) :
    SameLines d (a + k) d' (b + k) (m - k) := by
  intro j hj
  rw [Nat.add_assoc, Nat.add_assoc]
  exact h (k + j) (by omega)

/-- Where the lines from the nearest key on are found elsewhere, the key is the nearest there. -/
theorem Nearest.transport {a b m floor : Nat} {key : Key} (h : d.Nearest (a + m) floor key)
    (hlines : SameLines d a d' b m) (ha : a ≤ key.line) :
    d'.Nearest (b + m) floor { key with line := b + (key.line - a) } := by
  have habove := h.above
  have hkey : ∀ j ≤ m, d'.keyAt? (b + j) = (d.keyAt? (a + j)).map ({ · with line := b + j }) :=
    fun j hj => keyAt?_renumber (hlines j hj)
  refine ⟨?_, ?_, h.nests, fun n hn hnm k hk => ?_⟩
  · dsimp only
    omega
  · rw [hkey _ (by omega), Nat.add_sub_cancel' ha, h.defined]
    rfl
  · dsimp only at hn
    have hn' : n = b + (n - b) := by omega
    rw [hn', hkey _ (by omega)] at hk
    obtain ⟨k', hk', rfl⟩ := Option.map_eq_some_iff.mp hk
    exact h.between _ (by omega) (by omega) k' hk'

/-- Where the lines from the first ancestor on are found elsewhere, it is the first one there. -/
theorem head?_ancestors_transport {a b m : Nat} {key : Key}
    (h : (d.ancestors (a + m)).head? = some key) (ha : key.line = a)
    (hlines : SameLines d a d' b m) :
    (d'.ancestors (b + m)).head? = some { key with line := b } := by
  obtain ⟨text, htext⟩ := exists_line?_of_ancestors h
  have htext' : d'.line? (b + m) = some text := (hlines m (Nat.le_refl m)).trans htext
  rw [head?_ancestors_iff htext] at h
  rw [head?_ancestors_iff htext']
  have hnear := h.transport hlines (Nat.le_of_eq ha.symm)
  rwa [ha, Nat.sub_self] at hnear

end Document

end SkillScript
