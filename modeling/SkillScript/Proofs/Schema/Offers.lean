import SkillScript.Proofs.Schema.Walk
import SkillScript.Schema.Completion

/-!
# Keys that are offered are found

A mapping offers its literal keys and the members of the dataset of its array key
(`Mapping.offers`). A name is looked up by other rules: among the literal keys without regard to the
case of ASCII letters, and in the dataset in lower case. By these rules every key that is offered
leads somewhere, and to its own node unless a literal key before it is taken for it.

A path with one more key leads to what the mapping at the path has under it, unless the path ends at
a leaf container (`Schema.map_locate?_concat`). So a key that is offered at a path is located by
that path and the key (`Schema.keyCandidates_located`).
-/

namespace SkillScript

namespace Mapping

variable {α : Type} {datasets : Datasets} {m : Mapping α} {k : String} {a : α}

/-- The members of the array key's dataset in the order of their declaration, each with the node of
the array key. -/
def members (datasets : Datasets) (m : Mapping α) : List (String × α) :=
  match m.arrayKey with
  | none => []
  | some (name, a) => ((datasets.find? name).elim [] Dataset.keys).map (·, a)

/-- The keys of a mapping that can be offered, each with its node: the literal keys, then the
members of the array key's dataset. A wildcard stands for names that nobody can list. -/
def offers (datasets : Datasets) (m : Mapping α) : List (String × α) :=
  m.literals ++ m.members datasets

theorem mem_members :
    (k, a) ∈ m.members datasets ↔
      ∃ name dataset, m.arrayKey = some (name, a) ∧ datasets.find? name = some dataset ∧
        k ∈ dataset.keys := by
  unfold members
  constructor
  · intro h
    split at h
    · cases h
    · next name b harray =>
      obtain ⟨key, hkey, heq⟩ := List.mem_map.mp h
      cases heq
      cases hfind : datasets.find? name with
      | none => simp [hfind] at hkey
      | some dataset => exact ⟨name, dataset, harray, hfind, by simpa [hfind] using hkey⟩
  · rintro ⟨name, dataset, harray, hfind, hk⟩
    simp [harray, hfind, hk]

/-! ## Looking up a key that is offered -/

theorem literal?_eq_none_iff : m.literal? k = none ↔ ∀ l ∈ m.literals, sameAscii l.1 k = false := by
  simp [literal?]

theorem literal?_of_first {before after : List (String × α)}
    (h : m.literals = before ++ (k, a) :: after) (hbefore : ∀ l ∈ before, sameAscii l.1 k = false) :
    m.literal? k = some a := by
  have hfind : m.literals.find? (fun l => sameAscii l.1 k) = some (k, a) := by
    rw [List.find?_eq_some_iff_append]
    exact ⟨sameAscii_refl k, before, after, h, fun l hl => by simp [hbefore l hl]⟩
  rw [literal?, hfind]
  rfl

/-- A member of the dataset is one also in the lower case that it is compared in. -/
theorem member?_of_mem (h : (k, a) ∈ m.members datasets) : m.member? datasets k = some a := by
  obtain ⟨name, dataset, harray, hdataset, hk⟩ := mem_members.mp h
  have hcontains : dataset.contains k = true := List.any_eq_true.mpr ⟨k, hk, by simp⟩
  simp [member?, harray, hdataset, hcontains]

theorem get?_of_first {before after : List (String × α)}
    (h : m.literals = before ++ (k, a) :: after) (hbefore : ∀ l ∈ before, sameAscii l.1 k = false) :
    m.get? datasets k = some a := by
  rw [get?, literal?_of_first h hbefore]
  rfl

theorem get?_of_mem_members (h : (k, a) ∈ m.members datasets)
    (hliteral : ∀ l ∈ m.literals, sameAscii l.1 k = false) : m.get? datasets k = some a := by
  rw [get?, literal?_eq_none_iff.mpr hliteral, member?_of_mem h]
  rfl

theorem isSome_get?_of_mem_offers (h : (k, a) ∈ m.offers datasets) :
    (m.get? datasets k).isSome := by
  rcases List.mem_append.mp h with h | h
  · have : m.literal? k ≠ none := by
      rw [Ne, literal?_eq_none_iff]
      intro hnone
      simpa using hnone (k, a) h
    simp [get?, Option.isSome_iff_ne_none, this]
  · simp [get?, member?_of_mem h]

/-! ## The candidates -/

/-- Every key that can be offered is, in order, but for those that are written already. -/
theorem keyCandidates_eq (datasets : Datasets) (existing : List String) (m : Mapping SchemaNode) :
    m.keyCandidates datasets existing =
      ((m.offers datasets).filter fun o => !existing.any (sameAscii · o.1)).map
        fun o => keyCandidate o.1 o.2 := by
  simp only [keyCandidates, isWritten, offers, members, List.filter_append, List.map_append]
  cases m.arrayKey with
  | none => simp
  | some array =>
    cases hfind : datasets.find? array.1 <;> simp [hfind, List.filter_map, Function.comp_def]

/-- A mapping leads on from every key that it offers. -/
theorem exists_get?_of_mem {existing : List String} {m : Mapping SchemaNode} {c : Candidate}
    (h : c ∈ m.keyCandidates datasets existing) : ∃ node, m.get? datasets c.label = some node := by
  rw [keyCandidates_eq] at h
  obtain ⟨⟨k, node⟩, hmem, rfl⟩ := List.mem_map.mp h
  exact Option.isSome_iff_exists.mp (isSome_get?_of_mem_offers (List.mem_filter.mp hmem).1)

end Mapping

/-! ## One key further -/

namespace Schema

variable {s : Schema} {datasets : Datasets}

/-- A path with one more key leads to what the mapping at the path has under the key, or to where
the path itself leads, if that is a leaf container. -/
theorem map_locate?_concat {path : List String} {mapping : Mapping SchemaNode}
    (h : s.mappingAt? datasets path = some mapping) (name : String) :
    (s.locate? datasets (path ++ [name])).map Located.node =
      if (s.locate? datasets path).any (·.node.isLeafContainer) then
        (s.locate? datasets path).map Located.node
      else mapping.get? datasets name := by
  have hkey : ∀ (s : Schema),
      (s.locate? datasets [name]).map Located.node = s.root.get? datasets name := by
    intro s
    simp only [locate?, locateFrom?]
    cases s.root.get? datasets name <;> simp
  cases path with
  | nil =>
    cases h
    exact hkey s
  | cons head path =>
    obtain ⟨found, hfound, hchildren⟩ := Option.bind_eq_some_iff.mp h
    cases hleaf : found.node.isLeafContainer with
    | true =>
      rw [locate?_append_content hfound hleaf, hfound]
      simp [hleaf]
    | false =>
      rw [map_locate?_append hfound hleaf hchildren (List.cons_ne_nil name []), hkey, hfound]
      simp [hleaf]

theorem exists_locate?_concat {path : List String} {mapping : Mapping SchemaNode} {name : String}
    {node : SchemaNode} (h : s.mappingAt? datasets path = some mapping)
    (hnode : mapping.get? datasets name = some node) :
    ∃ found, s.locate? datasets (path ++ [name]) = some found := by
  rw [← Option.isSome_iff_exists, ← Option.isSome_map, map_locate?_concat h, hnode]
  cases s.locate? datasets path with
  | none => rfl
  | some parent => by_cases hleaf : parent.node.isLeafContainer <;> simp [hleaf]

/-- What is offered at a path are the literal keys and then the members of the array key's dataset,
each in the order of declaration, but for those that are written already. Each of them is located by
the path and the key. At the root and at a node that is no leaf container, it is located at what the
mapping has under it, which is its own node for the first literal key of its spelling and for a
member that no literal key is equal to. A leaf container is located itself. -/
theorem keyCandidates_located (s : Schema) (datasets : Datasets) (path existing : List String)
    (mapping : Mapping SchemaNode) (h : s.mappingAt? datasets path = some mapping) :
    mapping.keyCandidates datasets existing =
        ((mapping.literals ++ mapping.members datasets).filter
          fun o => !existing.any (sameAscii · o.1)).map (fun o => keyCandidate o.1 o.2) ∧
      (∀ c ∈ mapping.keyCandidates datasets existing, ∃ found,
        s.locate? datasets (path ++ [c.label]) = some found ∧
        ((path = [] ∨ ∃ parent, s.locate? datasets path = some parent ∧
            parent.node.isLeafContainer = false) →
          mapping.get? datasets c.label = some found.node) ∧
        ∀ parent, s.locate? datasets path = some parent → parent.node.isLeafContainer = true →
          found.node = parent.node) ∧
      (∀ before key node after, mapping.literals = before ++ (key, node) :: after →
        (∀ l ∈ before, sameAscii l.1 key = false) → mapping.get? datasets key = some node) ∧
      ∀ key node, (key, node) ∈ mapping.members datasets →
        (∀ l ∈ mapping.literals, sameAscii l.1 key = false) →
        mapping.get? datasets key = some node := by
  refine ⟨Mapping.keyCandidates_eq datasets existing mapping, fun c hc => ?_,
    fun before key node after hliterals => Mapping.get?_of_first hliterals,
    fun key node hmember => Mapping.get?_of_mem_members hmember⟩
  obtain ⟨node, hnode⟩ := Mapping.exists_get?_of_mem hc
  obtain ⟨found, hfound⟩ := exists_locate?_concat h hnode
  have hconcat := map_locate?_concat h c.label
  rw [hfound, Option.map_some] at hconcat
  refine ⟨found, hfound, ?_, fun parent hparent hleaf => ?_⟩
  · rintro (rfl | ⟨parent, hparent, hleaf⟩)
    · exact hconcat.symm
    · simpa [hparent, hleaf] using hconcat.symm
  · simpa [hparent, hleaf] using hconcat

/-- A member that is spelled like a literal key, one that is written already, and one that is
offered and located by the array key, in a mapping that a definition holds. -/
theorem keyCandidates_located_slots :
    let slot : Dataset := ⟨"SLOT", [⟨"head", none⟩, ⟨"chest", none⟩, ⟨"feet", none⟩]⟩
    let number := SchemaNode.ofKind .float
    let block : Mapping SchemaNode := ⟨[("Head", .ofKind .string)], some ("slot", number), none⟩
    let s : Schema :=
      ⟨⟨[], none, some { SchemaNode.ofKind .key with children := .deferred "Block" }⟩,
        [("Block", block)]⟩
    s.mappingAt? [slot] ["M"] = some block ∧
      (block.keyCandidates [slot] ["CHEST"]).map Candidate.label = ["Head", "head", "feet"] ∧
      ∃ found, s.locate? [slot] ["M", "feet"] = some found ∧ found.node = number := by
  intro slot number block s
  have hmapping : s.mappingAt? [slot] ["M"] = some block := rfl
  have hparent : ∃ parent, s.locate? [slot] ["M"] = some parent ∧
      parent.node.isLeafContainer = false := ⟨_, rfl, rfl⟩
  have hfeet : keyCandidate "feet" number ∈ block.keyCandidates [slot] ["CHEST"] := by
    decide +kernel
  have hmember : ("feet", number) ∈ block.members [slot] :=
    Mapping.mem_members.mpr ⟨"slot", slot, rfl, by decide +kernel, by decide +kernel⟩
  have hliteral : ∀ l ∈ block.literals, sameAscii l.1 "feet" = false := by
    rintro l hl
    rw [List.mem_singleton.mp hl]
    decide +kernel
  obtain ⟨-, hlocated, -, hmembers⟩ := keyCandidates_located s [slot] ["M"] ["CHEST"] block hmapping
  obtain ⟨found, hfound, hget, -⟩ := hlocated _ hfeet
  refine ⟨hmapping, by decide +kernel, found, hfound, ?_⟩
  have hnode := hmembers "feet" number hmember hliteral
  exact Option.some.inj ((hget (.inr hparent)).symm.trans hnode)

end Schema

end SkillScript
