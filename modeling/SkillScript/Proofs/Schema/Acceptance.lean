import SkillScript.Proofs.Schema.Written
import SkillScript.Proofs.Text.Pieces

/-!
# Which schema documents compile

Compilation checks a document while it builds the schemas: the fields of a node, then its entries,
then its reference or its keys, and each key where its node is added to the mapping. What it checks
is said here without it. A written node is well formed when its parts are, and its reference names a
definition. A written mapping is well formed when its nodes are, and its keys have at most one
wildcard and at most one array key, which names a dataset.

* `Mapping.admits_cons_iff_add`: a mapping admits keys when they can be added one after the other.
* `exists_compileNode_iff`, `exists_compileMapping_iff`: what compiles is what is well formed.
* `Mapping.Lists.keeps`: where the written keys are in the mapping.
* `compileSchemas_exactly`: a document compiles if and only if it is well formed, and then every
  mapping has the written keys.
-/

namespace SkillScript

/-! ## Keys by their spelling -/

/-- The key is `*` or `<…>`. -/
def IsWildcardKey (key : String) : Prop :=
  key = "*" ∨ ∃ inner, key.toList = '<' :: inner ++ ['>']

/-- The key is `[…]`. -/
def IsArrayKey (key : String) : Prop := ∃ inner, key.toList = '[' :: inner ++ [']']

theorem enclosed?_eq_some_iff {first last : Char} {cs inner : List Char} :
    enclosed? first last cs = some inner ↔ cs = first :: inner ++ [last] := by
  cases cs with
  | nil => simp [enclosed?]
  | cons c cs =>
    simp only [enclosed?, List.cons_append, List.cons.injEq, Option.ite_none_right_eq_some,
      Option.some.injEq]
    constructor
    · rintro ⟨⟨hc, hlast⟩, rfl⟩
      obtain ⟨before, rfl⟩ := List.getLast?_eq_some_iff.mp hlast
      exact ⟨hc, by simp⟩
    · rintro ⟨hc, rfl⟩
      exact ⟨⟨hc, by simp⟩, by simp⟩

theorem isSome_enclosed?_iff {first last : Char} {cs : List Char} :
    (enclosed? first last cs).isSome = true ↔ ∃ inner, cs = first :: inner ++ [last] := by
  simp only [Option.isSome_iff_exists, enclosed?_eq_some_iff]

namespace MappingKey

variable {key : String}

theorem classify_eq_wildcard_iff : classify key = .wildcard ↔ IsWildcardKey key := by
  unfold classify IsWildcardKey
  rw [← isSome_enclosed?_iff]
  split
  · simp [*]
  · next h => split <;> simp [h]

/-- An array key stands for the dataset that is named between the brackets. -/
theorem classify_eq_array_iff {dataset : String} :
    classify key = .array dataset ↔
      ∃ inner, key.toList = '[' :: inner ++ [']'] ∧ dataset = String.ofList (trim inner) := by
  unfold classify
  split
  · next h =>
    -- No wildcard starts with a square bracket.
    refine ⟨nofun, ?_⟩
    rintro ⟨inner, hkey, -⟩
    rcases h with rfl | h
    · cases hkey
    · obtain ⟨inner', hkey'⟩ := isSome_enclosed?_iff.mp h
      rw [hkey] at hkey'
      cases hkey'
  · split
    · next inner hinner =>
      rw [enclosed?_eq_some_iff] at hinner
      simp [hinner, eq_comm]
    · next hnone =>
      refine ⟨nofun, ?_⟩
      rintro ⟨inner, hkey, -⟩
      rw [enclosed?_eq_some_iff.mpr hkey] at hnone
      cases hnone

theorem isArrayKey_iff : IsArrayKey key ↔ ∃ dataset, classify key = .array dataset := by
  simp only [classify_eq_array_iff, IsArrayKey]
  grind

theorem classify_eq_literal_iff {name : String} :
    classify key = .literal name ↔ name = key ∧ ¬ IsWildcardKey key ∧ ¬ IsArrayKey key := by
  rw [isArrayKey_iff, ← classify_eq_wildcard_iff]
  unfold classify
  split
  · simp
  · split <;> simp [eq_comm]

end MappingKey

theorem IsWildcardKey.not_isArrayKey {key : String} (h : IsWildcardKey key) : ¬ IsArrayKey key := by
  rw [MappingKey.isArrayKey_iff, MappingKey.classify_eq_wildcard_iff.mpr h]
  nofun

instance : DecidablePred IsWildcardKey := fun _ =>
  decidable_of_iff _ MappingKey.classify_eq_wildcard_iff

instance : DecidablePred IsArrayKey := fun key =>
  decidable_of_iff ((enclosed? '[' ']' key.toList).isSome = true) isSome_enclosed?_iff

/-! ## Well-formed documents -/

/-- The keys have at most one wildcard and at most one array key, and no array key is blank between
its brackets. -/
structure WellKeyed (keys : List String) : Prop where
  wildcard : keys.Pairwise fun a b => ¬ (IsWildcardKey a ∧ IsWildcardKey b)
  array : keys.Pairwise fun a b => ¬ (IsArrayKey a ∧ IsArrayKey b)
  dataset : ∀ key ∈ keys, ∀ inner, key.toList = '[' :: inner ++ [']'] →
    ∃ c ∈ inner, isBlank c = false

mutual

/-- The node has the fields of a node, its entries are well formed, its reference is one of `names`,
and without a reference its keys are well formed. -/
inductive WellFormedNode (names : List String) : Json → Prop
  | intro {v : Json} {s : NodeSource} (source : NodeSource.ofJson? v = some s)
      (entries : ∀ e ∈ s.entries, WellFormedNode names e)
      (reference : ∀ name, s.reference = some name → name ∈ names)
      (keys : s.reference = none → ∀ fields, s.keys = some fields →
        WellFormedMapping names fields) :
      WellFormedNode names v

/-- The nodes of the mapping are well formed, and so are its keys. -/
inductive WellFormedMapping (names : List String) : List (String × Json) → Prop
  | intro {fields : List (String × Json)} (nodes : ∀ f ∈ fields, WellFormedNode names f.2)
      (keys : WellKeyed (fields.map Prod.fst)) :
      WellFormedMapping names fields

end

/-- Every definition and every category is a mapping, and well formed. -/
structure SchemaSource.WellFormed (doc : SchemaSource) : Prop where
  definitions : ∀ d ∈ doc.definitions, ∃ fields, d.2 = .obj fields ∧
    WellFormedMapping doc.names fields
  categories : ∀ c ∈ doc.categories, ∃ fields, c.2 = .obj fields ∧
    WellFormedMapping doc.names fields

theorem wellFormedMapping_iff {names : List String} {fields : List (String × Json)} :
    WellFormedMapping names fields ↔
      (∀ f ∈ fields, WellFormedNode names f.2) ∧ WellKeyed (fields.map Prod.fst) :=
  ⟨fun ⟨nodes, keys⟩ => ⟨nodes, keys⟩, fun ⟨nodes, keys⟩ => .intro nodes keys⟩

/-! ## Keys, one after the other -/

theorem wellKeyed_nil : WellKeyed [] := ⟨.nil, .nil, by simp⟩

theorem wellKeyed_cons_iff {key : String} {keys : List String} :
    WellKeyed (key :: keys) ↔
      (IsWildcardKey key → ∀ k ∈ keys, ¬ IsWildcardKey k) ∧
      (IsArrayKey key → ∀ k ∈ keys, ¬ IsArrayKey k) ∧
      (∀ inner, key.toList = '[' :: inner ++ [']'] → ∃ c ∈ inner, isBlank c = false) ∧
      WellKeyed keys := by
  constructor
  · rintro ⟨hwildcard, harray, hdataset⟩
    rw [List.pairwise_cons] at hwildcard harray
    refine ⟨fun hkey k hk hk' => hwildcard.1 k hk ⟨hkey, hk'⟩,
      fun hkey k hk hk' => harray.1 k hk ⟨hkey, hk'⟩, hdataset key List.mem_cons_self,
      hwildcard.2, harray.2, fun k hk => hdataset k (List.mem_cons_of_mem key hk)⟩
  · rintro ⟨hwildcard, harray, hdataset, hkeys⟩
    refine ⟨List.pairwise_cons.mpr ⟨fun k hk hboth => hwildcard hboth.1 k hk hboth.2,
      hkeys.wildcard⟩, List.pairwise_cons.mpr ⟨fun k hk hboth => harray hboth.1 k hk hboth.2,
      hkeys.array⟩, fun k hk => ?_⟩
    rcases List.mem_cons.mp hk with rfl | hk
    · exact hdataset
    · exact hkeys.dataset k hk

namespace Mapping

variable {α : Type} {m : Mapping α}

/-- The keys are well formed, and a wildcard or an array key that the mapping has is not among
them again. -/
structure Admits (m : Mapping α) (keys : List String) : Prop where
  keyed : WellKeyed keys
  wildcard : m.wildcard ≠ none → ∀ k ∈ keys, ¬ IsWildcardKey k
  arrayKey : m.arrayKey ≠ none → ∀ k ∈ keys, ¬ IsArrayKey k

theorem admits_nil (m : Mapping α) : m.Admits [] := ⟨wellKeyed_nil, by simp, by simp⟩

theorem admits_empty_iff {keys : List String} : (empty : Mapping α).Admits keys ↔ WellKeyed keys :=
  ⟨Admits.keyed, fun h => ⟨h, fun hne => absurd rfl hne, fun hne => absurd rfl hne⟩⟩

theorem admits_cons_iff {key : String} {keys : List String} :
    m.Admits (key :: keys) ↔
      (IsWildcardKey key → m.wildcard = none ∧ ∀ k ∈ keys, ¬ IsWildcardKey k) ∧
      (IsArrayKey key → m.arrayKey = none ∧ ∀ k ∈ keys, ¬ IsArrayKey k) ∧
      (∀ inner, key.toList = '[' :: inner ++ [']'] → ∃ c ∈ inner, isBlank c = false) ∧
      m.Admits keys := by
  constructor
  · rintro ⟨hkeyed, hwildcard, harray⟩
    obtain ⟨hw, ha, hdataset, hkeys⟩ := wellKeyed_cons_iff.mp hkeyed
    rw [List.forall_mem_cons] at hwildcard harray
    refine ⟨fun hkey => ⟨?_, hw hkey⟩, fun hkey => ⟨?_, ha hkey⟩, hdataset, hkeys,
      fun hne => (hwildcard hne).2, fun hne => (harray hne).2⟩
    · by_contra hne
      exact (hwildcard hne).1 hkey
    · by_contra hne
      exact (harray hne).1 hkey
  · rintro ⟨hw, ha, hdataset, h⟩
    refine ⟨wellKeyed_cons_iff.mpr ⟨fun hkey => (hw hkey).2, fun hkey => (ha hkey).2, hdataset,
      h.keyed⟩, fun hne => ?_, fun hne => ?_⟩
    · exact List.forall_mem_cons.mpr ⟨fun hkey => hne (hw hkey).1, h.wildcard hne⟩
    · exact List.forall_mem_cons.mpr ⟨fun hkey => hne (ha hkey).1, h.arrayKey hne⟩

/-- A mapping admits keys when the first can be added and the mapping then admits the others. -/
theorem admits_cons_iff_add (path key : String) (keys : List String) (a : α) :
    m.Admits (key :: keys) ↔ ∃ m₁, m.add path key a = .ok m₁ ∧ m₁.Admits keys := by
  rw [admits_cons_iff]
  cases hkey : MappingKey.classify key with
  | literal name =>
    obtain ⟨-, hwildcard, harray⟩ := MappingKey.classify_eq_literal_iff.mp hkey
    have hadd : m.add path key a = .ok { m with literals := m.literals ++ [(name, a)] } := by
      simp [add, hkey]
    constructor
    · rintro ⟨-, -, -, h⟩
      exact ⟨_, hadd, h.keyed, h.wildcard, h.arrayKey⟩
    · rintro ⟨m₁, hm₁, h⟩
      cases hadd.symm.trans hm₁
      exact ⟨fun hw => absurd hw hwildcard, fun ha => absurd ha harray,
        fun inner hinner => absurd ⟨inner, hinner⟩ harray, h.keyed, h.wildcard, h.arrayKey⟩
  | wildcard =>
    have hwildcard := MappingKey.classify_eq_wildcard_iff.mp hkey
    have harray := hwildcard.not_isArrayKey
    constructor
    · rintro ⟨hw, -, -, h⟩
      obtain ⟨hnone, hothers⟩ := hw hwildcard
      exact ⟨{ m with wildcard := some a }, by simp [add, hkey, hnone], h.keyed,
        fun _ => hothers, h.arrayKey⟩
    · rintro ⟨m₁, hm₁, h⟩
      simp only [add, hkey] at hm₁
      split at hm₁
      · cases hm₁
      · next hnone =>
        cases hm₁
        have hnone : m.wildcard = none := by simpa using hnone
        exact ⟨fun _ => ⟨hnone, h.wildcard nofun⟩, fun ha => absurd ha harray,
          fun inner hinner => absurd ⟨inner, hinner⟩ harray, h.keyed,
          fun hne => absurd hnone hne, h.arrayKey⟩
  | array dataset =>
    have harray : IsArrayKey key := MappingKey.isArrayKey_iff.mpr ⟨dataset, hkey⟩
    have hwildcard : ¬ IsWildcardKey key := fun hw => hw.not_isArrayKey harray
    obtain ⟨inner, hinner, rfl⟩ := MappingKey.classify_eq_array_iff.mp hkey
    -- The name of the dataset is empty when there are only blanks between the brackets.
    have hname : (String.ofList (trim inner)).isEmpty = true ↔ ∀ c ∈ inner, isBlank c = true := by
      rw [← trim_eq_nil_iff]
      simp
    constructor
    · rintro ⟨-, ha, hdataset, h⟩
      obtain ⟨hnone, hothers⟩ := ha harray
      obtain ⟨c, hc, hblank⟩ := hdataset inner hinner
      have hempty : ¬ (String.ofList (trim inner)).isEmpty = true := by
        intro hempty
        rw [hname.mp hempty c hc] at hblank
        cases hblank
      exact ⟨{ m with arrayKey := some (String.ofList (trim inner), a) },
        by simp only [add, hkey, hempty, hnone]; rfl, h.keyed, h.wildcard, fun _ => hothers⟩
    · rintro ⟨m₁, hm₁, h⟩
      simp only [add, hkey] at hm₁
      split at hm₁
      · cases hm₁
      · next hempty =>
        split at hm₁
        · cases hm₁
        · next hnone =>
          cases hm₁
          have hnone : m.arrayKey = none := by simpa using hnone
          refine ⟨fun hw => absurd hw hwildcard, fun _ => ⟨hnone, h.arrayKey nofun⟩,
            fun inner' hinner' => ?_, h.keyed, h.wildcard, fun hne => absurd hnone hne⟩
          obtain rfl : inner = inner' := by simpa [hinner] using hinner'
          simpa [hname] using hempty

end Mapping

/-! ## Nodes and mappings -/

section Compile

variable {names : List String} {path : String} {v : Json}

theorem wellFormedNode_iff :
    WellFormedNode names v ↔ ∃ s, NodeSource.ofJson? v = some s ∧
      (∀ e ∈ s.entries, WellFormedNode names e) ∧
      (∀ name, s.reference = some name → name ∈ names) ∧
      (s.reference = none → ∀ fields, s.keys = some fields → WellFormedMapping names fields) :=
  ⟨fun ⟨source, entries, reference, keys⟩ => ⟨_, source, entries, reference, keys⟩,
    fun ⟨_, source, entries, reference, keys⟩ => .intro source entries reference keys⟩

theorem exists_compileNode :
    (∃ n, compileNode names path v = .ok n) ↔ ∃ s, NodeSource.ofJson? v = some s ∧
      (∃ entries, compileEntries names path 0 s.entries = .ok entries) ∧
      (∀ name, s.reference = some name → name ∈ names) ∧
      (s.reference = none → ∀ fields, s.keys = some fields →
        ∃ m, compileMapping names path .empty fields = .ok m) := by
  rw [compileNode]
  split
  · next hs => simp [hs]
  · next s hs =>
    simp only [hs, Option.some.injEq, exists_eq_left']
    cases compileEntries names path 0 s.entries with
    | error e => simp
    | ok entries =>
      cases href : s.reference with
      | some name => by_cases hname : name ∈ names <;> simp [hname]
      | none =>
        dsimp only
        split
        · next hkeys => simp [hkeys]
        · next fields hkeys =>
          cases hm : compileMapping names path .empty fields <;> simp [hkeys, hm]

theorem exists_compileEntries_cons {index : Nat} {rest : List Json} :
    (∃ entries, compileEntries names path index (v :: rest) = .ok entries) ↔
      (∃ n, compileNode names (path ++ "[" ++ toString index ++ "]") v = .ok n) ∧
        ∃ entries, compileEntries names path (index + 1) rest = .ok entries := by
  rw [compileEntries]
  cases compileNode names (path ++ "[" ++ toString index ++ "]") v with
  | error e => simp
  | ok n => cases compileEntries names path (index + 1) rest <;> simp

theorem exists_compileMapping_cons {key : String} {rest : List (String × Json)}
    {m : Mapping SchemaNode} :
    (∃ m', compileMapping names path m ((key, v) :: rest) = .ok m') ↔
      ∃ n, compileNode names (joinPath path key) v = .ok n ∧
        ∃ m₁, m.add (joinPath path key) key n = .ok m₁ ∧
          ∃ m', compileMapping names path m₁ rest = .ok m' := by
  rw [compileMapping]
  cases compileNode names (joinPath path key) v with
  | error e => simp
  | ok n => cases hadd : m.add (joinPath path key) key n <;> simp [hadd]

mutual

/-- A node compiles if and only if it is well formed. -/
theorem exists_compileNode_iff (names : List String) (path : String) (v : Json) :
    (∃ n, compileNode names path v = .ok n) ↔ WellFormedNode names v := by
  rw [exists_compileNode, wellFormedNode_iff]
  refine exists_congr fun s => and_congr_right fun hs => and_congr ?_ (and_congr_right fun _ => ?_)
  · have hlt := NodeSource.sizeItems_entries_lt hs
    exact exists_compileEntries_iff names path 0 s.entries
  · refine forall_congr' fun _ => forall_congr' fun fields => forall_congr' fun hkeys => ?_
    have hlt := NodeSource.sizeFields_keys_lt hs hkeys
    rw [exists_compileMapping_iff_admits names path .empty fields,
      Mapping.admits_empty_iff, wellFormedMapping_iff]
termination_by v.size

theorem exists_compileEntries_iff (names : List String) (path : String) (index : Nat)
    (items : List Json) :
    (∃ entries, compileEntries names path index items = .ok entries) ↔
      ∀ v ∈ items, WellFormedNode names v := by
  match items with
  | [] => simp [compileEntries]
  | v :: rest =>
    have hlt : 1 + v.size + Json.sizeItems rest = Json.sizeItems (v :: rest) := by
      rw [Json.sizeItems]
    rw [exists_compileEntries_cons, exists_compileNode_iff names _ v,
      exists_compileEntries_iff names path (index + 1) rest, List.forall_mem_cons]
termination_by Json.sizeItems items

/-- Fields can be added to a mapping if and only if their nodes are well formed and the mapping
admits their keys. -/
theorem exists_compileMapping_iff_admits (names : List String) (path : String)
    (m : Mapping SchemaNode) (fields : List (String × Json)) :
    (∃ m', compileMapping names path m fields = .ok m') ↔
      (∀ f ∈ fields, WellFormedNode names f.2) ∧ m.Admits (fields.map Prod.fst) := by
  match fields with
  | [] => simp [compileMapping, m.admits_nil]
  | (key, v) :: rest =>
    have hlt : 1 + v.size + Json.sizeFields rest = Json.sizeFields ((key, v) :: rest) := by
      rw [Json.sizeFields]
    have hv := exists_compileNode_iff names (joinPath path key) v
    have hrest := fun m₁ => exists_compileMapping_iff_admits names path m₁ rest
    rw [exists_compileMapping_cons, List.map_cons, List.forall_mem_cons]
    constructor
    · rintro ⟨n, hn, m₁, hadd, h⟩
      obtain ⟨hnodes, hadmits⟩ := (hrest m₁).mp h
      exact ⟨⟨hv.mp ⟨n, hn⟩, hnodes⟩, (Mapping.admits_cons_iff_add _ key _ n).mpr
        ⟨m₁, hadd, hadmits⟩⟩
    · rintro ⟨⟨hnode, hnodes⟩, hadmits⟩
      obtain ⟨n, hn⟩ := hv.mpr hnode
      obtain ⟨m₁, hadd, hadmits⟩ :=
        (Mapping.admits_cons_iff_add (joinPath path key) key _ n).mp hadmits
      exact ⟨n, hn, m₁, hadd, (hrest m₁).mpr ⟨hnodes, hadmits⟩⟩
termination_by Json.sizeFields fields

end

/-- A mapping compiles if and only if it is well formed. -/
theorem exists_compileMapping_iff (names : List String) (path : String)
    (fields : List (String × Json)) :
    (∃ m, compileMapping names path .empty fields = .ok m) ↔ WellFormedMapping names fields := by
  rw [exists_compileMapping_iff_admits, Mapping.admits_empty_iff, wellFormedMapping_iff]

end Compile

/-! ## Documents -/

theorem exists_bind_eq_ok {ε α β : Type} {x : Except ε α} {f : α → Except ε β} :
    (∃ b, (x >>= f) = .ok b) ↔ ∃ a, x = .ok a ∧ ∃ b, f a = .ok b := by
  constructor
  · rintro ⟨b, hb⟩
    obtain ⟨a, ha, hf⟩ := bind_eq_ok hb
    exact ⟨a, ha, b, hf⟩
  · rintro ⟨a, rfl, hf⟩
    exact hf

theorem exists_pure_eq_ok {ε α : Type} (a : α) : ∃ b, (pure a : Except ε α) = .ok b := ⟨a, rfl⟩

theorem orMalformed_eq_ok_iff {α : Type} {o : Option α} {a : α} :
    orMalformed o = .ok a ↔ o = some a :=
  ⟨orMalformed_eq_ok, fun h => h ▸ rfl⟩

theorem members?_eq_some_iff {v : Json} {fields : List (String × Json)} :
    v.members? = some fields ↔ v = .obj fields := by
  cases v <;> simp [Json.members?]

theorem exists_definitionFields_iff {definitions : List (String × Json)}
    {P : List (String × Json) → Prop} :
    (∃ fs, definitionFields definitions = .ok fs ∧ ∀ f ∈ fs, P f.2) ↔
      ∀ d ∈ definitions, ∃ fields, d.2 = .obj fields ∧ P fields := by
  induction definitions with
  | nil => simp [definitionFields]
  | cons d rest ih =>
    obtain ⟨name, v⟩ := d
    rw [List.forall_mem_cons, ← ih]
    constructor
    · rintro ⟨fs, hfs, h⟩
      obtain ⟨fields, hfields, hfs⟩ := bind_eq_ok hfs
      obtain ⟨others, hothers, hfs⟩ := bind_eq_ok hfs
      cases hfs
      rw [List.forall_mem_cons] at h
      exact ⟨⟨fields, members?_eq_some_iff.mp (orMalformed_eq_ok hfields), h.1⟩,
        others, hothers, h.2⟩
    · rintro ⟨⟨fields, hv, hfields⟩, others, hothers, h⟩
      obtain rfl : v = .obj fields := hv
      exact ⟨(name, fields) :: others, by rw [definitionFields, hothers]; rfl,
        List.forall_mem_cons.mpr ⟨hfields, h⟩⟩

theorem exists_compileDefinitions_iff {names : List String}
    {fs : List (String × List (String × Json))} :
    (∃ definitions, compileDefinitions names fs = .ok definitions) ↔
      ∀ f ∈ fs, WellFormedMapping names f.2 := by
  induction fs with
  | nil => simp [compileDefinitions]
  | cons f rest ih =>
    simp only [compileDefinitions, exists_bind_eq_ok, exists_pure_eq_ok, and_true,
      exists_and_right, exists_compileMapping_iff, ih, List.forall_mem_cons]

theorem exists_compileCategories_iff {definitions : List (String × Mapping SchemaNode)}
    {categories : List (String × Json)} :
    (∃ schemas, compileCategories definitions categories = .ok schemas) ↔
      ∀ c ∈ categories, ∃ fields, c.2 = .obj fields ∧
        WellFormedMapping (definitions.map Prod.fst) fields := by
  induction categories with
  | nil => simp [compileCategories]
  | cons c rest ih =>
    simp only [compileCategories, exists_bind_eq_ok, exists_pure_eq_ok, and_true,
      exists_and_right, exists_compileMapping_iff, ih, List.forall_mem_cons,
      orMalformed_eq_ok_iff, members?_eq_some_iff, ← and_assoc]

/-- A document compiles if and only if it is well formed. -/
theorem exists_compileSchemas_iff {v : Json} :
    (∃ schemas, compileSchemas v = .ok schemas) ↔
      ∃ doc, SchemaSource.ofJson? v = some doc ∧ doc.WellFormed := by
  simp only [compileSchemas, exists_bind_eq_ok, orMalformed_eq_ok_iff,
    exists_compileCategories_iff]
  refine exists_congr fun doc => and_congr_right fun _ => ?_
  constructor
  · rintro ⟨fs, hfs, definitions, hdefinitions, hcategories⟩
    have hnames : fs.map Prod.fst = doc.names := (definitionFields_eq_ok hfs).1
    rw [(compileDefinitions_eq_ok hdefinitions).1, hnames] at hcategories
    rw [hnames] at hdefinitions
    exact ⟨exists_definitionFields_iff.mp ⟨fs, hfs, exists_compileDefinitions_iff.mp
      ⟨definitions, hdefinitions⟩⟩, hcategories⟩
  · rintro ⟨hdefinitions, hcategories⟩
    obtain ⟨fs, hfs, hwellFormed⟩ := exists_definitionFields_iff.mpr hdefinitions
    have hnames : fs.map Prod.fst = doc.names := (definitionFields_eq_ok hfs).1
    rw [← hnames] at hwellFormed hcategories
    obtain ⟨definitions, hcompiled⟩ := exists_compileDefinitions_iff.mpr hwellFormed
    rw [← (compileDefinitions_eq_ok hcompiled).1] at hcategories
    exact ⟨fs, hfs, definitions, hcompiled, hcategories⟩

/-! ## Where the written keys are -/

/-- Each written key is in the mapping once, over a node that `R` relates to what is written under
it: the literal keys in order, the array key under the name of its dataset, and the wildcard. -/
structure Mapping.Keeps {α : Type} (R : Json → α → Prop) (fields : List (String × Json))
    (m : Mapping α) : Prop where
  literals : List.Forall₂ (fun f l => l.1 = f.1 ∧ R f.2 l.2)
    (fields.filter fun f => ¬ IsWildcardKey f.1 ∧ ¬ IsArrayKey f.1) m.literals
  arrayKey : List.Forall₂ (fun f l => (∃ inner, f.1.toList = '[' :: inner ++ [']'] ∧
      l.1 = String.ofList (trim inner)) ∧ R f.2 l.2)
    (fields.filter fun f => IsArrayKey f.1) m.arrayKey.toList
  wildcard : List.Forall₂ (fun f a => R f.2 a)
    (fields.filter fun f => IsWildcardKey f.1) m.wildcard.toList

theorem Mapping.Lists.keeps {α : Type} {R : Json → α → Prop} {fields : List (String × Json)}
    {m : Mapping α} (h : Lists R fields m) : m.Keeps R fields := by
  induction h with
  | nil => exact ⟨.nil, .nil, .nil⟩
  | @literal key name v a fields m hkey hv _ ih =>
    obtain ⟨rfl, hwildcard, harray⟩ := MappingKey.classify_eq_literal_iff.mp hkey
    refine ⟨?_, ?_, ?_⟩
    · rw [List.filter_cons_of_pos (by simp [hwildcard, harray])]
      exact .cons ⟨rfl, hv⟩ ih.literals
    · rw [List.filter_cons_of_neg (by simpa using harray)]
      exact ih.arrayKey
    · rw [List.filter_cons_of_neg (by simpa using hwildcard)]
      exact ih.wildcard
  | @array key dataset v a fields m hkey hv hm _ ih =>
    have harray : IsArrayKey key := MappingKey.isArrayKey_iff.mpr ⟨dataset, hkey⟩
    have hwildcard : ¬ IsWildcardKey key := fun hw => hw.not_isArrayKey harray
    refine ⟨?_, ?_, ?_⟩
    · rw [List.filter_cons_of_neg (by simp [harray])]
      exact ih.literals
    · rw [List.filter_cons_of_pos (by simpa using harray)]
      exact .cons ⟨MappingKey.classify_eq_array_iff.mp hkey, hv⟩ (by simpa [hm] using ih.arrayKey)
    · rw [List.filter_cons_of_neg (by simpa using hwildcard)]
      exact ih.wildcard
  | @wildcard key v a fields m hkey hv hm _ ih =>
    have hwildcard : IsWildcardKey key := MappingKey.classify_eq_wildcard_iff.mp hkey
    have harray := hwildcard.not_isArrayKey
    refine ⟨?_, ?_, ?_⟩
    · rw [List.filter_cons_of_neg (by simp [hwildcard])]
      exact ih.literals
    · rw [List.filter_cons_of_neg (by simpa using harray)]
      exact ih.arrayKey
    · rw [List.filter_cons_of_pos (by simpa using hwildcard)]
      exact .cons hv (by simpa [hm] using ih.wildcard)

/-- A node with keys of its own keeps the written ones. -/
theorem Describes.keeps_inline {doc : SchemaSource} {v : Json} {n : SchemaNode}
    {m : Mapping SchemaNode} (h : Describes doc v n) (hm : n.children = .inline m) :
    ∃ s keys, NodeSource.ofJson? v = some s ∧ s.reference = none ∧ s.keys = some keys ∧
      m.Keeps (Describes doc) keys := by
  obtain @⟨v, s, n, source, -, -, children⟩ := h
  rw [hm] at children
  generalize href : s.reference = reference at children
  generalize hkeys : s.keys = keys at children
  cases children with
  | @inline fields m lists => exact ⟨s, fields, source, href, hkeys, lists.keeps⟩

/-- Every mapping of the schema has the keys of a written one: that of the category the keys
`fields`, that of a definition those of the definition, and that of any other node, with every
reference followed, its own. -/
structure SchemaSource.KeptIn (doc : SchemaSource) (fields : List (String × Json))
    (schema : Schema) : Prop where
  root : schema.root.Keeps (Describes doc) fields
  definition : ∀ name keys, doc.fields? name = some keys →
    (schema.definition name).Keeps (Describes doc) keys
  inline : ∀ n m, schema.Holds n → n.children = .inline m →
    ∃ v s keys, Describes doc v n ∧ NodeSource.ofJson? v = some s ∧ s.reference = none ∧
      s.keys = some keys ∧ m.Keeps (Describes doc) keys

theorem SchemaSource.Compiled.keptIn {doc : SchemaSource} {fields : List (String × Json)}
    {schema : Schema} (h : doc.Compiled fields schema) : doc.KeptIn fields schema where
  root := h.root.keeps
  definition _ _ hkeys := (h.lists_definition hkeys).keeps
  inline n m hn hm := by
    obtain ⟨v, hv⟩ := h.exists_describes hn
    obtain ⟨s, keys, hkeeps⟩ := hv.keeps_inline hm
    exact ⟨v, s, keys, hv, hkeeps⟩

/-- A document compiles if and only if it is well formed. Its categories then come in order, and
every written key is in its mapping once. -/
theorem compileSchemas_exactly (v : Json) :
    ((∃ schemas, compileSchemas v = .ok schemas) ↔
      ∃ doc, SchemaSource.ofJson? v = some doc ∧ doc.WellFormed) ∧
    ∀ schemas, compileSchemas v = .ok schemas → ∃ doc, SchemaSource.ofJson? v = some doc ∧
      List.Forall₂ (fun written compiled => compiled.1 = written.1 ∧
        ∃ fields, written.2 = .obj fields ∧ doc.KeptIn fields compiled.2)
        doc.categories schemas := by
  refine ⟨exists_compileSchemas_iff, fun schemas h => ?_⟩
  obtain ⟨doc, hdoc, hcategories⟩ := compiled_of_compileSchemas h
  refine ⟨doc, hdoc, hcategories.imp ?_⟩
  rintro written compiled ⟨hcategory, fields, hfields, hcompiled⟩
  exact ⟨hcategory, fields, members?_eq_some_iff.mp hfields, hcompiled.keptIn⟩

/-- A definition that refers to itself, and a category with keys of every sort. -/
theorem compileSchemas_exactly_sorts :
    let number : Json := .obj [("type", .str "float")]
    let stats : Json := .obj [("Health", number), ("Nested", .obj [("ref", .str "Stats")])]
    let pet : List (String × Json) := [("Stats", .obj [("ref", .str "Stats")]), ("<any>", number),
      ("[ ATTRIBUTE ]", number), ("Type", .obj [("keys", .obj [("*", number)])])]
    let v : Json :=
      .obj [("definitions", .obj [("Stats", stats)]), ("categories", .obj [("Pet", .obj pet)])]
    (∃ doc, SchemaSource.ofJson? v = some doc ∧ doc.WellFormed) ∧
      ∃ schema, compileSchemas v = .ok [("Pet", schema)] ∧
        schema.root.literals.map Prod.fst = ["Stats", "Type"] := by
  intro number stats pet v
  have hok : (compileSchemas v).isOk := by decide +kernel
  obtain ⟨schemas, hschemas⟩ : ∃ schemas, compileSchemas v = .ok schemas := by
    cases h : compileSchemas v with
    | error e => rw [h] at hok; cases hok
    | ok schemas => exact ⟨schemas, rfl⟩
  obtain ⟨haccepted, hkept⟩ := compileSchemas_exactly v
  refine ⟨haccepted.mp ⟨schemas, hschemas⟩, ?_⟩
  obtain ⟨doc, hdoc, hcategories⟩ := hkept schemas hschemas
  obtain rfl : ⟨[("Stats", stats)], [("Pet", .obj pet)]⟩ = doc := Option.some.inj hdoc
  cases hcategories with
  | @cons _ compiled _ _ hpet hrest =>
    cases hrest
    obtain ⟨category, schema⟩ := compiled
    obtain ⟨hcategory, fields, hfields, hkeptIn⟩ := hpet
    obtain rfl : category = "Pet" := hcategory
    obtain rfl : pet = fields := Json.obj.inj hfields
    have hnames : ((pet.filter fun f => ¬ IsWildcardKey f.1 ∧ ¬ IsArrayKey f.1).map Prod.fst) =
        schema.root.literals.map Prod.fst := by
      rw [← List.forall₂_eq_eq_eq, List.forall₂_map_left_iff, List.forall₂_map_right_iff]
      exact hkeptIn.root.literals.imp fun _ _ h => h.1.symm
    exact ⟨schema, hschemas, hnames.symm.trans (by decide +kernel)⟩

end SkillScript
