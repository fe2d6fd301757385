import Mathlib.Data.List.Forall2
import Mathlib.Data.Option.Basic
import SkillScript.Schema.Locate
import SkillScript.Schema.Source

/-!
# Schemas as they are written

A schema document can be read without compiling it. A path of keys leads from a written mapping to
a written node, through definitions where nodes refer to them (`SchemaSource.walk?`). What a
compiled node has of the written one is `Describes`. A node that refers to a definition describes
the reference only, so the relation is finite although the schema may contain itself.

* `describes_of_compileNode`, `lists_of_compileMapping`: what compiles describes what is written.
* `Mapping.Lists.get?`: a name leads to the node of the key that it is matched with as written.
* `SchemaSource.Compiled`: a schema with the mappings of a document. Every definition of the
  document is among its own, and was compiled without a defect.
* `locate?_compileSchemas`: in a compiled document, paths lead where they lead as written.
-/

namespace SkillScript

/-! ## The walk over a written document -/

namespace MappingKey

/-- The key is `name`, but for the case of ASCII letters. -/
def isLiteral (name : String) : MappingKey → Bool
  | literal key => sameAscii key name
  | _ => false

/-- The key stands for the members of a dataset, and `name` is one. -/
def isArrayOf (datasets : Datasets) (name : String) : MappingKey → Bool
  | array dataset => (datasets.find? dataset).any (·.contains name)
  | _ => false

/-- The key stands for any name. -/
def isWildcard : MappingKey → Bool
  | wildcard => true
  | _ => false

end MappingKey

/-- The first value under a key of the given class. -/
def pick? (p : MappingKey → Bool) (fields : List (String × Json)) : Option Json :=
  (fields.find? fun f => p (MappingKey.classify f.1)).map Prod.snd

/-- What `name` leads to in a written mapping: as a literal key, else as a member of the dataset of
an array key, else by a wildcard. -/
def matched? (datasets : Datasets) (fields : List (String × Json)) (name : String) : Option Json :=
  ((pick? (MappingKey.isLiteral name) fields).or
    (pick? (MappingKey.isArrayOf datasets name) fields)).or (pick? MappingKey.isWildcard fields)

/-- What stands beneath a written node is its user's own. -/
def NodeSource.isLeafContainer (s : NodeSource) : Bool :=
  match s.effectiveKind with
  | .keyList => true
  | .list => s.reference.isNone && s.keys.isNone
  | _ => false

namespace SchemaSource

variable (doc : SchemaSource)

/-- The names that nodes may refer to. -/
def names : List String := doc.definitions.map Prod.fst

/-- The written mapping of a definition. -/
def fields? (name : String) : Option (List (String × Json)) :=
  (doc.definitions.lookup name).bind Json.members?

/-- The written mapping beneath a node: of the definition that it refers to, or else its own. -/
def childrenOf? (s : NodeSource) : Option (List (String × Json)) :=
  match s.reference with
  | some name => doc.fields? name
  | none => s.keys

/-- The written node that a path leads to from a mapping at `depth`; `closed` says that the depth no
longer grows. -/
def walkFrom? (datasets : Datasets) (fields : List (String × Json)) (depth : Nat) (closed : Bool) :
    List String → Option (Json × Nat)
  | [] => none
  | name :: path =>
    match matched? datasets fields name with
    | none => none
    | some v =>
      match NodeSource.ofJson? v with
      | none => none
      | some s =>
        if path.isEmpty || s.isLeafContainer then some (v, depth)
        else match doc.childrenOf? s with
          | none => none
          | some children =>
            let closed := closed || s.closesDepth
            walkFrom? datasets children (if closed then depth else depth + 1) closed path

/-- The written node that a path leads to, and its depth. -/
def walk? (datasets : Datasets) (fields : List (String × Json)) (path : List String) :
    Option (Json × Nat) :=
  doc.walkFrom? datasets fields 0 false path

end SchemaSource

/-! ## What a node has of the written one -/

/-- The node has the fields that are written, and a kind where none is written. -/
structure NodeSource.Carried (s : NodeSource) (n : SchemaNode) : Prop where
  kind : n.kind =
    s.kind.getD (if s.reference.isSome || s.keys.isSome then SchemaKind.key else SchemaKind.string)
  description : n.description = s.description
  link : n.link = s.link
  values : n.values = s.values
  dataset : n.dataset = s.dataset
  closesDepth : n.closesDepth = s.closesDepth
  suffix : n.suffix = s.suffix

/-- The mapping has the written keys: the literal ones in order, and at most one array key and one
wildcard. Each leads to a node that `R` relates to what is written under the key. -/
inductive Mapping.Lists {α : Type} (R : Json → α → Prop) :
    List (String × Json) → Mapping α → Prop
  | nil : Lists R [] .empty
  | literal {key name : String} {v : Json} {a : α} {fields : List (String × Json)} {m : Mapping α}
      (hkey : MappingKey.classify key = .literal name) (hv : R v a) (h : Lists R fields m) :
      Lists R ((key, v) :: fields) { m with literals := (name, a) :: m.literals }
  | array {key dataset : String} {v : Json} {a : α} {fields : List (String × Json)} {m : Mapping α}
      (hkey : MappingKey.classify key = .array dataset) (hv : R v a) (hm : m.arrayKey = none)
      (h : Lists R fields m) :
      Lists R ((key, v) :: fields) { m with arrayKey := some (dataset, a) }
  | wildcard {key : String} {v : Json} {a : α} {fields : List (String × Json)} {m : Mapping α}
      (hkey : MappingKey.classify key = .wildcard) (hv : R v a) (hm : m.wildcard = none)
      (h : Lists R fields m) :
      Lists R ((key, v) :: fields) { m with wildcard := some a }

/-- The children of a node are those of its written reference and keys: the definition that it
refers to, which is in the document, or else a mapping of its own keys. -/
inductive DescribesChildren {α : Type} (R : Json → α → Prop) (doc : SchemaSource) :
    Option String → Option (List (String × Json)) → Children α → Prop
  | deferred {name : String} {keys : Option (List (String × Json))}
      {fields : List (String × Json)} (definition : doc.fields? name = some fields) :
      DescribesChildren R doc (some name) keys (.deferred name)
  | inline {fields : List (String × Json)} {m : Mapping α} (lists : Mapping.Lists R fields m) :
      DescribesChildren R doc none (some fields) (.inline m)
  | none : DescribesChildren R doc none none .none

/-- The node has the fields, the entries and the children that are written. -/
inductive Describes (doc : SchemaSource) : Json → SchemaNode → Prop
  | intro {v : Json} {s : NodeSource} {n : SchemaNode} (source : NodeSource.ofJson? v = some s)
      (carried : s.Carried n) (entries : List.Forall₂ (Describes doc) s.entries n.entries)
      (children : DescribesChildren (Describes doc) doc s.reference s.keys n.children) :
      Describes doc v n

/-! ## Compilation -/

/-- `m'` is `m` with the keys of `r` behind its own. -/
structure Mapping.Extends {α : Type} (m m' r : Mapping α) : Prop where
  literals : m'.literals = m.literals ++ r.literals
  arrayKey : m'.arrayKey = m.arrayKey.or r.arrayKey
  wildcard : m'.wildcard = m.wildcard.or r.wildcard
  /-- There is one array key at most. -/
  array_none : m.arrayKey ≠ none → r.arrayKey = none
  /-- There is one wildcard at most. -/
  wildcard_none : m.wildcard ≠ none → r.wildcard = none

namespace Mapping

variable {α : Type} {R : Json → α → Prop} {m m₁ m' r : Mapping α}

theorem Extends.eq_of_empty (h : Extends .empty m' r) : m' = r := by
  obtain ⟨literals, arrayKey, wildcard⟩ := m'
  obtain ⟨h₁, h₂, h₃, -, -⟩ := h
  simp only [empty, List.nil_append, Option.none_or] at h₁ h₂ h₃
  rw [h₁, h₂, h₃]

/-- A key that is added to a mapping is listed before those that are added after it. -/
theorem lists_of_add {path key : String} {v : Json} {a : α} {fields : List (String × Json)}
    (hadd : m.add path key a = .ok m₁) (hv : R v a) (hlists : Lists R fields r)
    (hext : Extends m₁ m' r) : ∃ r', Lists R ((key, v) :: fields) r' ∧ Extends m m' r' := by
  unfold add at hadd
  split at hadd
  · next name hkey =>
    cases hadd
    refine ⟨_, .literal hkey hv hlists, ⟨?_, hext.arrayKey, hext.wildcard, hext.array_none,
      hext.wildcard_none⟩⟩
    rw [hext.literals, List.append_assoc]
    rfl
  · next hkey =>
    split at hadd
    · cases hadd
    · next hnone =>
      cases hadd
      have hm : m.wildcard = none := by simpa using hnone
      have hr : r.wildcard = none := hext.wildcard_none (by simp)
      refine ⟨_, .wildcard hkey hv hr hlists, ⟨hext.literals, hext.arrayKey, ?_, hext.array_none,
        fun h => absurd hm h⟩⟩
      rw [hext.wildcard, hm]
      rfl
  · next dataset hkey =>
    split at hadd
    · cases hadd
    · split at hadd
      · cases hadd
      · next hnone =>
        cases hadd
        have hm : m.arrayKey = none := by simpa using hnone
        have hr : r.arrayKey = none := hext.array_none (by simp)
        refine ⟨_, .array hkey hv hr hlists, ⟨hext.literals, ?_, hext.wildcard,
          fun h => absurd hm h, hext.wildcard_none⟩⟩
        rw [hext.arrayKey, hm]
        rfl

end Mapping

theorem NodeSource.carried_node (s : NodeSource) (entries : List SchemaNode)
    (children : Children SchemaNode) : s.Carried (s.node entries children) :=
  ⟨rfl, rfl, rfl, rfl, rfl, rfl, rfl⟩

/-- The names are those of definitions. -/
def SchemaSource.Defines (doc : SchemaSource) (names : List String) : Prop :=
  ∀ name ∈ names, ∃ fields, doc.fields? name = some fields

section Compile

variable {doc : SchemaSource} {names : List String}

mutual

/-- A compiled node describes the written one. -/
theorem describes_of_compileNode (hnames : doc.Defines names) {path : String} {v : Json}
    {n : SchemaNode} (h : compileNode names path v = .ok n) : Describes doc v n := by
  rw [compileNode] at h
  split at h
  · cases h
  · next s hs =>
    split at h
    · cases h
    · next entries hentries =>
      have hlt := NodeSource.sizeItems_entries_lt hs
      have he := forall₂_of_compileEntries hnames hentries
      split at h
      · next name href =>
        split at h
        · next hname =>
          cases h
          obtain ⟨fields, hfields⟩ := hnames name (by simpa using hname)
          exact .intro hs (s.carried_node _ _) he (href ▸ .deferred hfields)
        · cases h
      · next href =>
        split at h
        · next hkeys =>
          cases h
          exact .intro hs (s.carried_node _ _) he (href ▸ hkeys ▸ .none)
        · next fields hkeys =>
          split at h
          · cases h
          · next m hm =>
            cases h
            have hlt := NodeSource.sizeFields_keys_lt hs hkeys
            obtain ⟨r, hlists, hext⟩ := lists_of_compileMapping hnames hm
            rw [← hext.eq_of_empty] at hlists
            exact .intro hs (s.carried_node _ _) he (href ▸ hkeys ▸ .inline hlists)
termination_by v.size

theorem forall₂_of_compileEntries (hnames : doc.Defines names) {path : String} {index : Nat}
    {items : List Json} {entries : List SchemaNode}
    (h : compileEntries names path index items = .ok entries) :
    List.Forall₂ (Describes doc) items entries := by
  match items with
  | [] =>
    rw [compileEntries] at h
    cases h
    exact .nil
  | v :: rest =>
    have hlt : 1 + v.size + Json.sizeItems rest = Json.sizeItems (v :: rest) := by
      rw [Json.sizeItems]
    rw [compileEntries] at h
    split at h
    · cases h
    · next entry hentry =>
      split at h
      · cases h
      · next entries hentries =>
        cases h
        exact .cons (describes_of_compileNode hnames hentry)
          (forall₂_of_compileEntries hnames hentries)
termination_by Json.sizeItems items

/-- The keys of a compiled mapping are the written ones, behind those that it had before. -/
theorem lists_of_compileMapping (hnames : doc.Defines names) {path : String}
    {m m' : Mapping SchemaNode} {fields : List (String × Json)}
    (h : compileMapping names path m fields = .ok m') :
    ∃ r, Mapping.Lists (Describes doc) fields r ∧ m.Extends m' r := by
  match fields with
  | [] =>
    rw [compileMapping] at h
    cases h
    exact ⟨.empty, .nil, by simp [Mapping.empty], by simp [Mapping.empty], by simp [Mapping.empty],
      fun _ => rfl, fun _ => rfl⟩
  | (key, v) :: rest =>
    have hlt : 1 + v.size + Json.sizeFields rest = Json.sizeFields ((key, v) :: rest) := by
      rw [Json.sizeFields]
    rw [compileMapping] at h
    split at h
    · cases h
    · next n hn =>
      split at h
      · cases h
      · next m₁ hadd =>
        obtain ⟨r, hlists, hext⟩ := lists_of_compileMapping hnames h
        exact Mapping.lists_of_add hadd (describes_of_compileNode hnames hn) hlists hext
termination_by Json.sizeFields fields

end

end Compile

/-! ## Matching names -/

theorem rel_or {α β : Type} {R : α → β → Prop} {a a' : Option α} {b b' : Option β}
    (h : Option.Rel R a b) (h' : Option.Rel R a' b') : Option.Rel R (a.or a') (b.or b') := by
  cases h with
  | some h => exact .some h
  | none => exact h'

namespace Mapping.Lists

variable {α : Type} {R : Json → α → Prop} {fields : List (String × Json)} {m : Mapping α}

theorem literal? (h : Lists R fields m) (name : String) :
    Option.Rel R (pick? (MappingKey.isLiteral name) fields) (m.literal? name) := by
  induction h with
  | nil => exact .none
  | @literal key k v a fields m hkey hv _ ih =>
    by_cases hname : sameAscii k name
    · simp only [pick?, Mapping.literal?, List.find?_cons, hkey, MappingKey.isLiteral, hname]
      exact .some hv
    · simpa [pick?, Mapping.literal?, hkey, MappingKey.isLiteral, hname] using ih
  | array hkey _ _ _ ih =>
    simpa [pick?, Mapping.literal?, hkey, MappingKey.isLiteral] using ih
  | wildcard hkey _ _ _ ih =>
    simpa [pick?, Mapping.literal?, hkey, MappingKey.isLiteral] using ih

theorem member? (h : Lists R fields m) (datasets : Datasets) (name : String) :
    Option.Rel R (pick? (MappingKey.isArrayOf datasets name) fields) (m.member? datasets name) := by
  induction h with
  | nil => exact .none
  | literal hkey _ _ ih =>
    simpa [pick?, Mapping.member?, hkey, MappingKey.isArrayOf] using ih
  | @array key dataset v a fields m hkey hv hm _ ih =>
    by_cases hname : (datasets.find? dataset).any (·.contains name)
    · simp only [pick?, Mapping.member?, List.find?_cons, hkey, MappingKey.isArrayOf, hname]
      exact .some hv
    · -- The keys behind an array key have no other.
      simp only [Mapping.member?, hm] at ih
      simpa [pick?, Mapping.member?, hkey, MappingKey.isArrayOf, hname] using ih
  | wildcard hkey _ _ _ ih =>
    simpa [pick?, Mapping.member?, hkey, MappingKey.isArrayOf] using ih

theorem wildcard? (h : Lists R fields m) :
    Option.Rel R (pick? MappingKey.isWildcard fields) m.wildcard := by
  induction h with
  | nil => exact .none
  | literal hkey _ _ ih => simpa [pick?, hkey, MappingKey.isWildcard] using ih
  | array hkey _ _ _ ih => simpa [pick?, hkey, MappingKey.isWildcard] using ih
  | wildcard hkey hv _ _ _ =>
    simp only [pick?, List.find?_cons, hkey, MappingKey.isWildcard]
    exact .some hv

/-- A name leads to the node of the key that it is matched with as written. -/
theorem get? (h : Lists R fields m) (datasets : Datasets) (name : String) :
    Option.Rel R (matched? datasets fields name) (m.get? datasets name) :=
  rel_or (rel_or (h.literal? name) (h.member? datasets name)) h.wildcard?

end Mapping.Lists

/-! ## Walking -/

/-- The node that was found has what is written at the same depth. -/
def Locates (doc : SchemaSource) (written : Json × Nat) (found : Located) : Prop :=
  Describes doc written.1 found.node ∧ found.depth = written.2

/-- The schema has the written keys `fields`, and each definition of the document is among its own
as it compiles, which is without a defect. -/
structure SchemaSource.Compiled (doc : SchemaSource) (fields : List (String × Json))
    (schema : Schema) : Prop where
  defines : doc.Defines doc.names
  root : Mapping.Lists (Describes doc) fields schema.root
  definition : ∀ name fields, doc.fields? name = some fields →
    compileMapping doc.names name .empty fields = .ok (schema.definition name)

section Walk

variable {doc : SchemaSource} {fields : List (String × Json)} {schema : Schema}

theorem isLeafContainer_eq {s : NodeSource} {n : SchemaNode} {R : Json → SchemaNode → Prop}
    (carried : s.Carried n) (children : DescribesChildren R doc s.reference s.keys n.children) :
    s.isLeafContainer = n.isLeafContainer := by
  have hkind : n.kind = s.effectiveKind := carried.kind
  have hchildren : n.hasChildren = !(s.reference.isNone && s.keys.isNone) := by
    unfold SchemaNode.hasChildren
    generalize s.reference = reference at children ⊢
    generalize s.keys = keys at children ⊢
    generalize n.children = below at children ⊢
    cases children <;> simp
  unfold NodeSource.isLeafContainer SchemaNode.isLeafContainer
  rw [hkind]
  cases s.effectiveKind <;> simp [hchildren]

namespace SchemaSource.Compiled

/-- A reference leads to the written mapping of a definition. -/
theorem lists_definition (h : doc.Compiled fields schema) {name : String}
    {keys : List (String × Json)} (hkeys : doc.fields? name = some keys) :
    Mapping.Lists (Describes doc) keys (schema.definition name) := by
  obtain ⟨r, hlists, hext⟩ := lists_of_compileMapping h.defines (h.definition name keys hkeys)
  rwa [hext.eq_of_empty]

theorem childrenOf? (h : doc.Compiled fields schema) {s : NodeSource} {n : SchemaNode}
    (children : DescribesChildren (Describes doc) doc s.reference s.keys n.children) :
    Option.Rel (Mapping.Lists (Describes doc)) (doc.childrenOf? s) (schema.childrenOf? n) := by
  unfold SchemaSource.childrenOf? Schema.childrenOf?
  generalize s.reference = reference at children ⊢
  generalize s.keys = keys at children ⊢
  generalize n.children = below at children ⊢
  cases children with
  | deferred definition =>
    dsimp only
    rw [definition]
    exact .some (h.lists_definition definition)
  | inline lists => exact .some lists
  | none => exact .none

/-- From a mapping and its written form, a path leads to a node and its written form. -/
theorem walkFrom? (h : doc.Compiled fields schema) (datasets : Datasets) (path : List String)
    {keys : List (String × Json)} {m : Mapping SchemaNode}
    (hm : Mapping.Lists (Describes doc) keys m) (depth : Nat) (closed : Bool) :
    Option.Rel (Locates doc) (doc.walkFrom? datasets keys depth closed path)
      (schema.locateFrom? datasets m depth closed path) := by
  induction path generalizing keys m depth closed with
  | nil => exact .none
  | cons name path ih =>
    unfold SchemaSource.walkFrom? Schema.locateFrom?
    have hget := hm.get? datasets name
    generalize matched? datasets keys name = written at hget ⊢
    generalize m.get? datasets name = found at hget ⊢
    cases hget with
    | none => exact .none
    | @some v n hv =>
      obtain @⟨v, s, n, source, carried, entries, children⟩ := hv
      dsimp only
      rw [source]
      dsimp only
      rw [isLeafContainer_eq carried children]
      split
      · exact .some ⟨.intro source carried entries children, rfl⟩
      · have hchildren := h.childrenOf? children
        generalize doc.childrenOf? s = below at hchildren ⊢
        generalize schema.childrenOf? n = below' at hchildren ⊢
        cases hchildren with
        | none => exact .none
        | some hbelow =>
          rw [carried.closesDepth]
          exact ih hbelow _ _

/-- In a compiled schema, a path leads where it leads as written. -/
theorem walk? (h : doc.Compiled fields schema) (datasets : Datasets) (path : List String) :
    Option.Rel (Locates doc) (doc.walk? datasets fields path) (schema.locate? datasets path) :=
  h.walkFrom? datasets path h.root 0 false

end SchemaSource.Compiled

/-! ## Every node of a schema -/

/-- The nodes of a schema, with every reference followed. -/
inductive Schema.Holds (s : Schema) : SchemaNode → Prop
  | root {slot : Slot} {n : SchemaNode} (h : (slot, n) ∈ s.root.slots) : Holds s n
  | beneath {slot : Slot} {n c : SchemaNode} (hn : Holds s n) (h : (slot, c) ∈ s.slotsOf n) :
      Holds s c

theorem Mapping.of_mem_slots {α : Type} {m : Mapping α} {slot : Slot} {a : α}
    (h : (slot, a) ∈ m.slots) :
    (∃ name, (name, a) ∈ m.literals) ∨ (∃ dataset, m.arrayKey = some (dataset, a)) ∨
      m.wildcard = some a := by
  simp only [Mapping.slots, List.mem_append, List.mem_map, Option.mem_toList, Prod.mk.injEq] at h
  rcases h with (⟨⟨name, b⟩, hb, -, rfl⟩ | ⟨⟨dataset, b⟩, hb, -, rfl⟩) | ⟨b, hb, -, rfl⟩
  · exact .inl ⟨name, hb⟩
  · exact .inr (.inl ⟨dataset, hb⟩)
  · exact .inr (.inr hb)

/-- What hangs from a mapping is written in it. -/
theorem Mapping.Lists.exists_of_mem_slots {α : Type} {R : Json → α → Prop} {m : Mapping α}
    (h : Lists R fields m) {slot : Slot} {a : α} (ha : (slot, a) ∈ m.slots) : ∃ v, R v a := by
  replace ha := Mapping.of_mem_slots ha
  induction h with
  | nil => simp [Mapping.empty] at ha
  | @literal key k v b fields m hkey hv _ ih =>
    rcases ha with ⟨name, hname⟩ | ha
    · rcases List.mem_cons.mp hname with heq | hname
      · cases heq
        exact ⟨v, hv⟩
      · exact ih (.inl ⟨name, hname⟩)
    · exact ih (.inr ha)
  | @array key dataset v b fields m hkey hv hm _ ih =>
    rcases ha with ha | ⟨dataset, hdataset⟩ | ha
    · exact ih (.inl ha)
    · cases hdataset
      exact ⟨v, hv⟩
    · exact ih (.inr (.inr ha))
  | @wildcard key v b fields m hkey hv hm _ ih =>
    rcases ha with ha | ha | ha
    · exact ih (.inl ha)
    · exact ih (.inr (.inl ha))
    · cases ha
      exact ⟨v, hv⟩

theorem exists_of_mem_forall₂ {α β : Type} {R : α → β → Prop} {as : List α} {bs : List β}
    (h : List.Forall₂ R as bs) {b : β} (hb : b ∈ bs) : ∃ a, R a b := by
  induction h with
  | nil => cases hb
  | cons hr _ ih =>
    rcases List.mem_cons.mp hb with rfl | hb
    · exact ⟨_, hr⟩
    · exact ih hb

namespace SchemaSource.Compiled

/-- Every node is as it is written somewhere in the document. -/
theorem exists_describes (h : doc.Compiled fields schema) {n : SchemaNode} (hn : schema.Holds n) :
    ∃ v, Describes doc v n := by
  induction hn with
  | root hslot => exact h.root.exists_of_mem_slots hslot
  | @beneath slot n c _ hslot ih =>
    obtain ⟨v, hv⟩ := ih
    obtain @⟨v, s, n, source, carried, entries, children⟩ := hv
    rcases List.mem_append.mp hslot with hentry | hchild
    · obtain ⟨⟨e, i⟩, he, heq⟩ := List.mem_map.mp hentry
      cases heq
      exact exists_of_mem_forall₂ entries (List.fst_mem_of_mem_zipIdx he)
    · have hchildren := h.childrenOf? children
      generalize doc.childrenOf? s = below at hchildren
      generalize schema.childrenOf? n = below' at hchildren hchild
      cases hchildren with
      | none => cases hchild
      | some hbelow => exact hbelow.exists_of_mem_slots hchild

/-- A reference leads to a definition that compiles without a defect, to the very mapping that the
schema has for it. -/
theorem compileMapping_of_deferred (h : doc.Compiled fields schema) {n : SchemaNode}
    (hn : schema.Holds n) {name : String} (hname : n.children = .deferred name) :
    ∃ keys, doc.fields? name = some keys ∧
      compileMapping doc.names name .empty keys = .ok (schema.definition name) := by
  obtain ⟨v, hv⟩ := h.exists_describes hn
  obtain @⟨v, s, n, source, carried, entries, children⟩ := hv
  rw [hname] at children
  generalize s.reference = reference at children
  generalize s.keys = written at children
  cases children with
  | @deferred _ _ keys definition => exact ⟨keys, definition, h.definition name keys definition⟩

end SchemaSource.Compiled

end Walk

/-! ## Documents -/

theorem bind_eq_ok {ε α β : Type} {x : Except ε α} {f : α → Except ε β} {b : β}
    (h : (x >>= f) = .ok b) : ∃ a, x = .ok a ∧ f a = .ok b := by
  cases x with
  | error e => cases h
  | ok a => exact ⟨a, rfl, h⟩

theorem orMalformed_eq_ok {α : Type} {o : Option α} {a : α} (h : orMalformed o = .ok a) :
    o = some a := by
  cases o with
  | none => cases h
  | some b => cases h; rfl

theorem definitionFields_eq_ok {definitions : List (String × Json)}
    {fs : List (String × List (String × Json))} (h : definitionFields definitions = .ok fs) :
    fs.map Prod.fst = definitions.map Prod.fst ∧
      ∀ name, fs.lookup name = (definitions.lookup name).bind Json.members? := by
  induction definitions generalizing fs with
  | nil =>
    cases h
    exact ⟨rfl, fun name => rfl⟩
  | cons d rest ih =>
    obtain ⟨name, v⟩ := d
    obtain ⟨fields, hfields, h⟩ := bind_eq_ok h
    obtain ⟨others, hothers, h⟩ := bind_eq_ok h
    cases h
    obtain ⟨hnames, hlookup⟩ := ih hothers
    refine ⟨by rw [List.map_cons, List.map_cons, hnames], fun key => ?_⟩
    rw [List.lookup_cons, List.lookup_cons]
    split
    · rw [Option.bind_some, orMalformed_eq_ok hfields]
    · exact hlookup key

theorem compileDefinitions_eq_ok {names : List String} {fs : List (String × List (String × Json))}
    {definitions : List (String × Mapping SchemaNode)}
    (h : compileDefinitions names fs = .ok definitions) :
    definitions.map Prod.fst = fs.map Prod.fst ∧ ∀ name fields, fs.lookup name = some fields →
      ∃ m, compileMapping names name .empty fields = .ok m ∧ definitions.lookup name = some m := by
  induction fs generalizing definitions with
  | nil =>
    cases h
    exact ⟨rfl, fun name fields h => by cases h⟩
  | cons f rest ih =>
    obtain ⟨name, fields⟩ := f
    obtain ⟨m, hm, h⟩ := bind_eq_ok h
    obtain ⟨others, hothers, h⟩ := bind_eq_ok h
    cases h
    obtain ⟨hnames, hlookup⟩ := ih hothers
    refine ⟨by rw [List.map_cons, List.map_cons, hnames], fun key keys hkeys => ?_⟩
    rw [List.lookup_cons] at hkeys ⊢
    split at hkeys
    · next heq =>
      cases hkeys
      obtain rfl : key = name := by simpa using heq
      exact ⟨m, hm, by simp⟩
    · obtain ⟨m', hm', hl⟩ := hlookup key keys hkeys
      exact ⟨m', hm', hl⟩

theorem compileCategories_eq_ok {definitions : List (String × Mapping SchemaNode)}
    {categories : List (String × Json)} {schemas : List (String × Schema)}
    (h : compileCategories definitions categories = .ok schemas) :
    List.Forall₂ (fun written compiled => compiled.1 = written.1 ∧
      compiled.2.definitions = definitions ∧ ∃ fields, written.2.members? = some fields ∧
        compileMapping (definitions.map Prod.fst) written.1 .empty fields = .ok compiled.2.root)
      categories schemas := by
  induction categories generalizing schemas with
  | nil =>
    cases h
    exact .nil
  | cons c rest ih =>
    obtain ⟨category, v⟩ := c
    obtain ⟨fields, hfields, h⟩ := bind_eq_ok h
    obtain ⟨root, hroot, h⟩ := bind_eq_ok h
    obtain ⟨others, hothers, h⟩ := bind_eq_ok h
    cases h
    exact .cons ⟨rfl, rfl, fields, orMalformed_eq_ok hfields, hroot⟩ (ih hothers)

/-- The compiled categories of a document are the written ones, with the definitions of the
document. -/
theorem compiled_of_compileSchemas {v : Json} {schemas : List (String × Schema)}
    (h : compileSchemas v = .ok schemas) :
    ∃ doc, SchemaSource.ofJson? v = some doc ∧
      List.Forall₂ (fun written compiled => compiled.1 = written.1 ∧
        ∃ fields, written.2.members? = some fields ∧ doc.Compiled fields compiled.2)
        doc.categories schemas := by
  obtain ⟨doc, hdoc, h⟩ := bind_eq_ok h
  obtain ⟨fs, hfs, h⟩ := bind_eq_ok h
  obtain ⟨definitions, hdefinitions, h⟩ := bind_eq_ok h
  obtain ⟨hnames, hlookup⟩ := definitionFields_eq_ok hfs
  obtain ⟨hnames', hcompiled⟩ := compileDefinitions_eq_ok hdefinitions
  rw [hnames] at hnames' hcompiled
  have hdefines : doc.Defines doc.names := by
    intro name hname
    rw [SchemaSource.names, ← hnames] at hname
    obtain ⟨f, hf, rfl⟩ := List.mem_map.mp hname
    obtain ⟨fields, hfields⟩ := Option.isSome_iff_exists.mp
      (List.lookup_isSome_iff.mpr ⟨f, hf, beq_self_eq_true f.1⟩)
    exact ⟨fields, (hlookup f.1).symm.trans hfields⟩
  refine ⟨doc, orMalformed_eq_ok hdoc, (compileCategories_eq_ok h).imp ?_⟩
  rintro ⟨category, written⟩ ⟨category', schema⟩ ⟨hcategory, hschema, fields, hfields, hroot⟩
  dsimp only at hcategory hschema hroot
  refine ⟨hcategory, fields, hfields, hdefines, ?_, fun name keys hkeys => ?_⟩
  · rw [hnames'] at hroot
    obtain ⟨r, hlists, hext⟩ := lists_of_compileMapping hdefines hroot
    dsimp only
    rwa [hext.eq_of_empty]
  · obtain ⟨m, hm, hl⟩ := hcompiled name keys ((hlookup name).trans hkeys)
    dsimp only
    rw [Schema.definition, hschema, hl]
    exact hm

/-- In a compiled document, paths lead where they lead as written, to nodes with what is written
there, and no reference in it leads to a definition with a defect. -/
theorem locate?_compileSchemas {v : Json} {schemas : List (String × Schema)}
    (h : compileSchemas v = .ok schemas) :
    ∃ doc, SchemaSource.ofJson? v = some doc ∧
      List.Forall₂ (fun written compiled => compiled.1 = written.1 ∧
        ∃ fields, written.2.members? = some fields ∧
          (∀ datasets path, Option.Rel (Locates doc) (doc.walk? datasets fields path)
            (compiled.2.locate? datasets path)) ∧
          ∀ n name, compiled.2.Holds n → n.children = .deferred name →
            ∃ keys, doc.fields? name = some keys ∧
              compileMapping doc.names name .empty keys = .ok (compiled.2.definition name))
        doc.categories schemas := by
  obtain ⟨doc, hdoc, hcategories⟩ := compiled_of_compileSchemas h
  refine ⟨doc, hdoc, hcategories.imp ?_⟩
  rintro written compiled ⟨hcategory, fields, hfields, hcompiled⟩
  exact ⟨hcategory, fields, hfields, hcompiled.walk?,
    fun n name hn hname => hcompiled.compileMapping_of_deferred hn hname⟩

/-- A definition that refers to itself, and closes the depth where it does. -/
theorem locate?_compileSchemas_recursive :
    let health : Json := .obj [("type", .str "float")]
    let stats : Json := .obj [("Health", health),
      ("Nested", .obj [("ref", .str "Stats"), ("max_depth", .bool true)])]
    let pet : Json := .obj [("Stats", .obj [("ref", .str "Stats")]), ("*", .obj [])]
    let v : Json :=
      .obj [("definitions", .obj [("Stats", stats)]), ("categories", .obj [("Pet", pet)])]
    ∃ schema, compileSchemas v = .ok [("Pet", schema)] ∧
      ∃ found, schema.locate? [] ["stats", "Nested", "Nested", "HEALTH"] = some found ∧
        found.node.kind = .float ∧ found.depth = 1 := by
  intro health stats pet v
  have hok : (compileSchemas v).isOk := by decide +kernel
  obtain ⟨schemas, hschemas⟩ : ∃ schemas, compileSchemas v = .ok schemas := by
    cases h : compileSchemas v with
    | error e => rw [h] at hok; cases hok
    | ok schemas => exact ⟨schemas, rfl⟩
  obtain ⟨doc, hdoc, hcategories⟩ := locate?_compileSchemas hschemas
  obtain rfl : ⟨[("Stats", stats)], [("Pet", pet)]⟩ = doc := Option.some.inj hdoc
  cases hcategories with
  | @cons _ compiled _ _ hpet hrest =>
    cases hrest
    obtain ⟨category, schema⟩ := compiled
    obtain ⟨hcategory, fields, hfields, hlocate, -⟩ := hpet
    obtain rfl : category = "Pet" := hcategory
    obtain rfl : [("Stats", .obj [("ref", .str "Stats")]), ("*", .obj [])] = fields :=
      Option.some.inj hfields
    have hwalk := hlocate [] ["stats", "Nested", "Nested", "HEALTH"]
    have hwritten : ((SchemaSource.walk? ⟨[("Stats", stats)], [("Pet", pet)]⟩ []
        [("Stats", .obj [("ref", .str "Stats")]), ("*", .obj [])]
        ["stats", "Nested", "Nested", "HEALTH"]).bind fun written =>
          (NodeSource.ofJson? written.1).map fun s => (s.effectiveKind, written.2)) =
        some (.float, 1) := by
      decide +kernel
    generalize SchemaSource.walk? _ _ _ _ = written at hwalk hwritten
    generalize hfound : schema.locate? [] ["stats", "Nested", "Nested", "HEALTH"] = found at hwalk
    cases hwalk with
    | none => cases hwritten
    | @some written found hlocates =>
      obtain ⟨hdescribes, hdepth⟩ := hlocates
      obtain @⟨_, s, n, source, carried, -, -⟩ := hdescribes
      rw [Option.bind_some, source, Option.map_some, Option.some.injEq, Prod.mk.injEq] at hwritten
      exact ⟨schema, hschemas, found, hfound, carried.kind.trans hwritten.1,
        hdepth.trans hwritten.2⟩

end SkillScript
