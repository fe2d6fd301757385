import SkillScript.Json.Record
import SkillScript.Schema.Basic
import SkillScript.Text.Blank

/-!
# Schema documents

A schema document has named definitions and one mapping for each category of files. In a mapping
the key `*` or `<…>` is the wildcard, `[DATASET]` is the array key, and any other key is literal. A
node may refer to a definition instead of listing keys.

A document is compiled as a whole: every mapping in it is checked, the definitions before the
categories, and one defect is reported. Within a definition, and among the categories, it is the
first one, depth first and in the order of the document. The content of a node is checked before the
key it stands under. Definitions have no order among themselves: which of several defective ones is
reported is unspecified, and `compileDefinitions` takes the first of the document.
-/

namespace SkillScript

/-- A defect of a schema document. -/
inductive SchemaError where
  | undefinedReference (path name : String)
  | duplicateWildcard (path : String)
  | duplicateArrayKey (path : String)
  | missingArrayDataset (path : String)
  deriving DecidableEq, Repr

/-- The wording of a defect. -/
def SchemaError.message : SchemaError → String
  | undefinedReference path name =>
    "schema node at '" ++ path ++ "' references undefined definition '" ++ name ++ "'"
  | duplicateWildcard path => "mapping at '" ++ path ++ "' declares more than one wildcard key"
  | duplicateArrayKey path => "mapping at '" ++ path ++ "' declares more than one array key"
  | missingArrayDataset path => "array key at '" ++ path ++ "' has no dataset"

/-- Why reference data cannot be loaded. -/
inductive LoadError where
  /-- The text is not JSON, or its shape is not that of reference data. -/
  | malformed
  | schema (e : SchemaError)
  deriving DecidableEq, Repr

/-- The wording of a failure to load, where it has one. -/
def LoadError.message? : LoadError → Option String
  | malformed => none
  | schema e => some ("invalid schema document: " ++ e.message)

/-- The value, or the complaint that there is none. -/
def orMalformed {α : Type} : Option α → Except LoadError α
  | some a => .ok a
  | none => .error .malformed

/-! ## Reading a node -/

/-- A node as it is written, with its entries and keys still in JSON. -/
structure NodeSource where
  kind : Option SchemaKind
  description : Option String
  link : Option String
  values : List String
  dataset : Option String
  entries : List Json
  keys : Option (List (String × Json))
  reference : Option String
  closesDepth : Bool
  suffix : Option Suffix

/-- An integer of 64 bits. -/
def Json.int64? (v : Json) : Option Int64 :=
  v.int?.bind fun n =>
    if -9223372036854775808 ≤ n ∧ n ≤ 9223372036854775807 then some (Int64.ofInt n) else none

/-- The values of a suffix: an object whose one field is `choices` or `range`. -/
def SuffixValues.ofJson? : Json → Option SuffixValues
  | .obj [("choices", v)] => (v.list? Json.str?).map .choices
  | .obj [("range", .obj fields)] => do
    let min ← Json.required? Json.int64? "min" fields
    let max ← Json.required? Json.int64? "max" fields
    return .range min max
  | _ => none

/-- A suffix. -/
def Suffix.ofJson? (v : Json) : Option Suffix := do
  let fields ← v.record? ["separator", "values"]
  let separator ← Json.required? Json.str? "separator" fields
  let values ← Json.required? SuffixValues.ofJson? "values" fields
  return { separator, values }

/-- The kind of a node. -/
def SchemaKind.ofJson? (v : Json) : Option SchemaKind := v.variant?.bind ofName?

namespace NodeSource

/-- The fields of a node in the order of their declaration. -/
def fieldNames : List String :=
  ["type", "description", "link", "values", "dataset", "entries", "keys", "ref", "max_depth",
    "suffix"]

/-- A node as it is written. -/
def ofJson? (v : Json) : Option NodeSource :=
  match v.fullRecord? fieldNames with
  | none => none
  | some fields =>
    match Json.orElse? Json.items? [] "entries" fields, Json.maybe? Json.members? "keys" fields with
    | some entries, some keys => do
      let kind ← Json.maybe? SchemaKind.ofJson? "type" fields
      let description ← Json.maybe? Json.str? "description" fields
      let link ← Json.maybe? Json.str? "link" fields
      let values ← Json.orElse? (Json.list? Json.str?) [] "values" fields
      let dataset ← Json.maybe? Json.str? "dataset" fields
      let reference ← Json.maybe? Json.str? "ref" fields
      let closesDepth ← Json.orElse? Json.bool? false "max_depth" fields
      let suffix ← Json.maybe? Suffix.ofJson? "suffix" fields
      return { kind, description, link, values, dataset, entries, keys, reference, closesDepth,
               suffix }
    | _, _ => none

/-- A node without a kind is a block when it has keys or a reference, and a text otherwise. -/
def effectiveKind (s : NodeSource) : SchemaKind :=
  s.kind.getD (if s.reference.isSome || s.keys.isSome then .key else .string)

/-- The node with its entries and children compiled. -/
def node (s : NodeSource) (entries : List SchemaNode) (children : Children SchemaNode) :
    SchemaNode where
  kind := s.effectiveKind
  description := s.description
  link := s.link
  values := s.values
  dataset := s.dataset
  entries
  children
  closesDepth := s.closesDepth
  suffix := s.suffix

theorem ofJson?_eq_some {v : Json} {s : NodeSource} (h : ofJson? v = some s) :
    ∃ fields, v.fullRecord? fieldNames = some fields ∧
      Json.orElse? Json.items? [] "entries" fields = some s.entries ∧
      Json.maybe? Json.members? "keys" fields = some s.keys := by
  unfold ofJson? at h
  split at h
  · cases h
  · next fields hf =>
    refine ⟨fields, hf, ?_⟩
    split at h
    · next entries keys he hk =>
      simp only [bind, Option.bind_eq_some_iff, pure] at h
      obtain ⟨_, _, _, _, _, _, _, _, _, _, _, _, _, _, _, _, h⟩ := h
      cases h
      exact ⟨he, hk⟩
    · cases h

theorem sizeItems_entries_lt {v : Json} {s : NodeSource} (h : ofJson? v = some s) :
    Json.sizeItems s.entries < v.size := by
  obtain ⟨fields, hf, he, -⟩ := ofJson?_eq_some h
  exact Json.size_items_lt (Json.size_lt_of_fullRecord? hf) v.size_pos he

theorem sizeFields_keys_lt {v : Json} {s : NodeSource} {keys : List (String × Json)}
    (h : ofJson? v = some s) (hk : s.keys = some keys) : Json.sizeFields keys < v.size := by
  obtain ⟨fields, hf, -, he⟩ := ofJson?_eq_some h
  exact Json.size_members_lt (Json.size_lt_of_fullRecord? hf) (hk ▸ he)

end NodeSource

/-! ## Mappings -/

/-- What a key of a written mapping is. -/
inductive MappingKey where
  | literal (name : String)
  | wildcard
  | array (dataset : String)
  deriving DecidableEq, Repr

/-- The text between two characters that the whole starts and ends with. -/
def enclosed? (first last : Char) : List Char → Option (List Char)
  | c :: cs => if c = first ∧ cs.getLast? = some last then some cs.dropLast else none
  | [] => none

/-- What a written key is. Blanks around the name of a dataset do not belong to it. -/
def MappingKey.classify (key : String) : MappingKey :=
  if key = "*" ∨ (enclosed? '<' '>' key.toList).isSome then .wildcard
  else match enclosed? '[' ']' key.toList with
    | some dataset => .array (String.ofList (trim dataset))
    | none => .literal key

/-- A path with one more key. -/
def joinPath (path key : String) : String := if path.isEmpty then key else path ++ "." ++ key

/-- The mapping with a node under a written key. -/
def Mapping.add {α : Type} (path key : String) (node : α) (m : Mapping α) :
    Except SchemaError (Mapping α) :=
  match MappingKey.classify key with
  | .literal name => .ok { m with literals := m.literals ++ [(name, node)] }
  | .wildcard =>
    if m.wildcard.isSome then .error (.duplicateWildcard path)
    else .ok { m with wildcard := some node }
  | .array dataset =>
    if dataset.isEmpty then .error (.missingArrayDataset path)
    else if m.arrayKey.isSome then .error (.duplicateArrayKey path)
    else .ok { m with arrayKey := some (dataset, node) }

/-! ## Compilation -/

mutual

/-- The node at `path`; `definitions` are the names that it may refer to. -/
def compileNode (definitions : List String) (path : String) (v : Json) :
    Except LoadError SchemaNode :=
  match _h : NodeSource.ofJson? v with
  | none => .error .malformed
  | some source =>
    match compileEntries definitions path 0 source.entries with
    | .error e => .error e
    | .ok entries =>
      match source.reference with
      | some name =>
        if definitions.contains name then .ok (source.node entries (.deferred name))
        else .error (.schema (.undefinedReference path name))
      | none =>
        match _hk : source.keys with
        | none => .ok (source.node entries .none)
        | some keys =>
          match compileMapping definitions path .empty keys with
          | .error e => .error e
          | .ok mapping => .ok (source.node entries (.inline mapping))
termination_by v.size
decreasing_by
  · exact NodeSource.sizeItems_entries_lt _h
  · exact NodeSource.sizeFields_keys_lt _h _hk

/-- The entries of the node at `path` from number `index` on. -/
def compileEntries (definitions : List String) (path : String) (index : Nat) (items : List Json) :
    Except LoadError (List SchemaNode) :=
  match items with
  | [] => .ok []
  | v :: rest =>
    match compileNode definitions (path ++ "[" ++ toString index ++ "]") v with
    | .error e => .error e
    | .ok entry =>
      match compileEntries definitions path (index + 1) rest with
      | .error e => .error e
      | .ok entries => .ok (entry :: entries)
termination_by Json.sizeItems items
decreasing_by
  · simp only [Json.sizeItems]; omega
  · simp only [Json.sizeItems]; omega

/-- The mapping at `path`: `mapping` with the given fields added. -/
def compileMapping (definitions : List String) (path : String) (mapping : Mapping SchemaNode)
    (fields : List (String × Json)) : Except LoadError (Mapping SchemaNode) :=
  match fields with
  | [] => .ok mapping
  | (key, v) :: rest =>
    match compileNode definitions (joinPath path key) v with
    | .error e => .error e
    | .ok node =>
      match mapping.add (joinPath path key) key node with
      | .error e => .error (.schema e)
      | .ok mapping => compileMapping definitions path mapping rest
termination_by Json.sizeFields fields
decreasing_by
  · simp only [Json.sizeFields]; omega
  · simp only [Json.sizeFields]; omega

end

/-- A schema document as it is written. -/
structure SchemaSource where
  definitions : List (String × Json)
  categories : List (String × Json)

/-- A schema document as it is written. -/
def SchemaSource.ofJson? (v : Json) : Option SchemaSource := do
  let fields ← v.record? ["definitions", "categories"]
  let definitions ← Json.orElse? Json.members? [] "definitions" fields
  let categories ← Json.orElse? Json.members? [] "categories" fields
  return { definitions, categories }

/-- The mapping of each definition, still in JSON. -/
def definitionFields :
    List (String × Json) → Except LoadError (List (String × List (String × Json)))
  | [] => .ok []
  | (name, v) :: rest => do
    let fields ← orMalformed v.members?
    let others ← definitionFields rest
    return (name, fields) :: others

/-- The definitions, compiled. Which of several defective ones is reported is unspecified; here it
is the first of the list. -/
def compileDefinitions (names : List String) :
    List (String × List (String × Json)) → Except LoadError (List (String × Mapping SchemaNode))
  | [] => .ok []
  | (name, fields) :: rest => do
    let mapping ← compileMapping names name .empty fields
    let others ← compileDefinitions names rest
    return (name, mapping) :: others

/-- The categories, compiled. -/
def compileCategories (definitions : List (String × Mapping SchemaNode)) :
    List (String × Json) → Except LoadError (List (String × Schema))
  | [] => .ok []
  | (category, v) :: rest => do
    let fields ← orMalformed v.members?
    let root ← compileMapping (definitions.map Prod.fst) category .empty fields
    let others ← compileCategories definitions rest
    return (category, { root, definitions }) :: others

/-- The schema of each category of a document, in order. -/
def compileSchemas (v : Json) : Except LoadError (List (String × Schema)) := do
  let source ← orMalformed (SchemaSource.ofJson? v)
  let fields ← definitionFields source.definitions
  let definitions ← compileDefinitions (fields.map Prod.fst) fields
  compileCategories definitions source.categories

end SkillScript
