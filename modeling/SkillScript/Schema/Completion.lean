import SkillScript.Key.Ancestors
import SkillScript.Schema.Locate
import SkillScript.Schema.Values

/-!
# Completion of keys and values

Behind `Key:` the values of the key are offered, behind the dash of a list item those of the
enclosing list, and on any other line without a colon the keys of the block that the line's
indentation puts it in, but for those that the block has already.
-/

namespace SkillScript

/-- A key to offer. The menu opens again behind a key that has values to offer. -/
def keyCandidate (key : String) (node : SchemaNode) : Candidate where
  label := key
  insertText := key ++ ": "
  kind := .key
  detail := some node.kind.name
  documentation := node.description
  snippet := false
  retrigger := node.kind == .enum || node.kind == .boolean || !node.values.isEmpty

/-- `key` is among `existing`, but for the case of ASCII letters. -/
def isWritten (existing : List String) (key : String) : Bool := existing.any (sameAscii · key)

/-- The keys of a mapping that are not written yet: the literal keys, then the members of the array
key's dataset. -/
def Mapping.keyCandidates (datasets : Datasets) (existing : List String) (m : Mapping SchemaNode) :
    List Candidate :=
  let literals := m.literals.filter fun l => !isWritten existing l.1
  let members := match m.arrayKey with
    | none => []
    | some (name, node) =>
      match datasets.find? name with
      | none => []
      | some dataset =>
        (dataset.keys.filter fun key => !isWritten existing key).map (keyCandidate · node)
  literals.map (fun l => keyCandidate l.1 l.2) ++ members

namespace Document

/-- The keys of the block of `parent`, or of the document, but for the key of line `skipped`. A
block ends at the first key that is not indented more than its parent. -/
def blockKeys (d : Document) (parent : Option Key) (skipped : Nat) : List Key :=
  let start := match parent with
    | some key => key.line + 1
    | none => 0
  let keys := ((d.lines.drop start).zipIdx start).filterMap fun l => Key.parse? l.1 l.2
  let block := keys.takeWhile fun key => parent.all fun p => decide (p.indent < key.indent)
  block.filter fun key => key.line != skipped

/-- The names of the least indented keys of the block of `parent`, but for line `skipped`. -/
def siblingKeys (d : Document) (parent : Option Key) (skipped : Nat) : List String :=
  let block := d.blockKeys parent skipped
  match (block.map Key.indent).min? with
  | none => []
  | some indent => (block.filter (·.indent == indent)).map Key.name

end Document

namespace Schema

/-- The values of the node that a path leads to, of which `typed` is there already. -/
def completeValue (s : Schema) (datasets : Datasets) (settings : Settings) (path : List String)
    (typed : List Char) : List Candidate :=
  match s.locate? datasets path with
  | some found => found.node.candidates datasets settings typed
  | none => []

/-- The keys to offer on line `n`, when `indent` characters of indentation are before the cursor. -/
def completeKey (s : Schema) (datasets : Datasets) (d : Document) (n indent : Nat) :
    List Candidate :=
  let ancestors := d.ancestorsAt n indent
  match s.mappingAt? datasets (ancestors.reverse.map Key.name) with
  | some mapping => mapping.keyCandidates datasets (d.siblingKeys ancestors.head? n)
  | none => []

/-- The candidates at a position of a document. -/
def complete (s : Schema) (datasets : Datasets) (settings : Settings) (d : Document)
    (p : Position) : List Candidate :=
  match d.linePrefix? p with
  | none => []
  | some typed =>
    let path := d.keyPath p.line
    match KeyLine.parse? typed with
    | some key => s.completeValue datasets settings (path ++ [key.name]) (trimStart key.value)
    | none =>
      match trimStart typed with
      | '-' :: item => s.completeValue datasets settings path (trimStart item)
      | rest =>
        if rest.contains ':' then [] else s.completeKey datasets d p.line (indentation typed)

end Schema

end SkillScript
