import SkillScript.CommandLine.Help
import SkillScript.Json.Writer
import SkillScript.Reference.Context
import SkillScript.Report

/-!
# The command line

One invocation answers one query about a position of one file. Options take their value from the
next argument or after an equals sign, no option may be given twice, and there are no positional
arguments. Bad arguments end with exit code 2, and a query that cannot be answered with exit code 1.
-/

namespace SkillScript

/-- The options that were given. -/
structure Options where
  bundle : Option String := none
  file : Option String := none
  line : Option Nat := none
  character : Option Nat := none
  mode : Option Mode := none
  category : Option String := none
  logLevel : Option String := none
  /-- Answer with the items of an editor's menu. -/
  menu : Bool := false
  noColor : Bool := false
  logFile : Bool := false
  deriving DecidableEq, Repr

/-- A complete query. -/
structure Query where
  bundle : Option String
  file : String
  position : Position
  mode : Mode
  category : Option String
  menu : Bool
  deriving DecidableEq, Repr

/-- What an invocation asks for. -/
inductive Invocation where
  | version
  /-- The help with one line for each option. -/
  | summary
  /-- The help with one paragraph for each option. -/
  | help
  | query (q : Query)
  deriving DecidableEq, Repr

/-- What an invocation ends with. -/
structure Outcome where
  exitCode : Nat
  output : String
  deriving DecidableEq, Repr

namespace Options

/-- `field` given the value that `read` finds, unless it has one. -/
def once {α : Type} (field : Option α) (read : String → Option α) (value : String) :
    Option (Option α) :=
  if field.isSome then none else (read value).map some

/-- A path that is not empty. -/
def path? (s : String) : Option String := if s.isEmpty then none else some s

/-- A number of 32 bits; a sign is allowed. -/
def number? (s : String) : Option Nat :=
  (int64? s.toList).bind fun n => if 0 ≤ n ∧ n < 4294967296 then some n.toNat else none

/-- The names of the options that take a value. -/
def valueNames : List String :=
  ["--bundle", "--file", "--line", "--character", "--mode", "--category", "--log-level"]

/-- The options with a value for the option `name`. -/
def setValue? (o : Options) (name value : String) : Option Options :=
  match name with
  | "--bundle" => (once o.bundle path? value).map fun bundle => { o with bundle }
  | "--file" => (once o.file path? value).map fun file => { o with file }
  | "--line" => (once o.line number? value).map fun line => { o with line }
  | "--character" => (once o.character number? value).map fun character => { o with character }
  | "--mode" => (once o.mode Mode.ofName? value).map fun mode => { o with mode }
  | "--category" => (once o.category some value).map fun category => { o with category }
  | "--log-level" => (once o.logLevel some value).map fun logLevel => { o with logLevel }
  | _ => none

/-- The options with the switch `name` on. -/
def setSwitch? (o : Options) (name : String) : Option Options :=
  match name with
  | "--lsp" => if o.menu then none else some { o with menu := true }
  | "--no-color" => if o.noColor then none else some { o with noColor := true }
  | "--log-file" => if o.logFile then none else some { o with logFile := true }
  | _ => none

/-- The query that the options make, when the required ones are there. -/
def query? (o : Options) : Option Query := do
  let file ← o.file
  let line ← o.line
  let character ← o.character
  return {
    bundle := o.bundle
    file
    position := ⟨line, character⟩
    mode := o.mode.getD .owner
    category := o.category
    menu := o.menu }

/-- The argument is an option and cannot be the value of one. A lone dash can. -/
def isOption (arg : String) : Bool :=
  match arg.toList with
  | '-' :: _ :: _ => true
  | _ => false

/-- The name and the value of an argument `--name=value`. -/
def splitEquals (arg : String) : String × Option String :=
  let cs := arg.toList
  let name := String.ofList (cs.takeWhile (· != '='))
  match cs.dropWhile (· != '=') with
  | _ :: value => (name, some (String.ofList value))
  | [] => (name, none)

/-- What the arguments ask for, after the options read so far. The option `pending` waits for its
value. -/
def parse? (o : Options) (pending : Option String) : List String → Option Invocation
  | [] => if pending.isSome then none else o.query?.map .query
  | arg :: rest =>
    match pending with
    | some name =>
      if isOption arg then none
      else (o.setValue? name arg).bind fun o => parse? o none rest
    | none =>
      if arg = "--" then if rest.isEmpty then o.query?.map .query else none
      else if arg = "--version" ∨ ['-', 'V'].isPrefixOf arg.toList then some .version
      else if arg = "--help" then some .help
      else if ['-', 'h'].isPrefixOf arg.toList then some .summary
      else match splitEquals arg with
        | (name, some value) => (o.setValue? name value).bind fun o => parse? o none rest
        | (name, none) =>
          if valueNames.contains name then parse? o (some name) rest
          else (o.setSwitch? name).bind fun o => parse? o none rest

end Options

namespace Query

/-- The files that a query reads. -/
def paths (q : Query) : List String := q.bundle.toList ++ [q.file]

/-- The answer to a query in a context. -/
def answer? (q : Query) (c : Context) (d : Document) : Option Json :=
  let p := q.position
  match q.mode with
  | .owner => some (c.owner d p).toJson
  | .category => some (.ofOption ((c.objectCategory? d p).map Category.name))
  | .keys => some (.arr ((d.keyPath p.line).map .str))
  | .schema => q.category.map fun category => candidatesJson q.menu (c.completeSchema d p category)
  | .placeholder => some (candidatesJson q.menu (c.completePlaceholder d p))
  | .attributes => some (candidatesJson q.menu (c.completeAttributes d p))

/-- The bundle of a query. -/
def bundle? (read : String → Option String) (q : Query) : Option Bundle :=
  match q.bundle with
  | none => some .empty
  | some path => (read path).bind fun text => (Bundle.parse text).toOption

/-- The answer to a query, where `read` gives the text of a file that can be read. -/
def run? (read : String → Option String) (q : Query) : Option Json := do
  let bundle ← q.bundle? read
  let context ← (Context.build bundle).toOption
  let text ← read q.file
  q.answer? context (Document.ofText .unicode text.toList)

end Query

/-- The name and version of the program. -/
def versionText : String := "mythic-analyzer 0.1.0\n"

/-- What an invocation ends with, where `read` gives the text of a file that can be read. -/
def Invocation.run (read : String → Option String) : Invocation → Outcome
  | version => ⟨0, versionText⟩
  | summary => ⟨0, helpSummary⟩
  | help => ⟨0, helpText⟩
  | query q =>
    match q.run? read with
    | some answer => ⟨0, answer.pretty ++ "\n"⟩
    | none => ⟨1, ""⟩

/-- What the program ends with on the given arguments. -/
def runCommandLine (read : String → Option String) (args : List String) : Outcome :=
  match Options.parse? {} none args with
  | some invocation => invocation.run read
  | none => ⟨2, ""⟩

end SkillScript
