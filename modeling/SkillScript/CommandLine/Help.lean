import SkillScript.CommandLine.Mode

/-!
# The help

The options are described by one table, which is shown in two ways: `helpSummary` gives each option
one line, and `helpText` gives it a paragraph, with all that is known about its values.
-/

namespace SkillScript

/-- The description of an option. -/
structure OptionHelp where
  /-- How the option is written, with the name of its value. -/
  form : String
  /-- What the summary says, on one line. -/
  summary : String
  /-- The lines of the paragraph. -/
  details : List String
  deriving DecidableEq, Repr

namespace OptionHelp

/-- A long option that both ways describe alike. -/
def long (form text : String) : OptionHelp := ⟨"      --" ++ form, text, [text]⟩

/-- The text with spaces after it up to a width. -/
def padded (width : Nat) (text : String) : String :=
  text ++ String.ofList (List.replicate (width - text.length) ' ')

/-- The modes have a line of their own each, which starts with the name. -/
def mode : OptionHelp where
  form := "      --mode <MODE>"
  summary :=
    "[default: owner] [possible values: " ++ ", ".intercalate (Mode.all.map Mode.name) ++ "]"
  details :=
    ["Possible values:"] ++ Mode.all.map (fun m => "- " ++ padded 13 (m.name ++ ":") ++ m.about) ++
      ["", "[default: owner]"]

/-- The options in the order of the help. -/
def all : List OptionHelp := [
  long "bundle <BUNDLE>" "Reference-data bundle (JSON)",
  long "file <FILE>" "Document to analyse",
  long "line <LINE>" "Zero-based cursor line",
  long "character <CHARACTER>" "Zero-based cursor character",
  mode,
  long "category <CATEGORY>"
    "File category for schema completion (Mob, Item, Skill, Achievement, ...)",
  long "lsp" "Emit LSP completion items instead of raw candidates",
  long "log-level <LOG_LEVEL>" "Log level for stderr (overrides RUST_LOG)",
  long "no-color" "",
  long "log-file" "Also write a debug session log to the user cache directory",
  ⟨"  -h, --help", "Print help (see more with '--help')",
    ["Print help (see a summary with '-h')"]⟩,
  ⟨"  -V, --version", "Print version", ["Print version"]⟩]

/-- The line of the summary. All texts start in one column. -/
def line (o : OptionHelp) : String := padded 31 o.form ++ o.summary ++ "\n"

/-- The paragraph of the full help. -/
def paragraph (o : OptionHelp) : String :=
  o.form ++ "\n" ++ String.join (o.details.map fun text => "          " ++ text ++ "\n")

end OptionHelp

/-- What stands before the options. -/
def helpIntroduction : String :=
  "Resolve cursor context and completions in MythicMobs YAML files\n\n" ++
  "Usage: mythic-analyzer [OPTIONS] --file <FILE> --line <LINE> --character <CHARACTER>\n\n" ++
  "Options:\n"

/-- The help with one line for each option. -/
def helpSummary : String := helpIntroduction ++ String.join (OptionHelp.all.map OptionHelp.line)

/-- The help with one paragraph for each option. -/
def helpText : String :=
  helpIntroduction ++ "\n".intercalate (OptionHelp.all.map OptionHelp.paragraph)

end SkillScript
