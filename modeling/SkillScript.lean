import SkillScript.Text.Case
import SkillScript.Text.Quoted
import SkillScript.Line.SkillLine
import SkillScript.Line.Word
import SkillScript.Line.Expression
import SkillScript.Key.Excerpt
import SkillScript.Json.Reader
import SkillScript.Json.Writer
import SkillScript.Json.Record
import SkillScript.Dataset
import SkillScript.Candidate.Basic
import SkillScript.Candidate.Snippet
import SkillScript.Cursor.Target
import SkillScript.Placeholder.Keyword
import SkillScript.Placeholder.Completion
import SkillScript.Schema.Completion
import SkillScript.Schema.BuiltIn
import SkillScript.Schema.Source
import SkillScript.Reference.Session
import SkillScript.Folder
import SkillScript.CommandLine
import SkillScript.Main
import SkillScript.Proofs.Placeholder.Chains
import SkillScript.Proofs.Line.Enclosing
import SkillScript.Proofs.Cursor.Nesting
import SkillScript.Proofs.Cursor.Agreement
import SkillScript.Proofs.Cursor.Locality
import SkillScript.Placeholder.Indexed
import SkillScript.Proofs.Placeholder.InStep
import SkillScript.Proofs.Placeholder.MergeLaws
import SkillScript.Proofs.Schema.Written
import SkillScript.Proofs.Key.Chain
import SkillScript.Proofs.Key.Grammar
import SkillScript.Proofs.Key.Editing
import SkillScript.Proofs.Schema.Walk
import SkillScript.Proofs.Schema.Offers
import SkillScript.Proofs.Schema.Typing
import SkillScript.Proofs.Schema.Siblings
import SkillScript.Proofs.Line.Tokens
import SkillScript.Proofs.Schema.Slots
import SkillScript.Proofs.Schema.Ranges
import SkillScript.Proofs.Schema.Snippets
import SkillScript.Proofs.Line.Stripping
import SkillScript.Proofs.Line.Words
import SkillScript.Proofs.Line.Names
import SkillScript.Proofs.Cursor.Arguments
import SkillScript.Proofs.Cursor.Hover
import SkillScript.Proofs.Cursor.Excerpts
import SkillScript.Proofs.Cursor.Slices
import SkillScript.Proofs.Line.Spacing
import SkillScript.Proofs.Line.Parts
import SkillScript.Proofs.Line.Rendering
import SkillScript.Proofs.Placeholder.Accepting
import SkillScript.Proofs.Placeholder.Elementless
import SkillScript.Proofs.Cursor.LineBreaks
import SkillScript.Proofs.Schema.Acceptance
import SkillScript.Proofs.Candidate.MenuOrder
import SkillScript.Proofs.Line.Partition
import SkillScript.Proofs.Cursor.NamedArgument
import SkillScript.Proofs.Placeholder.Resolution
import SkillScript.Proofs.Object.Ownership
import SkillScript.Proofs.Placeholder.IndexedBuild
