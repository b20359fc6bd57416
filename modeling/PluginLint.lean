import PluginLint.Text.Blank
import PluginLint.Text.Lines
import PluginLint.Text.WordChar
import PluginLint.Text.LetterCase
import PluginLint.Number.Natural
import PluginLint.FileTree.Listing
import PluginLint.FileTree.Edit
import PluginLint.Json.Printer
import PluginLint.Json.Parser
import PluginLint.Toml.Reader
import PluginLint.Document.Fields
import PluginLint.Document.Prose
import PluginLint.Plugin.Manifest
import PluginLint.Budget.Skill
import PluginLint.Settings.Layers
import PluginLint.LintError
import PluginLint.Check.Engine
import PluginLint.Command.Run
import PluginLint.Main
import PluginLint.Proofs.Document.BodyLines
import PluginLint.Proofs.Document.HeaderBlocks
import PluginLint.Proofs.Report.Verbosity
import PluginLint.Proofs.Report.ExitCode
import PluginLint.Proofs.Failure
import PluginLint.Proofs.Settings.Layers
import PluginLint.Proofs.Command.CriticalSkill
import PluginLint.Proofs.Check.Shell
import PluginLint.Proofs.Text.TrimmedLines
import PluginLint.Proofs.Document.ProseLines
import PluginLint.Proofs.Report.Selection
import PluginLint.Proofs.Document.WrittenHeader
import PluginLint.Proofs.Document.ClosingDelimiter
import PluginLint.Proofs.FileTree.Listing
import PluginLint.Proofs.Command.SkillDirectories
import PluginLint.Proofs.Check.Structure
import PluginLint.Proofs.Check.Isolation
import PluginLint.Proofs.Text.LineEnds
import PluginLint.Proofs.Check.LineEnds
import PluginLint.Proofs.Plugin.Labels
import PluginLint.Proofs.Check.NumberedLines
import PluginLint.Proofs.Check.Messages
import PluginLint.Proofs.Check.LinePointers
import PluginLint.Proofs.FileTree.Order
import PluginLint.Proofs.Budget.References
import PluginLint.Proofs.Report.Complaints
import PluginLint.Proofs.Check.ReferenceVolume
import PluginLint.Proofs.Check.Registration
import PluginLint.Proofs.Report.Steps
import PluginLint.Proofs.Output.Validation
import PluginLint.Proofs.Report.Figures
import PluginLint.Proofs.Check.BudgetNotes
import PluginLint.Proofs.Command.SkillBySkill
import PluginLint.Proofs.Check.BodyBands
import PluginLint.Proofs.Check.Growth
import PluginLint.Proofs.FileTree.Walks
import PluginLint.Proofs.FileTree.Spelling
import PluginLint.Proofs.Budget.Accounting
import PluginLint.Proofs.Budget.CountedOnce
import PluginLint.Proofs.Document.FoldedValues
import PluginLint.Proofs.Check.Forms
import PluginLint.Proofs.Check.RuleBooks
import PluginLint.Proofs.Check.HeaderRules
import PluginLint.Proofs.Check.ManifestTable
import PluginLint.Proofs.Check.ManifestRules
import PluginLint.Proofs.FileTree.Rewriting
import PluginLint.Proofs.Report.Requirements
import PluginLint.Proofs.Check.ManifestChange
import PluginLint.Proofs.Check.SuggestedFix
import PluginLint.Proofs.Check.FieldIssues
import PluginLint.Proofs.Document.QuotedValues
import PluginLint.Proofs.Check.HeaderTabs
import PluginLint.Proofs.Text.LetterCase
import PluginLint.Proofs.Check.PhraseParts
import PluginLint.Proofs.Check.ToolReferences
import PluginLint.Proofs.Check.AgentNames
import PluginLint.Proofs.Check.ScriptPaths
import PluginLint.Proofs.Json.Strings
import PluginLint.Proofs.Json.Numbers
import PluginLint.Proofs.Json.Reading
import PluginLint.Proofs.Json.RoundTrip
import PluginLint.Proofs.Plugin.ShownValues
import PluginLint.Proofs.Check.KeyLines
import PluginLint.Proofs.Document.FencedBlocks
import PluginLint.Proofs.Output.Budgets
import PluginLint.Proofs.Report.SelectionText
import PluginLint.Proofs.Check.UnreadableFiles
import PluginLint.Proofs.Plugin.Discovery
import PluginLint.Proofs.Check.KebabNames
