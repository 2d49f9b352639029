import UtilityCss.Catalog.Basic
import UtilityCss.Catalog.Box
import UtilityCss.Catalog.Layout
import UtilityCss.Catalog.Motion
import UtilityCss.Catalog.Plugins
import UtilityCss.Catalog.Surface
import UtilityCss.Catalog.Typography
import UtilityCss.Catalog.Variants
import UtilityCss.Catalog.Verbatim
import UtilityCss.CommandLine.Arguments
import UtilityCss.CommandLine.Commands
import UtilityCss.CommandLine.Program
import UtilityCss.Css.Declaration
import UtilityCss.Css.Rendering
import UtilityCss.Css.Result
import UtilityCss.Css.Selector
import UtilityCss.Css.Stylesheet
import UtilityCss.Css.Value
import UtilityCss.Engine.Basic
import UtilityCss.Engine.Config
import UtilityCss.Error
import UtilityCss.Group.Expansion
import UtilityCss.Group.Lexeme
import UtilityCss.Lint.Brackets
import UtilityCss.Lint.Check
import UtilityCss.Lint.Diagnostic
import UtilityCss.Main
import UtilityCss.Migration.Category
import UtilityCss.Migration.Defaults
import UtilityCss.Migration.Mapping
import UtilityCss.Migration.Verdict
import UtilityCss.Number.Binary64
import UtilityCss.Number.Rounding
import UtilityCss.Number.Significant
import UtilityCss.Pattern.Basic
import UtilityCss.Pattern.Cache
import UtilityCss.Pattern.Match
import UtilityCss.Pattern.Reader
import UtilityCss.Pattern.Template
import UtilityCss.Proofs.AssembledNames
import UtilityCss.Proofs.BodyParts
import UtilityCss.Proofs.BodyTotality
import UtilityCss.Proofs.CacheOwnership
import UtilityCss.Proofs.EngineHistory
import UtilityCss.Proofs.GroupExpansion
import UtilityCss.Proofs.GroupMeaning
import UtilityCss.Proofs.GroupSyntax
import UtilityCss.Proofs.HistoryIndependence
import UtilityCss.Proofs.LintAnswers
import UtilityCss.Proofs.LintSoundness
import UtilityCss.Proofs.OrderedTables
import UtilityCss.Proofs.PatternSemantics
import UtilityCss.Proofs.RuleNames
import UtilityCss.Proofs.Settled
import UtilityCss.Proofs.SharedLookups
import UtilityCss.Proofs.StableSorting
import UtilityCss.Proofs.StylesheetStructure
import UtilityCss.Proofs.TextSplitting
import UtilityCss.Proofs.TokenReading
import UtilityCss.Proofs.TokenRoundTrip
import UtilityCss.Registry.Basic
import UtilityCss.Registry.Plugin
import UtilityCss.Registry.Recipe
import UtilityCss.Registry.Rule
import UtilityCss.Registry.Variant
import UtilityCss.Resolution
import UtilityCss.Sorting
import UtilityCss.Table
import UtilityCss.Text.Basic
import UtilityCss.Text.Blank
import UtilityCss.Text.Brackets
import UtilityCss.Text.Case
import UtilityCss.Text.Digit
import UtilityCss.Text.Letter
import UtilityCss.Text.Quoted
import UtilityCss.Theme.Default
import UtilityCss.Theme.Lookup
import UtilityCss.Theme.Value
import UtilityCss.Token.Assembly
import UtilityCss.Token.Basic
import UtilityCss.Token.Payload
import UtilityCss.Token.Reader
import UtilityCss.Proofs.LiteralPatterns
import UtilityCss.Proofs.NumberFaults
import UtilityCss.Proofs.CatalogComputations
import UtilityCss.Proofs.CatalogFaults
import UtilityCss.Proofs.CatalogRules
import UtilityCss.Proofs.CatalogInstallation
import UtilityCss.Proofs.ReadingFaults
import UtilityCss.Proofs.EngineFaults
import UtilityCss.Proofs.SelectorEscaping
import UtilityCss.Proofs.ThemeMerging
import UtilityCss.Proofs.ThemeOverrides
import UtilityCss.Proofs.BlockOrder
import UtilityCss.Proofs.ConflictOrder
import UtilityCss.Proofs.StandardStyling
import UtilityCss.Proofs.BracketPatterns
import UtilityCss.Proofs.BracketValues
import UtilityCss.Proofs.BracketComputations
import UtilityCss.Proofs.BracketRules
import UtilityCss.Proofs.PayloadExtraction
import UtilityCss.Proofs.MalformedBrackets
import UtilityCss.Proofs.NameParts
import UtilityCss.Proofs.JoinedTexts
import UtilityCss.Proofs.RegistryLog
import UtilityCss.Proofs.ValueChanges
import UtilityCss.Proofs.RepeatedResults
import UtilityCss.Proofs.KeptDeclarations
import UtilityCss.Proofs.CacheAccounting
import UtilityCss.Proofs.LetterCase
import UtilityCss.Proofs.AlphaChannels
import UtilityCss.Proofs.FailedAdditions
import UtilityCss.Proofs.BracketKinds
import UtilityCss.Proofs.Contributions
import UtilityCss.Proofs.SurfaceBrackets
import UtilityCss.Proofs.PatternSearch
import UtilityCss.Proofs.MappingVerdicts
import UtilityCss.Proofs.DefaultMappings
import UtilityCss.Proofs.MigrationReports
import UtilityCss.Proofs.ClosingBracket
import UtilityCss.Proofs.EscapedValues
import UtilityCss.Proofs.TemplateFilling
