import DialectBridge.Checklist
import DialectBridge.CommandLine.Arguments
import DialectBridge.CommandLine.Help
import DialectBridge.CommandLine.Log
import DialectBridge.CommandLine.Request
import DialectBridge.CommandLine.Run
import DialectBridge.Config.Basic
import DialectBridge.Config.Cascade
import DialectBridge.Config.Settings
import DialectBridge.Config.Template
import DialectBridge.Converter
import DialectBridge.CustomRule
import DialectBridge.Detection
import DialectBridge.Entity
import DialectBridge.Error
import DialectBridge.File.Path
import DialectBridge.File.System
import DialectBridge.File.Tree
import DialectBridge.Format.ConvertStyle
import DialectBridge.Format.DataType
import DialectBridge.Format.DateMask
import DialectBridge.Format.NumberMask
import DialectBridge.Main
import DialectBridge.Pattern.Basic
import DialectBridge.Pattern.CharSet
import DialectBridge.Pattern.Replacement
import DialectBridge.Pattern.Search
import DialectBridge.Proofs.ArgumentSplitting
import DialectBridge.Proofs.BlockCuts
import DialectBridge.Proofs.Blocks
import DialectBridge.Proofs.BracketedNames
import DialectBridge.Proofs.CallComments
import DialectBridge.Proofs.CallRounds
import DialectBridge.Proofs.CallRules
import DialectBridge.Proofs.CallSeams
import DialectBridge.Proofs.CallVisits
import DialectBridge.Proofs.Captures
import DialectBridge.Proofs.CodeMatches
import DialectBridge.Proofs.CommentLosses
import DialectBridge.Proofs.CommentOrigins
import DialectBridge.Proofs.Commentless
import DialectBridge.Proofs.ConfigSearch
import DialectBridge.Proofs.DateMasks
import DialectBridge.Proofs.DualCompletion
import DialectBridge.Proofs.EditedCalls
import DialectBridge.Proofs.EntityEncoding
import DialectBridge.Proofs.EscapedDelimiters
import DialectBridge.Proofs.Expressions
import DialectBridge.Proofs.Finding
import DialectBridge.Proofs.FromInsertion
import DialectBridge.Proofs.LetterPatterns
import DialectBridge.Proofs.Lexer
import DialectBridge.Proofs.Lexing
import DialectBridge.Proofs.LimitCount
import DialectBridge.Proofs.ListConversion
import DialectBridge.Proofs.ListRowLimit
import DialectBridge.Proofs.ListaggParts
import DialectBridge.Proofs.LiteralContents
import DialectBridge.Proofs.Logs
import DialectBridge.Proofs.MaskSegments
import DialectBridge.Proofs.MaskedTokens
import DialectBridge.Proofs.Masking
import DialectBridge.Proofs.Matching
import DialectBridge.Proofs.MissingSigns
import DialectBridge.Proofs.NamesConversion
import DialectBridge.Proofs.NestedCalls
import DialectBridge.Proofs.NumberMasks
import DialectBridge.Proofs.Offsets
import DialectBridge.Proofs.OracleRemains
import DialectBridge.Proofs.Phrases
import DialectBridge.Proofs.QueryHeads
import DialectBridge.Proofs.QuotedFormats
import DialectBridge.Proofs.RefusedCharacters
import DialectBridge.Proofs.RegexRuns
import DialectBridge.Proofs.RegexpMarkers
import DialectBridge.Proofs.RenamedCalls
import DialectBridge.Proofs.Replacing
import DialectBridge.Proofs.RoundTrip
import DialectBridge.Proofs.RowFilter
import DialectBridge.Proofs.RowLimitPasses
import DialectBridge.Proofs.RowLimitRoundTrip
import DialectBridge.Proofs.RowValues
import DialectBridge.Proofs.RownumConditions
import DialectBridge.Proofs.RuleWarnings
import DialectBridge.Proofs.SaneRules
import DialectBridge.Proofs.SaneWords
import DialectBridge.Proofs.Scopes
import DialectBridge.Proofs.SegmentEdits
import DialectBridge.Proofs.SettingsMerge
import DialectBridge.Proofs.SkeletonMarks
import DialectBridge.Proofs.SkeletonReport
import DialectBridge.Proofs.SkeletonRules
import DialectBridge.Proofs.SkeletonWords
import DialectBridge.Proofs.StepMeasures
import DialectBridge.Proofs.StringPluses
import DialectBridge.Proofs.SubstitutionSyntax
import DialectBridge.Proofs.Surroundings
import DialectBridge.Proofs.TermEdits
import DialectBridge.Proofs.Terms
import DialectBridge.Proofs.TidyQueries
import DialectBridge.Proofs.Tokens
import DialectBridge.Proofs.TopLimit
import DialectBridge.Proofs.Totality
import DialectBridge.Proofs.TypeNames
import DialectBridge.Proofs.Vocabulary
import DialectBridge.Regex
import DialectBridge.Regex.Bracket
import DialectBridge.Regex.Class
import DialectBridge.Regex.Escape
import DialectBridge.Regex.Expr
import DialectBridge.Regex.Group
import DialectBridge.Regex.Property
import DialectBridge.Regex.Reading
import DialectBridge.Sql.Call
import DialectBridge.Sql.Edit
import DialectBridge.Sql.Mask
import DialectBridge.Sql.Paren
import DialectBridge.Sql.Segment
import DialectBridge.Substitution
import DialectBridge.Text.Basic
import DialectBridge.Text.Number
import DialectBridge.Text.Search
import DialectBridge.ToOracle
import DialectBridge.ToOracle.Calls
import DialectBridge.ToOracle.Clauses
import DialectBridge.ToOracle.RowLimit
import DialectBridge.ToOracle.Words
import DialectBridge.ToTsql
import DialectBridge.ToTsql.Aggregates
import DialectBridge.ToTsql.Calls
import DialectBridge.ToTsql.RowLimit
import DialectBridge.ToTsql.Words
import DialectBridge.Toml.DateTime
import DialectBridge.Toml.Number
import DialectBridge.Toml.Quoted
import DialectBridge.Toml.Reader
import DialectBridge.Toml.Value
import DialectBridge.Unicode.Blank
import DialectBridge.Unicode.Category
import DialectBridge.Unicode.Digit
import DialectBridge.Unicode.Fold
import DialectBridge.Unicode.Letter
import DialectBridge.Unicode.Property
import DialectBridge.Unicode.Ranges
import DialectBridge.Unicode.Script
import DialectBridge.Unicode.Word
import DialectBridge.Warning
