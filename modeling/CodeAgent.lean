import CodeAgent.Text.CharRange
import CodeAgent.Text.Blank
import CodeAgent.Text.WordChar
import CodeAgent.Text.LetterCase
import CodeAgent.Text.Printable
import CodeAgent.Text.Identifier
import CodeAgent.Text.Line
import CodeAgent.Text.Utf8
import CodeAgent.Text.Search
import CodeAgent.Decimal.Digits
import CodeAgent.Decimal.Binary
import CodeAgent.Decimal.Shortest
import CodeAgent.OrderedMap
import CodeAgent.Json.Value
import CodeAgent.Json.Reader
import CodeAgent.Json.Writer
import CodeAgent.Fault
import CodeAgent.ToolCall.Markup
import CodeAgent.ToolCall.Extractor
import CodeAgent.ToolCall.Parameters
import CodeAgent.Pattern.Match
import CodeAgent.Pattern.Reader
import CodeAgent.Pattern.Glob
import CodeAgent.Workspace.Path
import CodeAgent.Workspace.FileTree
import CodeAgent.Failure
import CodeAgent.Workspace.IgnoreRules
import CodeAgent.Workspace.Walk
import CodeAgent.Agent.ToolReport
import CodeAgent.Agent.Prompt
import CodeAgent.Agent.Conversation
import CodeAgent.Agent.Event
import CodeAgent.Agent.ReplyStream
import CodeAgent.Agent.Journal
import CodeAgent.Wire.Lines
import CodeAgent.Wire.Values
import CodeAgent.Http.Url
import CodeAgent.Json.Encoding
import CodeAgent.Http.Exchange
import CodeAgent.Backend.Kind
import CodeAgent.Backend.Basic
import CodeAgent.Deflate
import CodeAgent.Record
import CodeAgent.Symbols.Fuzzy
import CodeAgent.Symbols.Outline
import CodeAgent.Symbols.IndexData
import CodeAgent.Symbols.Snapshot
import CodeAgent.Symbols.Search
import CodeAgent.LogLevel
import CodeAgent.Config.Settings
import CodeAgent.Config.Timeouts
import CodeAgent.Workspace.Search
import CodeAgent.Todo
import CodeAgent.Symbols.Indexer
import CodeAgent.Agent.Toolbox
import CodeAgent.Agent.Turn
import CodeAgent.Symbols.SyntaxTree
import CodeAgent.Symbols.Headings
import CodeAgent.Source.Token
import CodeAgent.Source.Literal
import CodeAgent.Source.Lexer
import CodeAgent.Source.Parser
import CodeAgent.Source.Expression
import CodeAgent.Source.MatchPattern
import CodeAgent.Source.Statement
import CodeAgent.Symbols.PythonOutline
import CodeAgent.Symbols.FileOutline
import CodeAgent.Yaml.Value
import CodeAgent.Config.Overlay
import CodeAgent.Agent.Service
import CodeAgent.Console.Table
import CodeAgent.CommandLine.Run
import CodeAgent.Main
import CodeAgent.Proofs.Agent.TurnOutcome
import CodeAgent.Proofs.Wire.LineChunks
import CodeAgent.Proofs.Text.Utf8
import CodeAgent.Proofs.Wire.ValueChunks
import CodeAgent.Proofs.Json.Locality
import CodeAgent.Proofs.Wire.ValueTexts
import CodeAgent.Proofs.Backend.StreamedReply
import CodeAgent.Proofs.ToolCall.FirstOccurrences
import CodeAgent.Proofs.ToolCall.Identity
import CodeAgent.Proofs.Symbols.Rebuild
import CodeAgent.Proofs.ToolCall.InvokeText
import CodeAgent.Proofs.Agent.EventTrace
import CodeAgent.Proofs.ToolCall.ElementText
import CodeAgent.Proofs.ToolCall.MixedText
import CodeAgent.Proofs.ToolCall.VerbatimText
import CodeAgent.Proofs.Decimal.Nearest
import CodeAgent.Proofs.Json.Numerals
import CodeAgent.Proofs.Json.RoundTrip
import CodeAgent.Proofs.Json.Occurrences
import CodeAgent.Proofs.ToolCall.ObjectText
import CodeAgent.Proofs.Json.NextLine
import CodeAgent.Proofs.ToolCall.MarkupLocality
import CodeAgent.Proofs.Agent.AlikeHosts
import CodeAgent.Proofs.Agent.LoggedHost
import CodeAgent.Proofs.Agent.AbortedTurn
import CodeAgent.Proofs.Agent.SlicedResponses
import CodeAgent.Proofs.Wire.StreamParts
import CodeAgent.Proofs.Backend.StreamEnding
import CodeAgent.Proofs.Workspace.BrokenRules
import CodeAgent.Proofs.TodoDocument
import CodeAgent.Proofs.Agent.ToolFailures
import CodeAgent.Proofs.ToolCall.Findings
import CodeAgent.Proofs.ToolCall.Fragments
import CodeAgent.Proofs.ToolCall.IsolatedFragments
import CodeAgent.Proofs.Action
import CodeAgent.Proofs.Workspace.Holdings
import CodeAgent.Proofs.Workspace.FileChanges
import CodeAgent.Proofs.Agent.ToolChanges
import CodeAgent.Proofs.Symbols.PassOrder
import CodeAgent.Proofs.Json.Limits
import CodeAgent.Proofs.Symbols.SnapshotRoundTrip
import CodeAgent.Proofs.Symbols.SnapshotLoading
import CodeAgent.Proofs.Text.Lines
import CodeAgent.Proofs.Workspace.Lookup
import CodeAgent.Proofs.Agent.SearchHits
import CodeAgent.Proofs.Agent.ReadBackHits
import CodeAgent.Proofs.Json.IndentedText
import CodeAgent.Proofs.Agent.TodoHistory
import CodeAgent.Proofs.Workspace.WalkBelow
import CodeAgent.Proofs.Agent.SearchBelow
import CodeAgent.Proofs.Agent.SearchedWorkspace
import CodeAgent.Proofs.Symbols.BestPlacement
import CodeAgent.Proofs.Workspace.WalkListing
import CodeAgent.Proofs.ToolCall.TypedArguments
import CodeAgent.Proofs.Wire.WrittenLines
import CodeAgent.Proofs.Text.Blank
import CodeAgent.Proofs.FirstOfEach
import CodeAgent.Proofs.Symbols.PathClause
import CodeAgent.Proofs.Symbols.SearchResults
import CodeAgent.Proofs.Symbols.RankingTiers
import CodeAgent.Proofs.Symbols.SymbolIdentity
import CodeAgent.Proofs.Symbols.PathFilter
import CodeAgent.Proofs.Symbols.FailedOutlines
import CodeAgent.Proofs.Workspace.HiddenFolder
import CodeAgent.Proofs.Symbols.SnapshotWriting
import CodeAgent.Proofs.Symbols.UnchangedWorkspace
import CodeAgent.Proofs.Backend.WholeReply
import CodeAgent.Proofs.Symbols.HeadingLine
import CodeAgent.Proofs.Symbols.OutlineTree
import CodeAgent.Proofs.Symbols.Sections
import CodeAgent.Proofs.Agent.ReadBackSections
import CodeAgent.Proofs.Symbols.ResolvedNodes
import CodeAgent.Proofs.Text.LineRanges
import CodeAgent.Proofs.Text.SourceLines
import CodeAgent.Proofs.Agent.WrittenFile
import CodeAgent.Proofs.Agent.TodoCompletion
import CodeAgent.Proofs.Symbols.DeclarationLines
import CodeAgent.Proofs.Symbols.DocText
import CodeAgent.Proofs.Symbols.FileOutlines
import CodeAgent.Proofs.Workspace.LiteralSearch
import CodeAgent.Proofs.ToolCall.FirstRefusal
import CodeAgent.Proofs.Agent.ShownResults
import CodeAgent.Proofs.Backend.LocalAddress
import CodeAgent.Proofs.Agent.Reconfigured
import CodeAgent.Proofs.Config.Precedence
import CodeAgent.Proofs.ToolCall.EmbeddedObjects
import CodeAgent.Proofs.Wire.BracketDepth
