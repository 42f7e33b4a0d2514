import LuaStyle.Command.Arguments
import LuaStyle.Command.Run
import LuaStyle.Comment.Placement
import LuaStyle.Layout.Config
import LuaStyle.Layout.Doc
import LuaStyle.Layout.Error
import LuaStyle.Layout.Format
import LuaStyle.Layout.Parentheses
import LuaStyle.Layout.Printer
import LuaStyle.Literal.Escape
import LuaStyle.Literal.LongBracket
import LuaStyle.Literal.Quoted
import LuaStyle.Main
import LuaStyle.Number.Double
import LuaStyle.Number.Notation
import LuaStyle.Number.Numeral
import LuaStyle.Number.Shortest
import LuaStyle.Parser.Binding
import LuaStyle.Parser.Cursor
import LuaStyle.Parser.Error
import LuaStyle.Parser.Grammar
import LuaStyle.Parser.Program
import LuaStyle.Proofs.Accounting
import LuaStyle.Proofs.Advances
import LuaStyle.Proofs.Belonging
import LuaStyle.Proofs.BlankLines
import LuaStyle.Proofs.Bytewise
import LuaStyle.Proofs.Canonical
import LuaStyle.Proofs.ClauseEnds
import LuaStyle.Proofs.Climbing
import LuaStyle.Proofs.CommentText
import LuaStyle.Proofs.CommentTokens
import LuaStyle.Proofs.Completeness
import LuaStyle.Proofs.ContentLines
import LuaStyle.Proofs.Cutting
import LuaStyle.Proofs.DeletedParentheses
import LuaStyle.Proofs.Delimiters
import LuaStyle.Proofs.DrawnScripts
import LuaStyle.Proofs.EarliestError
import LuaStyle.Proofs.Entries
import LuaStyle.Proofs.ErrorSpans
import LuaStyle.Proofs.ExpressionsFound
import LuaStyle.Proofs.Extents
import LuaStyle.Proofs.Faults
import LuaStyle.Proofs.FileSafety
import LuaStyle.Proofs.FixedPoint
import LuaStyle.Proofs.Footprint
import LuaStyle.Proofs.Foresight
import LuaStyle.Proofs.Frames
import LuaStyle.Proofs.Gain
import LuaStyle.Proofs.Grammatical
import LuaStyle.Proofs.Grouping
import LuaStyle.Proofs.Highlighting
import LuaStyle.Proofs.Idempotence
import LuaStyle.Proofs.Insertion
import LuaStyle.Proofs.Labels
import LuaStyle.Proofs.LaidBlocks
import LuaStyle.Proofs.LaidExpressions
import LuaStyle.Proofs.LaidLines
import LuaStyle.Proofs.LaidStatements
import LuaStyle.Proofs.LaidTrees
import LuaStyle.Proofs.Lengthening
import LuaStyle.Proofs.LineEndings
import LuaStyle.Proofs.LineNumbers
import LuaStyle.Proofs.LongBrackets
import LuaStyle.Proofs.Meaning
import LuaStyle.Proofs.NeededParentheses
import LuaStyle.Proofs.Nesting
import LuaStyle.Proofs.NumberText
import LuaStyle.Proofs.NumberTokens
import LuaStyle.Proofs.Numerals
import LuaStyle.Proofs.OutlineNesting
import LuaStyle.Proofs.OperatorTrees
import LuaStyle.Proofs.OwnLines
import LuaStyle.Proofs.Passages
import LuaStyle.Proofs.Progress
import LuaStyle.Proofs.QuotedBodies
import LuaStyle.Proofs.QuotedText
import LuaStyle.Proofs.ReadBack
import LuaStyle.Proofs.Readers
import LuaStyle.Proofs.Reading
import LuaStyle.Proofs.Rearrangement
import LuaStyle.Proofs.Recast
import LuaStyle.Proofs.Recognition
import LuaStyle.Proofs.Refusals
import LuaStyle.Proofs.Region
import LuaStyle.Proofs.Relocation
import LuaStyle.Proofs.Restoring
import LuaStyle.Proofs.Resumption
import LuaStyle.Proofs.Resurfacing
import LuaStyle.Proofs.Retrieval
import LuaStyle.Proofs.Rounding
import LuaStyle.Proofs.Routines
import LuaStyle.Proofs.Script
import LuaStyle.Proofs.ScriptSpelling
import LuaStyle.Proofs.SharedLines
import LuaStyle.Proofs.Showing
import LuaStyle.Proofs.Soundness
import LuaStyle.Proofs.Spacing
import LuaStyle.Proofs.Spelled
import LuaStyle.Proofs.StatementsFound
import LuaStyle.Proofs.Steps
import LuaStyle.Proofs.StringBodies
import LuaStyle.Proofs.StringEnds
import LuaStyle.Proofs.Surface
import LuaStyle.Proofs.Tiling
import LuaStyle.Proofs.Transcribed
import LuaStyle.Proofs.Transcription
import LuaStyle.Proofs.TreeScripts
import LuaStyle.Proofs.TreesDrawn
import LuaStyle.Proofs.Uncommented
import LuaStyle.Proofs.Unfolding
import LuaStyle.Proofs.Viability
import LuaStyle.Proofs.Weight
import LuaStyle.Proofs.Writing
import LuaStyle.Proofs.Written
import LuaStyle.Report.Event
import LuaStyle.Report.Frame
import LuaStyle.Report.Highlight
import LuaStyle.Report.Message
import LuaStyle.Report.Style
import LuaStyle.Source.Lines
import LuaStyle.Source.Span
import LuaStyle.Text.Blank
import LuaStyle.Text.Digits
import LuaStyle.Text.Escaped
import LuaStyle.Text.Extending
import LuaStyle.Text.Printable
import LuaStyle.Text.Utf8
import LuaStyle.Token.Kind
import LuaStyle.Token.Lexer
import LuaStyle.Tree.Basic
import LuaStyle.Tree.ClauseReach
import LuaStyle.Tree.Nodes
import LuaStyle.Tree.Operator
import LuaStyle.Tree.Outline
