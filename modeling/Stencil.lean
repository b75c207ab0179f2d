import Stencil.Text.Basic
import Stencil.Character.Ranges
import Stencil.Character.Extending
import Stencil.Character.Ignorable
import Stencil.Character.Unassigned
import Stencil.Character.Wide
import Stencil.Text.Blank
import Stencil.Fault
import Stencil.Span
import Stencil.Place
import Stencil.Bracket
import Stencil.Lexeme
import Stencil.Pattern
import Stencil.SyntaxError
import Stencil.Segment
import Stencil.Item
import Stencil.Expression
import Stencil.Token
import Stencil.Text.Quoted
import Stencil.Text.Width
import Stencil.Json
import Stencil.Json.Token
import Stencil.Dump
import Stencil.Summary
import Stencil.Cursor
import Stencil.Cursor.Step
import Stencil.Report.Line
import Stencil.Report.Paint
import Stencil.Report.Label
import Stencil.Report
import Stencil.Command
import Stencil.Command.Response
import Stencil.Main
import Stencil.Proofs.Group
import Stencil.Proofs.Group.Uneven
import Stencil.Proofs.Lexeme
import Stencil.Proofs.Lexeme.Blank
import Stencil.Proofs.Segment
import Stencil.Proofs.Units
import Stencil.Proofs.Segment.Entry
import Stencil.Proofs.Segment.Units
import Stencil.Proofs.Marker
import Stencil.Proofs.Item.Layout
import Stencil.Proofs.Expression
import Stencil.Proofs.Shift
import Stencil.Proofs.Expression.Refusal
import Stencil.Proofs.Token
import Stencil.Proofs.Token.Tiling
import Stencil.Proofs.Token.Refusal
import Stencil.Proofs.Token.Chunk
import Stencil.Proofs.Token.Append
import Stencil.Proofs.Token.Alone
import Stencil.Proofs.Token.Failure
import Stencil.Proofs.Token.Braced
import Stencil.Proofs.Segment.Spread
import Stencil.Proofs.Token.Spread
import Stencil.Proofs.Item.Parts
import Stencil.Proofs.Item.Separable
import Stencil.Proofs.Item.Render
import Stencil.Proofs.Expression.Render
import Stencil.Proofs.Token.Render
import Stencil.Proofs.Lexeme.Exchange
import Stencil.Proofs.Item.Swapped
import Stencil.Proofs.Item.Exchange
import Stencil.Proofs.Segment.Exchange
import Stencil.Proofs.Cursor.Local
import Stencil.Proofs.Cursor.Run
import Stencil.Proofs.Cursor.Window
import Stencil.Proofs.Word
import Stencil.Proofs.Word.Segment
import Stencil.Proofs.Word.Item
import Stencil.Proofs.Word.Token
import Stencil.Proofs.Word.Run
import Stencil.Proofs.Segment.Append
import Stencil.Proofs.Segment.Padding
import Stencil.Proofs.Item.Tidy
import Stencil.Proofs.Item.Units
import Stencil.Proofs.Item.Written
import Stencil.Proofs.Expression.Homogeneous
import Stencil.Proofs.Expression.Padding
import Stencil.Proofs.Expression.Tidy
import Stencil.Proofs.Expression.Wrapped
import Stencil.Proofs.Token.Verbatim
import Stencil.Proofs.Expression.ValueEnds
import Stencil.Proofs.SyntaxError
import Stencil.Proofs.Report.Line
import Stencil.Proofs.Report
import Stencil.Proofs.Json.Written
import Stencil.Proofs.Json.Token
import Stencil.Proofs.Token.Unclosed
import Stencil.Proofs.Dump
import Stencil.Proofs.Item.Flat
import Stencil.Proofs.Summary
import Stencil.Proofs.Token.Pairs
import Stencil.Proofs.Cursor.Skip
import Stencil.Proofs.Report.Mark
import Stencil.Proofs.Report.Color
