import Monkey.Analysis
import Monkey.Main
import Monkey.Proofs.Lexer.Scan
import Monkey.Proofs.Lexer.Tiling
import Monkey.Proofs.Lexer.Layout
import Monkey.Proofs.Parser.Ahead
import Monkey.Proofs.Parser.Reading
import Monkey.Proofs.Parser.Segments
import Monkey.Proofs.Parser.WellFormed
import Monkey.Proofs.Parser.Bare
import Monkey.Proofs.Parser.RoundTrip
import Monkey.Proofs.Parser.Moves
import Monkey.Proofs.Parser.Progress
import Monkey.Proofs.Parser.Completeness
import Monkey.Proofs.Parser.Findings
import Monkey.Proofs.Parser.Recovery
import Monkey.Proofs.Diagnostic.Rows
import Monkey.Proofs.Diagnostic.Points
import Monkey.Proofs.Command.Reports
import Monkey.Proofs.Parser.Draining
import Monkey.Proofs.Parser.Safety
import Monkey.Proofs.Command.Lines
import Monkey.Proofs.Lexer.Requests
import Monkey.Proofs.Parser.Order
import Monkey.Proofs.Parser.Spans
import Monkey.Proofs.Parser.Alike
import Monkey.Proofs.Parser.Nested
import Monkey.Proofs.Lexer.Splitting
import Monkey.Proofs.Parser.Ledger
import Monkey.Proofs.Source.Pieces
import Monkey.Proofs.Diagnostic.Marks
import Monkey.Proofs.Source.Joining
import Monkey.Proofs.Source.Numbering
import Monkey.Proofs.Diagnostic.Files
import Monkey.Proofs.Parser.InFile
import Monkey.Proofs.Command.Colors
import Monkey.Proofs.Lexer.Registers
