import CommandConsole.Action
import CommandConsole.AliasTable
import CommandConsole.Builtins
import CommandConsole.CharSet
import CommandConsole.Config
import CommandConsole.Config.Toml
import CommandConsole.Console
import CommandConsole.Console.Fuel
import CommandConsole.Decimal.Nearest
import CommandConsole.Decimal.Shortest
import CommandConsole.Error
import CommandConsole.EventHooks
import CommandConsole.FileTree
import CommandConsole.History
import CommandConsole.Host
import CommandConsole.Json.Lexeme
import CommandConsole.Json.Quoted
import CommandConsole.Json.Value
import CommandConsole.Log
import CommandConsole.Main
import CommandConsole.Output
import CommandConsole.Pattern
import CommandConsole.Pattern.ByteRanges
import CommandConsole.Pattern.CharClass
import CommandConsole.Pattern.Escape
import CommandConsole.Pattern.Expr
import CommandConsole.Pattern.Fault
import CommandConsole.Pattern.Flags
import CommandConsole.Pattern.Lexer
import CommandConsole.Pattern.Property
import CommandConsole.Pattern.Reader
import CommandConsole.Pattern.Shape
import CommandConsole.Pattern.Size
import CommandConsole.Pattern.Token
import CommandConsole.Prompt
import CommandConsole.Registry
import CommandConsole.SavedState
import CommandConsole.SavedState.Json
import CommandConsole.Seconds
import CommandConsole.Seconds.Binary
import CommandConsole.Sequencer
import CommandConsole.Session
import CommandConsole.Signature
import CommandConsole.Store
import CommandConsole.Template
import CommandConsole.Text.Age
import CommandConsole.Text.Blank
import CommandConsole.Text.CaseFolding
import CommandConsole.Text.Category
import CommandConsole.Text.Hidden
import CommandConsole.Text.Letters
import CommandConsole.Text.Pieces
import CommandConsole.Text.Property
import CommandConsole.Text.Quoted
import CommandConsole.Text.Script
import CommandConsole.Text.Segment
import CommandConsole.Text.Statements
import CommandConsole.Text.WordClass
import CommandConsole.TextMap
import CommandConsole.Toml.Document
import CommandConsole.Toml.Text
import CommandConsole.Toml.Value
import CommandConsole.Proofs.Registry
import CommandConsole.Proofs.Time
import CommandConsole.Proofs.Action
import CommandConsole.Proofs.Builtins
import CommandConsole.Proofs.Grammar
import CommandConsole.Proofs.Worklist
import CommandConsole.Proofs.Depth
import CommandConsole.Proofs.Drain
import CommandConsole.Proofs.Nesting
import CommandConsole.Proofs.Transparency
import CommandConsole.Proofs.Overtaking
import CommandConsole.Proofs.Storing
import CommandConsole.Proofs.Files
import CommandConsole.Proofs.Restart
import CommandConsole.Proofs.Recall
import CommandConsole.Proofs.Rounds
import CommandConsole.Proofs.Defining
import CommandConsole.Proofs.Colouring
import CommandConsole.Proofs.Precedence
import CommandConsole.Proofs.Atomicity
import CommandConsole.Proofs.Independence
import CommandConsole.Proofs.Anchoring
import CommandConsole.Proofs.Addressing
import CommandConsole.Proofs.FontSize
import CommandConsole.Proofs.Countdown
import CommandConsole.Proofs.Accepting
import CommandConsole.Proofs.Building
import CommandConsole.Proofs.Naming
import CommandConsole.Proofs.Composing
import CommandConsole.Proofs.Separating
import CommandConsole.Proofs.Asking
import CommandConsole.Proofs.Receiving
