import PatternGate.CharSet
import PatternGate.Decimal.Binary64
import PatternGate.Decimal.Shortest
import PatternGate.Expr.Basic
import PatternGate.Expr.Build
import PatternGate.Expr.Meaning
import PatternGate.Json.Fault
import PatternGate.Json.Printer
import PatternGate.Json.Reader
import PatternGate.Json.Record
import PatternGate.Json.Scanner
import PatternGate.Json.Value
import PatternGate.Pattern.Bracket
import PatternGate.Pattern.Cursor
import PatternGate.Pattern.Dialect
import PatternGate.Pattern.Escape
import PatternGate.Pattern.Fault
import PatternGate.Pattern.Group
import PatternGate.Pattern.Nesting
import PatternGate.Pattern.Number
import PatternGate.Pattern.Parser
import PatternGate.Pattern.Repetition
import PatternGate.Pattern.Report
import PatternGate.Pattern.Tree
import PatternGate.Program.Compile
import PatternGate.Program.Instruction
import PatternGate.Program.Lowering
import PatternGate.Program.Watch
import PatternGate.Proofs.CharSet
import PatternGate.Proofs.Decimal.Rounding
import PatternGate.Proofs.Expr.Built
import PatternGate.Proofs.Expr.Choices
import PatternGate.Proofs.Expr.Groups
import PatternGate.Proofs.Expr.Height
import PatternGate.Proofs.Expr.Matching
import PatternGate.Proofs.Expr.Nodes
import PatternGate.Proofs.Expr.Preference
import PatternGate.Proofs.Expr.Sense
import PatternGate.Proofs.Json.Numbers
import PatternGate.Proofs.Json.Records
import PatternGate.Proofs.Json.Spelling
import PatternGate.Proofs.Json.Strings
import PatternGate.Proofs.Json.Values
import PatternGate.Proofs.Json.Written
import PatternGate.Proofs.Pattern.Captures
import PatternGate.Proofs.Pattern.Choices
import PatternGate.Proofs.Pattern.Completeness
import PatternGate.Proofs.Pattern.Constructs
import PatternGate.Proofs.Pattern.Depth
import PatternGate.Proofs.Pattern.Escaping
import PatternGate.Proofs.Pattern.Listing
import PatternGate.Proofs.Pattern.Meaning
import PatternGate.Proofs.Pattern.Nesting
import PatternGate.Proofs.Pattern.Reading
import PatternGate.Proofs.Pattern.Suppression
import PatternGate.Proofs.Pattern.Tower
import PatternGate.Proofs.Pattern.Translation
import PatternGate.Proofs.Pattern.Wide
import PatternGate.Proofs.Program.Acceptance
import PatternGate.Proofs.Program.Accounting
import PatternGate.Proofs.Program.Anchoring
import PatternGate.Proofs.Program.Backtracking
import PatternGate.Proofs.Program.Brackets
import PatternGate.Proofs.Program.Budget
import PatternGate.Proofs.Program.Charges
import PatternGate.Proofs.Program.Classes
import PatternGate.Proofs.Program.Contents
import PatternGate.Proofs.Program.Deeds
import PatternGate.Proofs.Program.Drafts
import PatternGate.Proofs.Program.Erasure
import PatternGate.Proofs.Program.Flow
import PatternGate.Proofs.Program.Greed
import PatternGate.Proofs.Program.Layout
import PatternGate.Proofs.Program.Machine
import PatternGate.Proofs.Program.Outline
import PatternGate.Proofs.Program.Plan
import PatternGate.Proofs.Program.Unrolling
import PatternGate.Proofs.Program.Walks
import PatternGate.Proofs.Program.Watch
import PatternGate.Proofs.Text.Latin1
import PatternGate.Proofs.Text.Utf8
import PatternGate.Proofs.Unicode.Folding
import PatternGate.Proofs.Validator.Boundary
import PatternGate.Proofs.Validator.Events
import PatternGate.Proofs.Validator.Members
import PatternGate.Proofs.Validator.Outcome
import PatternGate.Proofs.Validator.Texts
import PatternGate.Text.Latin1
import PatternGate.Text.Position
import PatternGate.Text.Quoted
import PatternGate.Text.Utf8
import PatternGate.Unicode.Age
import PatternGate.Unicode.Binary
import PatternGate.Unicode.Breaks
import PatternGate.Unicode.Category
import PatternGate.Unicode.Folding
import PatternGate.Unicode.Property
import PatternGate.Unicode.RangeCode
import PatternGate.Unicode.Script
import PatternGate.Validator.Events
import PatternGate.Validator.Request
import PatternGate.Validator.Verdict
