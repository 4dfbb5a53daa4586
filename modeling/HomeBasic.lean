import HomeBasic.Attempt
import HomeBasic.Batch
import HomeBasic.BoundedStack
import HomeBasic.Bytes
import HomeBasic.Code
import HomeBasic.Command
import HomeBasic.Config
import HomeBasic.Console
import HomeBasic.Desk
import HomeBasic.EditLine
import HomeBasic.Expression
import HomeBasic.Fault
import HomeBasic.Function
import HomeBasic.Function.Call
import HomeBasic.Line
import HomeBasic.Line.Crunch
import HomeBasic.Machine.Basic
import HomeBasic.Machine.Commands
import HomeBasic.Machine.Editor
import HomeBasic.Machine.Run
import HomeBasic.Main
import HomeBasic.Number.Decimal
import HomeBasic.Number.Operator
import HomeBasic.Number.WordSize
import HomeBasic.Printing
import HomeBasic.Program
import HomeBasic.Program.Packing
import HomeBasic.Recorder
import HomeBasic.Scanner
import HomeBasic.Screen
import HomeBasic.Slot.Checksum
import HomeBasic.Slot.Controller
import HomeBasic.Slot.Directory
import HomeBasic.Slot.Image
import HomeBasic.Slot.Link
import HomeBasic.Slot.Store
import HomeBasic.Slot.Web
import HomeBasic.Statement
import HomeBasic.Teletype
import HomeBasic.Text.Blank
import HomeBasic.Text.Lines
import HomeBasic.Token
import HomeBasic.Value
import HomeBasic.Variables
import HomeBasic.Variables.Packing
import HomeBasic.Variables.Record
import HomeBasic.Verdict
import HomeBasic.Proofs.Attempt.Rules
import HomeBasic.Proofs.Scanner.Movement
import HomeBasic.Proofs.Desk.Movement
import HomeBasic.Proofs.Expression.Climbing
import HomeBasic.Proofs.Expression.Climbing.Turns
import HomeBasic.Proofs.Expression.Precedence
import HomeBasic.Proofs.Function.Faults
import HomeBasic.Proofs.Expression.Climbing.Faults
import HomeBasic.Proofs.Expression.Parallel
import HomeBasic.Proofs.Expression.Modes
import HomeBasic.Proofs.Console.Upheld
import HomeBasic.Proofs.Number.Words
import HomeBasic.Proofs.Number.Exact
import HomeBasic.Proofs.Variables.Reading
import HomeBasic.Proofs.Program.Reading
import HomeBasic.Proofs.Slot.Image
import HomeBasic.Proofs.Line.OneLine
import HomeBasic.Proofs.Expression.Storable
import HomeBasic.Proofs.Statement.Sound
import HomeBasic.Proofs.Machine.Sound
import HomeBasic.Proofs.Machine.Submitting
import HomeBasic.Proofs.Machine.Upkeep
import HomeBasic.Proofs.Machine.Saving
import HomeBasic.Proofs.Machine.Resumption
import HomeBasic.Proofs.Scanner.Line
import HomeBasic.Proofs.Program.Refinement
import HomeBasic.Proofs.Variables.Contents
import HomeBasic.Proofs.Variables.Refinement
import HomeBasic.Proofs.Statement.Parallel
import HomeBasic.Proofs.Statement.Modes
import HomeBasic.Proofs.Statement.Typed
import HomeBasic.Proofs.Line.Checking
import HomeBasic.Proofs.Machine.Faults
import HomeBasic.Proofs.Line.Crunching
import HomeBasic.Proofs.Line.Relisting
import HomeBasic.Proofs.Machine.Recall
import HomeBasic.Proofs.Slot.Controller
import HomeBasic.Proofs.Slot.Proxy
import HomeBasic.Proofs.Slot.Service
import HomeBasic.Proofs.Line.Pieces
import HomeBasic.Proofs.Attempt.Mirrored
import HomeBasic.Proofs.Scanner.Twins
import HomeBasic.Proofs.Desk.Twins
import HomeBasic.Proofs.Expression.Mirrored
import HomeBasic.Proofs.Desk.Level
import HomeBasic.Proofs.Statement.Mirrored
import HomeBasic.Proofs.Line.Purity
import HomeBasic.Proofs.Machine.Moves
import HomeBasic.Proofs.Machine.Typing
import HomeBasic.Proofs.Line.Items
import HomeBasic.Proofs.Expression.Stack
import HomeBasic.Proofs.Expression.Items
import HomeBasic.Proofs.Statement.Items
import HomeBasic.Proofs.Program.Items
import HomeBasic.Proofs.Machine.Items
import HomeBasic.Proofs.Machine.Untouched
import HomeBasic.Proofs.Machine.Reads
import HomeBasic.Proofs.Machine.Displaced
import HomeBasic.Proofs.Variables.Loops
import HomeBasic.Proofs.Variables.Counting
import HomeBasic.Proofs.Machine.Calls
import HomeBasic.Proofs.Machine.Course
import HomeBasic.Proofs.Machine.Following
import HomeBasic.Proofs.Grammar.Expressions
import HomeBasic.Proofs.Grammar.Taking
import HomeBasic.Proofs.Grammar.Atoms
import HomeBasic.Proofs.Grammar.Operands
import HomeBasic.Proofs.Grammar.Evaluation
import HomeBasic.Proofs.Grammar.Sentences
import HomeBasic.Proofs.Grammar.Places
import HomeBasic.Proofs.Grammar.Complements
import HomeBasic.Proofs.Grammar.Forms
import HomeBasic.Proofs.Grammar.Statements
import HomeBasic.Proofs.Grammar.Acceptance
import HomeBasic.Proofs.Checked
import HomeBasic.Proofs.Console.Bounds
import HomeBasic.Proofs.Line.Bounds
import HomeBasic.Proofs.Machine.Checked
import HomeBasic.Proofs.Machine.Whereabouts
import HomeBasic.Proofs.Scanner.Bounds
import HomeBasic.Proofs.Attempt.Atomic
import HomeBasic.Proofs.Variables.Atomic
import HomeBasic.Proofs.Machine.Retries
import HomeBasic.Proofs.Machine.Direct
import HomeBasic.Proofs.Machine.Intact
import HomeBasic.Proofs.Desk.Bounds
import HomeBasic.Proofs.Expression.Bounds
import HomeBasic.Proofs.Statement.Bounds
import HomeBasic.Proofs.Machine.Bounds
import HomeBasic.Proofs.Machine.Sessions
import HomeBasic.Proofs.Number.Spelling
import HomeBasic.Proofs.Expression.Literals
import HomeBasic.Proofs.Variables.Decoding
import HomeBasic.Proofs.Slot.Decoding
import HomeBasic.Proofs.Machine.Slots
import HomeBasic.Proofs.Machine.Transfers
import HomeBasic.Proofs.Line.Columns
import HomeBasic.Proofs.Line.Settling
import HomeBasic.Proofs.Machine.Entering
import HomeBasic.Proofs.Line.Editing
import HomeBasic.Proofs.Machine.Shown
import HomeBasic.Proofs.Desk.Lasting
import HomeBasic.Proofs.Expression.Lasting
import HomeBasic.Proofs.Statement.Lasting
import HomeBasic.Proofs.Line.Glyphs
import HomeBasic.Proofs.Machine.Glyphs
import HomeBasic.Proofs.Console.Keys
import HomeBasic.Proofs.Machine.Answers
import HomeBasic.Proofs.Machine.Entries
import HomeBasic.Proofs.Slot.Damage
import HomeBasic.Proofs.Machine.Pauses
import HomeBasic.Proofs.Screen.Page
import HomeBasic.Proofs.Console.Overseen
import HomeBasic.Proofs.Expression.Overseen
import HomeBasic.Proofs.Statement.Layout
import HomeBasic.Proofs.Machine.Alignment
import HomeBasic.Proofs.Attempt.Repeats
import HomeBasic.Proofs.Scanner.Ends
import HomeBasic.Proofs.Desk.Inline
import HomeBasic.Proofs.Expression.Turns
import HomeBasic.Proofs.Expression.Ends
import HomeBasic.Proofs.Statement.Ends
import HomeBasic.Proofs.Program.Ends
import HomeBasic.Proofs.Console.Padding
import HomeBasic.Proofs.Machine.Invariants
import HomeBasic.Proofs.Machine.Lines
