import Promptline.CommandLine
import Promptline.Completion.CommandTable
import Promptline.Completion.Completer
import Promptline.Completion.Grid
import Promptline.Config
import Promptline.Diagnostic
import Promptline.Editor.Edit
import Promptline.Editor.Input
import Promptline.Editor.Keys
import Promptline.Editor.Popup
import Promptline.Editor.Screen
import Promptline.Editor.State
import Promptline.Files.Path
import Promptline.Files.Tree
import Promptline.History
import Promptline.Interaction
import Promptline.Line
import Promptline.Log
import Promptline.Log.Destination
import Promptline.Main
import Promptline.Process.Error
import Promptline.Process.Execution
import Promptline.Process.Host
import Promptline.Process.Monitor
import Promptline.Process.Rehearsal
import Promptline.Process.Table
import Promptline.Proofs.Completion.Answers
import Promptline.Proofs.Completion.Cells
import Promptline.Proofs.Completion.CommandTable
import Promptline.Proofs.Completion.Grid
import Promptline.Proofs.Completion.Insertion
import Promptline.Proofs.Completion.Names
import Promptline.Proofs.Completion.Offers
import Promptline.Proofs.Completion.SearchPaths
import Promptline.Proofs.Editor.Alphabet
import Promptline.Proofs.Editor.Browsing
import Promptline.Proofs.Editor.Candidates
import Promptline.Proofs.Editor.Cuts
import Promptline.Proofs.Editor.Delivery
import Promptline.Proofs.Editor.Dialogue
import Promptline.Proofs.Editor.Dismissal
import Promptline.Proofs.Editor.Display
import Promptline.Proofs.Editor.Echo
import Promptline.Proofs.Editor.Effects
import Promptline.Proofs.Editor.Entering
import Promptline.Proofs.Editor.Events
import Promptline.Proofs.Editor.Input
import Promptline.Proofs.Editor.Keys
import Promptline.Proofs.Editor.Mirror
import Promptline.Proofs.Editor.Reached
import Promptline.Proofs.Editor.Resuming
import Promptline.Proofs.Editor.Stops
import Promptline.Proofs.Editor.Triples
import Promptline.Proofs.Editor.Turns
import Promptline.Proofs.Editor.Typing
import Promptline.Proofs.Editor.Walking
import Promptline.Proofs.Editor.WellFormed
import Promptline.Proofs.Files.Tree
import Promptline.Proofs.History
import Promptline.Proofs.History.Bounds
import Promptline.Proofs.History.Circular
import Promptline.Proofs.History.Expansion
import Promptline.Proofs.History.Newest
import Promptline.Proofs.History.References
import Promptline.Proofs.Line
import Promptline.Proofs.Line.Cursor
import Promptline.Proofs.Line.Operations
import Promptline.Proofs.Line.Slices
import Promptline.Proofs.Line.Word
import Promptline.Proofs.Process.Accounts
import Promptline.Proofs.Process.Calls
import Promptline.Proofs.Process.Ending
import Promptline.Proofs.Process.Failures
import Promptline.Proofs.Process.Fresh
import Promptline.Proofs.Process.Headstart
import Promptline.Proofs.Process.Interrupt
import Promptline.Proofs.Process.Lanes
import Promptline.Proofs.Process.Monitor
import Promptline.Proofs.Process.Order
import Promptline.Proofs.Process.Places
import Promptline.Proofs.Process.Progress
import Promptline.Proofs.Process.Rehearsal
import Promptline.Proofs.Process.Rounds
import Promptline.Proofs.Process.Runs
import Promptline.Proofs.Process.Snapshot
import Promptline.Proofs.Process.Table
import Promptline.Proofs.Process.Timing
import Promptline.Proofs.Process.Trace
import Promptline.Proofs.Reader
import Promptline.Proofs.Statement
import Promptline.Proofs.Terminal.ControlKeys
import Promptline.Proofs.Terminal.Fragments
import Promptline.Proofs.Terminal.Grammar
import Promptline.Proofs.Terminal.JoinedText
import Promptline.Proofs.Terminal.Malformed
import Promptline.Proofs.Terminal.Numeral
import Promptline.Proofs.Terminal.Pending
import Promptline.Proofs.Terminal.RoundTrip
import Promptline.Proofs.Terminal.Runs
import Promptline.Proofs.Terminal.Scan
import Promptline.Proofs.Terminal.Screen
import Promptline.Proofs.Terminal.Texts
import Promptline.Proofs.Terminal.Typing
import Promptline.Proofs.Text.Utf8
import Promptline.Proofs.Unicode.Alphabet
import Promptline.Proofs.Unicode.Characters
import Promptline.Proofs.Unicode.ClusterWidth
import Promptline.Proofs.Unicode.CodePointSet
import Promptline.Proofs.Unicode.Prefix
import Promptline.Proofs.Unicode.Reading
import Promptline.Reader
import Promptline.SetupError
import Promptline.Shell.Parser
import Promptline.Shell.Program
import Promptline.Shell.Run
import Promptline.Shell.Syntax
import Promptline.Shell.System
import Promptline.Statement
import Promptline.Terminal.Color
import Promptline.Terminal.ControlSequence
import Promptline.Terminal.DecodeError
import Promptline.Terminal.Decoder
import Promptline.Terminal.Event
import Promptline.Terminal.Sink
import Promptline.Terminal.Visible
import Promptline.Text.Quoted
import Promptline.Text.Utf8
import Promptline.Unicode.Blank
import Promptline.Unicode.Cluster
import Promptline.Unicode.CodePointSet
import Promptline.Unicode.Conjunct
import Promptline.Unicode.Emoji
import Promptline.Unicode.Extending
import Promptline.Unicode.Joining
import Promptline.Unicode.Printable
import Promptline.Unicode.Spacing
import Promptline.Unicode.Whitespace
import Promptline.Unicode.Wide
import Promptline.Unicode.Width
