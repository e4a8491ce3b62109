import ModalCursor.Buffer
import ModalCursor.Buffer.Load
import ModalCursor.Buffer.Paragraphs
import ModalCursor.Buffer.Words
import ModalCursor.Command
import ModalCursor.Command.Reading
import ModalCursor.CommandLine
import ModalCursor.Cursor
import ModalCursor.Drill
import ModalCursor.Folder
import ModalCursor.Machine
import ModalCursor.Main
import ModalCursor.Marks
import ModalCursor.Motion
import ModalCursor.Position
import ModalCursor.Proofs.Arguments
import ModalCursor.Proofs.Bounds
import ModalCursor.Proofs.Clamping
import ModalCursor.Proofs.Continuations
import ModalCursor.Proofs.Counts
import ModalCursor.Proofs.Directions
import ModalCursor.Proofs.Documents
import ModalCursor.Proofs.Drills
import ModalCursor.Proofs.Formats
import ModalCursor.Proofs.Frame
import ModalCursor.Proofs.Grammar
import ModalCursor.Proofs.History
import ModalCursor.Proofs.LineEndings
import ModalCursor.Proofs.Lines
import ModalCursor.Proofs.Listening
import ModalCursor.Proofs.Marks
import ModalCursor.Proofs.NoFaults
import ModalCursor.Proofs.Occurrences
import ModalCursor.Proofs.Offsets
import ModalCursor.Proofs.Overrides
import ModalCursor.Proofs.Paragraphs
import ModalCursor.Proofs.Prefixes
import ModalCursor.Proofs.Reachable
import ModalCursor.Proofs.Renewal
import ModalCursor.Proofs.RowWords
import ModalCursor.Proofs.Saturation
import ModalCursor.Proofs.SavedPositions
import ModalCursor.Proofs.Segments
import ModalCursor.Proofs.Summaries
import ModalCursor.Proofs.Trail
import ModalCursor.Proofs.Transcripts
import ModalCursor.Proofs.Typing
import ModalCursor.Proofs.Vertical
import ModalCursor.Proofs.WayBack
import ModalCursor.Proofs.WordLandings
import ModalCursor.Proofs.WordWalks
import ModalCursor.Proofs.WrittenForms
import ModalCursor.Row
import ModalCursor.Row.Search
import ModalCursor.Row.Words
import ModalCursor.Rows
import ModalCursor.Session
import ModalCursor.Session.Log
import ModalCursor.Session.Transcript
import ModalCursor.Settings
import ModalCursor.Settings.Directive
import ModalCursor.Settings.Document
import ModalCursor.Settings.Error
import ModalCursor.Settings.LineFormat
import ModalCursor.Text
import ModalCursor.Text.Extending
import ModalCursor.Text.Ignorable
import ModalCursor.Text.Lines
import ModalCursor.Text.Numeral
import ModalCursor.Text.Quoted
import ModalCursor.Text.Ranges
import ModalCursor.Text.Unprintable
import ModalCursor.Text.WhiteSpace
