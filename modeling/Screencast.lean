import Screencast.Animation
import Screencast.Cast.Line
import Screencast.Cast.Record
import Screencast.Cast.Recording
import Screencast.Color.Basic
import Screencast.Color.Name
import Screencast.Color.Reader
import Screencast.Color.Space
import Screencast.Command.Program
import Screencast.CommandLine.Help
import Screencast.CommandLine.Misuse
import Screencast.CommandLine.Request
import Screencast.CommandLine.Switch
import Screencast.CommandLine.Token
import Screencast.Config.Basic
import Screencast.Config.Build
import Screencast.Config.Error
import Screencast.Config.File
import Screencast.Config.Option
import Screencast.Disk
import Screencast.Frame.Basic
import Screencast.Frame.Projection
import Screencast.Frame.Run
import Screencast.Ini.Basic
import Screencast.Ini.Reader
import Screencast.Json.Basic
import Screencast.Json.Codes
import Screencast.Json.Display
import Screencast.Json.Reader
import Screencast.Json.Writer
import Screencast.Log
import Screencast.Main
import Screencast.Number.Basic
import Screencast.Number.Binary64
import Screencast.Number.Decimal
import Screencast.Number.Rounding
import Screencast.Number.Twister
import Screencast.Path
import Screencast.Preview
import Screencast.Program
import Screencast.Proofs.Cast.Line
import Screencast.Proofs.Cast.Reading
import Screencast.Proofs.Command.Attending
import Screencast.Proofs.Command.Hearing
import Screencast.Proofs.Command.Listening
import Screencast.Proofs.Config.Accepted
import Screencast.Proofs.Disk.Folders
import Screencast.Proofs.Disk.Writing
import Screencast.Proofs.Frame.Blinking
import Screencast.Proofs.Frame.Grouping
import Screencast.Proofs.Frame.Projects
import Screencast.Proofs.Frame.Runs
import Screencast.Proofs.Frame.Tail
import Screencast.Proofs.Json.Codes
import Screencast.Proofs.Json.Legible
import Screencast.Proofs.Json.Numerals
import Screencast.Proofs.Json.OneLine
import Screencast.Proofs.Json.Places
import Screencast.Proofs.Json.RoundTrip
import Screencast.Proofs.Json.Strings
import Screencast.Proofs.Number.Bounds
import Screencast.Proofs.Number.Finite
import Screencast.Proofs.Number.Fixed
import Screencast.Proofs.Number.Nearest
import Screencast.Proofs.Number.Reaching
import Screencast.Proofs.Number.RoundingError
import Screencast.Proofs.Number.Shortest
import Screencast.Proofs.Number.Whole
import Screencast.Proofs.Path.Extension
import Screencast.Proofs.Preview.Rectangle
import Screencast.Proofs.Recording.Finalizing
import Screencast.Proofs.Render.AllOrNothing
import Screencast.Proofs.Render.Arguments
import Screencast.Proofs.Render.Cast
import Screencast.Proofs.Render.Checks
import Screencast.Proofs.Render.Choosing
import Screencast.Proofs.Render.Elements
import Screencast.Proofs.Render.Gif
import Screencast.Proofs.Render.Loop
import Screencast.Proofs.Render.Showing
import Screencast.Proofs.Render.Starts
import Screencast.Proofs.Render.Svg
import Screencast.Proofs.Replay.Agreement
import Screencast.Proofs.Replay.Alike
import Screencast.Proofs.Replay.Compose
import Screencast.Proofs.Replay.Course
import Screencast.Proofs.Replay.Dark
import Screencast.Proofs.Replay.Delivery
import Screencast.Proofs.Replay.Editing
import Screencast.Proofs.Replay.Effect
import Screencast.Proofs.Replay.Endings
import Screencast.Proofs.Replay.Film
import Screencast.Proofs.Replay.FrameLog
import Screencast.Proofs.Replay.Holding
import Screencast.Proofs.Replay.Keyboard
import Screencast.Proofs.Replay.Launching
import Screencast.Proofs.Replay.Mirror
import Screencast.Proofs.Replay.Moderate
import Screencast.Proofs.Replay.Moments
import Screencast.Proofs.Replay.Output
import Screencast.Proofs.Replay.Pauses
import Screencast.Proofs.Replay.Pieces
import Screencast.Proofs.Replay.Recut
import Screencast.Proofs.Replay.Reel
import Screencast.Proofs.Replay.Sheet
import Screencast.Proofs.Replay.Soundness
import Screencast.Proofs.Replay.Steady
import Screencast.Proofs.Replay.Typing
import Screencast.Proofs.Replay.Unpaced
import Screencast.Proofs.Replay.Unrolled
import Screencast.Proofs.Replay.Waiting
import Screencast.Proofs.Results
import Screencast.Proofs.Session.Copying
import Screencast.Proofs.Step.Reading
import Screencast.Proofs.Terminal.Cutting
import Screencast.Proofs.Terminal.PlainText
import Screencast.Proofs.Terminal.Refusal
import Screencast.Proofs.Text.Cells
import Screencast.Proofs.Text.Decoding
import Screencast.Proofs.Text.Digits
import Screencast.Proofs.Text.Encodes
import Screencast.Proofs.Text.Lowering
import Screencast.Proofs.Text.Offsets
import Screencast.Proofs.Text.Splitting
import Screencast.Proofs.Xml.Reading
import Screencast.Recording
import Screencast.Render.Basic
import Screencast.Render.Cast
import Screencast.Render.Gif
import Screencast.Render.Select
import Screencast.Render.Svg
import Screencast.Replay.Cue
import Screencast.Replay.Failure
import Screencast.Replay.Stage
import Screencast.Session
import Screencast.Shell.Template
import Screencast.Shell.Value
import Screencast.Shell.Words
import Screencast.Step.Basic
import Screencast.Step.Record
import Screencast.Step.Script
import Screencast.Terminal.Screen
import Screencast.Terminal.Stream
import Screencast.Text.Basic
import Screencast.Text.Blank
import Screencast.Text.Case
import Screencast.Text.Digit
import Screencast.Text.Encoding
import Screencast.Text.Lines
import Screencast.Text.Numeral
import Screencast.Text.Printable
import Screencast.Text.Quoted
import Screencast.Text.Range
import Screencast.Text.Size
import Screencast.Text.Slice
import Screencast.Text.Utf8
import Screencast.Text.Width
import Screencast.Xml
