import EngineHost.Cli.Backend
import EngineHost.Cli.Basic
import EngineHost.Cli.Command
import EngineHost.Cli.Flag
import EngineHost.Cli.Output
import EngineHost.Cli.Run
import EngineHost.Cli.Selection
import EngineHost.Cli.Serialize
import EngineHost.Cli.Settings
import EngineHost.Cli.Usage
import EngineHost.Cli.Work
import EngineHost.Config.Document
import EngineHost.Config.Loader
import EngineHost.Config.Params
import EngineHost.Config.RunConfig
import EngineHost.Config.Schema
import EngineHost.Config.Validation
import EngineHost.Engine.Basic
import EngineHost.Engine.Boundary
import EngineHost.Engine.Evaluation
import EngineHost.Engine.Interpreter
import EngineHost.Engine.NativeText
import EngineHost.Engine.Record
import EngineHost.Engine.Resource
import EngineHost.Engine.Session
import EngineHost.Engine.World
import EngineHost.Fault
import EngineHost.Files.Basic
import EngineHost.Files.Path
import EngineHost.Guest.Capture
import EngineHost.Guest.Demo
import EngineHost.Guest.Instance
import EngineHost.Guest.Linking
import EngineHost.Guest.Loading
import EngineHost.Guest.LogLine
import EngineHost.Guest.Machine
import EngineHost.Guest.Memory
import EngineHost.Guest.Running
import EngineHost.Guest.Script
import EngineHost.Guest.System
import EngineHost.Json.Basic
import EngineHost.Json.OfValue
import EngineHost.Json.Tree
import EngineHost.Log.Forward
import EngineHost.Log.Line
import EngineHost.Log.Record
import EngineHost.Log.Wire
import EngineHost.Main
import EngineHost.Metrics.Basic
import EngineHost.Metrics.Exposition
import EngineHost.Number.Binary32
import EngineHost.Number.Binary64
import EngineHost.Number.Decimal
import EngineHost.Number.Functions
import EngineHost.Number.Layout
import EngineHost.Number.Literal
import EngineHost.Number.Round
import EngineHost.Report.Basic
import EngineHost.Sample.Basic
import EngineHost.Sample.Programs
import EngineHost.Simulator.Engine
import EngineHost.Simulator.Ledger
import EngineHost.Simulator.Program
import EngineHost.Template.Complaint
import EngineHost.Template.Datum
import EngineHost.Template.Directive
import EngineHost.Template.Execution
import EngineHost.Template.Format
import EngineHost.Template.Functions
import EngineHost.Template.Node
import EngineHost.Template.Parser
import EngineHost.Template.Program
import EngineHost.Template.Token
import EngineHost.Text.Base64
import EngineHost.Text.Blank
import EngineHost.Text.Bytes
import EngineHost.Text.Letter
import EngineHost.Text.Printable
import EngineHost.Text.Quoted
import EngineHost.Text.Ranges
import EngineHost.Text.Unquoted
import EngineHost.Text.Utf8
import EngineHost.Time.Duration
import EngineHost.Time.Instant
import EngineHost.Value.Basic
import EngineHost.Value.Dict
import EngineHost.Value.Key
import EngineHost.Wasm.Binary
import EngineHost.Wasm.Code
import EngineHost.Wasm.Execution
import EngineHost.Wasm.Fraction
import EngineHost.Wasm.Instruction
import EngineHost.Wasm.Lanes
import EngineHost.Wasm.Module
import EngineHost.Wasm.Operands
import EngineHost.Wasm.Operation
import EngineHost.Wasm.Reader
import EngineHost.Wasm.Store
import EngineHost.Wasm.Typing
import EngineHost.Wasm.Validation
import EngineHost.Wasm.Value
import EngineHost.Wasm.VectorInstruction
import EngineHost.Yaml.Characters
import EngineHost.Yaml.Cursor
import EngineHost.Yaml.Failure
import EngineHost.Yaml.Graph
import EngineHost.Yaml.Meaning
import EngineHost.Yaml.Scalar
import EngineHost.Yaml.Stream
import EngineHost.Yaml.Tag
import EngineHost.Yaml.Token
import EngineHost.Proofs.Conversation
import EngineHost.Proofs.History
import EngineHost.Proofs.Release
import EngineHost.Proofs.ExactlyOnce
import EngineHost.Proofs.Lifecycle
import EngineHost.Proofs.EncodedLength
import EngineHost.Proofs.SimulatedLedger
import EngineHost.Proofs.CleanLedger
import EngineHost.Proofs.GuestBlocks
import EngineHost.Proofs.GuestSteps
import EngineHost.Proofs.GuestOperations
import EngineHost.Proofs.GuestSession
import EngineHost.Proofs.ReleasedBook
import EngineHost.Proofs.CountedCalls
import EngineHost.Proofs.Counting
import EngineHost.Proofs.LiveGauge
import EngineHost.Proofs.SimulatedOperations
import EngineHost.Proofs.Capacity
import EngineHost.Proofs.Isolation
import EngineHost.Proofs.HeldItems
import EngineHost.Proofs.MisuseDetector
import EngineHost.Proofs.Dictionary
import EngineHost.Proofs.ConfigOverlay
import EngineHost.Proofs.GuestAnswers
import EngineHost.Proofs.GuestMemory
import EngineHost.Proofs.GuestOutcome
import EngineHost.Proofs.FlatTemplate
import EngineHost.Proofs.FilledProgram
import EngineHost.Proofs.RunnableSamples
import EngineHost.Proofs.FileBeforeFlags
import EngineHost.Proofs.CommandSession
import EngineHost.Proofs.CommandCourse
import EngineHost.Proofs.LoadedProgram
import EngineHost.Proofs.CommandCleanup
import EngineHost.Proofs.ExitCode
import EngineHost.Proofs.SameEncoding
import EngineHost.Proofs.WellFormedText
import EngineHost.Proofs.JsonReadBack
import EngineHost.Proofs.WireRoundTrip
import EngineHost.Proofs.ErrorChannel
import EngineHost.Proofs.SimulatedEvaluation
import EngineHost.Proofs.FaultKind
import EngineHost.Proofs.PrintedText
import EngineHost.Proofs.ReportedKind
import EngineHost.Proofs.ProgramGrammar
import EngineHost.Proofs.ProgramAppend
import EngineHost.Proofs.NameSection
import EngineHost.Proofs.CapturedOutput
import EngineHost.Proofs.RepairedText
import EngineHost.Proofs.GuestText
import EngineHost.Proofs.RecordLayout
import EngineHost.Proofs.TemplateReading
import EngineHost.Proofs.TemplateSubstitution
import EngineHost.Proofs.SignedNumeral
import EngineHost.Proofs.ParameterPairs
import EngineHost.Proofs.SampleParameters
import EngineHost.Proofs.TemplateForm
import EngineHost.Proofs.VerbatimProgram
import EngineHost.Proofs.ListedParameters
import EngineHost.Proofs.EnclosedFault
import EngineHost.Proofs.NearestFloat
import EngineHost.Proofs.FloatText
import EngineHost.Proofs.DurationText
import EngineHost.Proofs.InstantText
import EngineHost.Proofs.RestoredAttribute
import EngineHost.Proofs.ForwardedLine
import EngineHost.Proofs.AnnouncedLine
import EngineHost.Proofs.ExactMetrics
import EngineHost.Proofs.HeldText
