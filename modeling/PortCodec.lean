import PortCodec.Assembly.Basic
import PortCodec.Assembly.Link
import PortCodec.Bindings.Generation
import PortCodec.Bindings.Header
import PortCodec.Bindings.Name
import PortCodec.Bindings.RustModule
import PortCodec.Bindings.Summary
import PortCodec.Bytes
import PortCodec.Codec.Backend
import PortCodec.Codec.Basic
import PortCodec.Codec.Build
import PortCodec.Codec.Mutation
import PortCodec.Codec.Registry
import PortCodec.Codec.Verification
import PortCodec.Command.Assignment
import PortCodec.Command.Basic
import PortCodec.Command.Check
import PortCodec.Command.Inspect
import PortCodec.Command.Movie
import PortCodec.Command.Run
import PortCodec.CommandLine.Grammar
import PortCodec.CommandLine.Help
import PortCodec.CommandLine.Invocation
import PortCodec.CommandLine.Reading
import PortCodec.CommandLine.Resolution
import PortCodec.Decimal.Binary64
import PortCodec.Decimal.Bounded
import PortCodec.Decimal.Calendar
import PortCodec.Decimal.Digits
import PortCodec.Decimal.Literal
import PortCodec.Decimal.Numeral
import PortCodec.Decimal.Shortest
import PortCodec.Document.Json
import PortCodec.Document.Json.Printer
import PortCodec.Document.Moment
import PortCodec.Document.Toml.Key
import PortCodec.Document.Toml.Reader
import PortCodec.Document.Toml.Table
import PortCodec.Document.Toml.Token
import PortCodec.Document.Value
import PortCodec.Document.Yaml.Cursor
import PortCodec.Document.Yaml.Evaluation
import PortCodec.Document.Yaml.Input
import PortCodec.Document.Yaml.Node
import PortCodec.Document.Yaml.Resolution
import PortCodec.Document.Yaml.Scalar
import PortCodec.Document.Yaml.Token
import PortCodec.Document.Yaml.Token.Lexer
import PortCodec.Document.Yaml.Token.Tag
import PortCodec.Files.Folder
import PortCodec.Files.Path
import PortCodec.Hash.Blake2b
import PortCodec.Layout.Basic
import PortCodec.Layout.Plan
import PortCodec.Line.Axis
import PortCodec.Line.Buffer
import PortCodec.Line.Codec
import PortCodec.Log.Handler
import PortCodec.Log.Logger
import PortCodec.Log.Record
import PortCodec.Main
import PortCodec.Port.Basic
import PortCodec.Port.Descriptor
import PortCodec.Port.Fault
import PortCodec.Port.Preset
import PortCodec.Port.Source
import PortCodec.Port.Validation
import PortCodec.Program.Basic
import PortCodec.Program.Calling
import PortCodec.Program.Dump
import PortCodec.Program.Listing
import PortCodec.Program.Loading
import PortCodec.Program.Region
import PortCodec.Program.Routine
import PortCodec.Proofs.Access
import PortCodec.Proofs.ArgumentMoves
import PortCodec.Proofs.Assignments
import PortCodec.Proofs.AxisText
import PortCodec.Proofs.AxisValue
import PortCodec.Proofs.BufferSafety
import PortCodec.Proofs.CallingConvention
import PortCodec.Proofs.CanonicalState
import PortCodec.Proofs.Cell
import PortCodec.Proofs.CompiledAccess
import PortCodec.Proofs.CompiledReading
import PortCodec.Proofs.CompiledWriting
import PortCodec.Proofs.Compiling.Compiled
import PortCodec.Proofs.Compiling.Routines
import PortCodec.Proofs.ControlIdentifiers
import PortCodec.Proofs.Descriptor.Acceptance
import PortCodec.Proofs.Descriptor.Fields
import PortCodec.Proofs.Descriptor.Grammar
import PortCodec.Proofs.Descriptor.Representation
import PortCodec.Proofs.EncodedInstruction
import PortCodec.Proofs.Encoding.Decoding
import PortCodec.Proofs.Encoding.Emission
import PortCodec.Proofs.Encoding.Operands
import PortCodec.Proofs.Encoding.Prefixes
import PortCodec.Proofs.Encoding.Shape
import PortCodec.Proofs.Encoding.Skeleton
import PortCodec.Proofs.FieldReading
import PortCodec.Proofs.Fields
import PortCodec.Proofs.HeaderNames
import PortCodec.Proofs.Identity
import PortCodec.Proofs.JumpTables
import PortCodec.Proofs.LabelArena
import PortCodec.Proofs.LineInjective
import PortCodec.Proofs.LineLength
import PortCodec.Proofs.LinkedImage
import PortCodec.Proofs.Linking.Edited
import PortCodec.Proofs.Linking.Linkable
import PortCodec.Proofs.Linking.Linked
import PortCodec.Proofs.Linking.Loaded
import PortCodec.Proofs.Linking.Placed
import PortCodec.Proofs.Linking.Relocated
import PortCodec.Proofs.LoadedCalls
import PortCodec.Proofs.Machine.Execution
import PortCodec.Proofs.Machine.Fetch
import PortCodec.Proofs.Machine.Memory
import PortCodec.Proofs.Machine.Processor
import PortCodec.Proofs.MethodNames
import PortCodec.Proofs.MoveOrder
import PortCodec.Proofs.NameWords
import PortCodec.Proofs.NoFalseAlarm
import PortCodec.Proofs.Outcome
import PortCodec.Proofs.Placement
import PortCodec.Proofs.PlanInvariant
import PortCodec.Proofs.ProgramBounds
import PortCodec.Proofs.RelocatableProgram
import PortCodec.Proofs.RoundTrip
import PortCodec.Proofs.Running.Access
import PortCodec.Proofs.Running.Decimal
import PortCodec.Proofs.Running.Deserialize
import PortCodec.Proofs.Running.Dispatch
import PortCodec.Proofs.Running.Frame
import PortCodec.Proofs.Running.Reading
import PortCodec.Proofs.Running.Rules
import PortCodec.Proofs.Running.Scene
import PortCodec.Proofs.Running.Serialize
import PortCodec.Proofs.Running.Stage
import PortCodec.Proofs.Running.Text
import PortCodec.Proofs.Running.Writing
import PortCodec.Proofs.SharedCodecs
import PortCodec.Proofs.SpelledValues
import PortCodec.Proofs.StepValue
import PortCodec.Proofs.StickyFaults
import PortCodec.Proofs.Storage
import PortCodec.Proofs.TextSize
import PortCodec.Proofs.Utf8
import PortCodec.Proofs.ValueAssignments
import PortCodec.Random.Pcg
import PortCodec.Random.Source
import PortCodec.Session
import PortCodec.Settings.Configuration
import PortCodec.Settings.Location
import PortCodec.Text.Columns
import PortCodec.Text.Letter
import PortCodec.Text.LetterCase
import PortCodec.Text.Printable
import PortCodec.Text.Quoted
import PortCodec.Text.Utf8
import PortCodec.X86.Convention
import PortCodec.X86.Decoder
import PortCodec.X86.Emitter
import PortCodec.X86.Execution
import PortCodec.X86.Instruction
import PortCodec.X86.Intel
import PortCodec.X86.Machine
import PortCodec.X86.Operand
import PortCodec.X86.Processor
