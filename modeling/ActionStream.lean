import ActionStream.Action.Basic
import ActionStream.Action.Block
import ActionStream.Action.Checked
import ActionStream.Action.Plain
import ActionStream.Action.Read
import ActionStream.Action.Size
import ActionStream.Action.Write
import ActionStream.Command.Arguments
import ActionStream.Command.Check
import ActionStream.Command.Path
import ActionStream.Command.Run
import ActionStream.Command.Trace
import ActionStream.Configuration.Choice
import ActionStream.Configuration.File
import ActionStream.Configuration.Setting
import ActionStream.Context
import ActionStream.Error
import ActionStream.Interchange.Configuration
import ActionStream.Interchange.Decode
import ActionStream.Interchange.Encode
import ActionStream.Json.Decoder
import ActionStream.Json.Document
import ActionStream.Json.Lexeme
import ActionStream.Json.Literal
import ActionStream.Json.Value
import ActionStream.Listing
import ActionStream.Main
import ActionStream.Number.Binary32
import ActionStream.Number.Binary64
import ActionStream.Number.Decimal
import ActionStream.Opcode
import ActionStream.Operand.Index
import ActionStream.Operand.Property
import ActionStream.Operand.Push
import ActionStream.Proofs.Action.BlockHeader
import ActionStream.Proofs.Action.BlockWritten
import ActionStream.Proofs.Action.Classification
import ActionStream.Proofs.Action.Concatenation
import ActionStream.Proofs.Action.Constructors
import ActionStream.Proofs.Action.Decoding
import ActionStream.Proofs.Action.Depth
import ActionStream.Proofs.Action.Encodable
import ActionStream.Proofs.Action.Encoding
import ActionStream.Proofs.Action.Failures
import ActionStream.Proofs.Action.Isolation
import ActionStream.Proofs.Action.Layout
import ActionStream.Proofs.Action.Leniency
import ActionStream.Proofs.Action.Locality
import ActionStream.Proofs.Action.Lossless
import ActionStream.Proofs.Action.Opcodes
import ActionStream.Proofs.Action.Operations
import ActionStream.Proofs.Action.Oversize
import ActionStream.Proofs.Action.PlainHeader
import ActionStream.Proofs.Action.PlainWritten
import ActionStream.Proofs.Action.Recording
import ActionStream.Proofs.Action.Recovery
import ActionStream.Proofs.Action.Refusals
import ActionStream.Proofs.Action.RegionDecoding
import ActionStream.Proofs.Action.Regions
import ActionStream.Proofs.Action.Rewriting
import ActionStream.Proofs.Action.RoundTrip
import ActionStream.Proofs.Action.Stream
import ActionStream.Proofs.Action.Tree
import ActionStream.Proofs.Action.Truncation
import ActionStream.Proofs.Command.Verdict
import ActionStream.Proofs.Interchange.Fields
import ActionStream.Proofs.Interchange.RoundTrip
import ActionStream.Proofs.Interchange.Soundness
import ActionStream.Proofs.Json.Lexing
import ActionStream.Proofs.Json.Nesting
import ActionStream.Proofs.Json.Numeral
import ActionStream.Proofs.Json.Recovering
import ActionStream.Proofs.Json.Spelling
import ActionStream.Proofs.Listing.Lines
import ActionStream.Proofs.Listing.OneLine
import ActionStream.Proofs.Number.Magnitude
import ActionStream.Proofs.Number.Nearest
import ActionStream.Proofs.Number.Truncation
import ActionStream.Proofs.Operand.Form
import ActionStream.Proofs.Operand.Lossless
import ActionStream.Proofs.Operand.PropertyWord
import ActionStream.Proofs.Operand.Shown
import ActionStream.Proofs.Operand.Written
import ActionStream.Proofs.Text.Coverage
import ActionStream.Proofs.Text.Delimited
import ActionStream.Proofs.Text.Quoting
import ActionStream.Proofs.Text.RoundTrip
import ActionStream.Proofs.Text.Utf8
import ActionStream.Proofs.Text.Words
import ActionStream.Proofs.Wire.Accepting
import ActionStream.Proofs.Wire.Appending
import ActionStream.Proofs.Wire.Confined
import ActionStream.Proofs.Wire.Embedding
import ActionStream.Proofs.Wire.Emitting
import ActionStream.Proofs.Wire.Outcome
import ActionStream.Proofs.Wire.Restricting
import ActionStream.Proofs.Wire.Sequence
import ActionStream.Proofs.Wire.Word
import ActionStream.Text.Blank
import ActionStream.Text.Hex
import ActionStream.Text.Quoted
import ActionStream.Text.Utf8
import ActionStream.Text.Visible
import ActionStream.Wire.Buffer
import ActionStream.Wire.Cursor
import ActionStream.Wire.LittleEndian
