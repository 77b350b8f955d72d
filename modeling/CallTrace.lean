import CallTrace.Address
import CallTrace.Bson.Basic
import CallTrace.Bson.Decimal128
import CallTrace.Bson.Parser
import CallTrace.Bson.Printer
import CallTrace.Bson.Spelling
import CallTrace.Bson.Text
import CallTrace.Bson.Window
import CallTrace.Buffer
import CallTrace.BufferDirectory
import CallTrace.Bytes.Base64
import CallTrace.Bytes.Basic
import CallTrace.Bytes.Hex
import CallTrace.Bytes.LittleEndian
import CallTrace.Bytes.Sha1
import CallTrace.Calendar.Date
import CallTrace.Calendar.Moment
import CallTrace.Calendar.Rfc3339
import CallTrace.CallTable
import CallTrace.Category
import CallTrace.Decimal.Binary64
import CallTrace.Decimal.Layout
import CallTrace.Decimal.Reading
import CallTrace.Decimal.Shortest
import CallTrace.DecodeError
import CallTrace.Flags
import CallTrace.Frame.Error
import CallTrace.Frame.Handshake
import CallTrace.Frame.Reading
import CallTrace.Frame.Writing
import CallTrace.Json.Basic
import CallTrace.Json.Quoted
import CallTrace.Linux
import CallTrace.Message.Basic
import CallTrace.Message.Codec
import CallTrace.Message.Document
import CallTrace.Process
import CallTrace.Proofs.Bson.Parsed
import CallTrace.Proofs.Bson.RoundTrip
import CallTrace.Proofs.Bytes.Base64
import CallTrace.Proofs.Bytes.Checksum
import CallTrace.Proofs.Delivery.Displaced
import CallTrace.Proofs.Delivery.Expected
import CallTrace.Proofs.Delivery.Heard
import CallTrace.Proofs.Delivery.Limit
import CallTrace.Proofs.Delivery.Reserved
import CallTrace.Proofs.Delivery.Run
import CallTrace.Proofs.Delivery.Step
import CallTrace.Proofs.Frame.Answer
import CallTrace.Proofs.Frame.Grammar
import CallTrace.Proofs.Frame.Handshake
import CallTrace.Proofs.Frame.Opening
import CallTrace.Proofs.Frame.Progress
import CallTrace.Proofs.Frame.Sending
import CallTrace.Proofs.Frame.Sequence
import CallTrace.Proofs.Frame.Transfer
import CallTrace.Proofs.Json.Unbroken
import CallTrace.Proofs.Message.Relay
import CallTrace.Proofs.Message.RoundTrip
import CallTrace.Proofs.Message.Transit
import CallTrace.Proofs.Process.Filetime
import CallTrace.Proofs.Process.Layouts
import CallTrace.Proofs.Receiver.Announcements
import CallTrace.Proofs.Receiver.Beside
import CallTrace.Proofs.Receiver.Calls
import CallTrace.Proofs.Receiver.Cursor
import CallTrace.Proofs.Receiver.Cut
import CallTrace.Proofs.Receiver.Dropping
import CallTrace.Proofs.Receiver.Dumps
import CallTrace.Proofs.Receiver.Feed
import CallTrace.Proofs.Receiver.Messages
import CallTrace.Proofs.Receiver.Pull
import CallTrace.Proofs.Receiver.Refusal
import CallTrace.Proofs.Receiver.Replay
import CallTrace.Proofs.Receiver.Requests
import CallTrace.Proofs.Receiver.Schedule
import CallTrace.Proofs.Receiver.Symbols
import CallTrace.Proofs.Record.Lines
import CallTrace.Proofs.Schema.Categories
import CallTrace.Proofs.Schema.Descriptions
import CallTrace.Proofs.Sender.Attempt
import CallTrace.Proofs.Sender.Description
import CallTrace.Proofs.Sender.Language
import CallTrace.Proofs.Sender.Log
import CallTrace.Proofs.Sender.Reliable
import CallTrace.Proofs.Sender.Sealing
import CallTrace.Proofs.Stream.Intake
import CallTrace.Proofs.Stream.Pieces
import CallTrace.Proofs.Stream.Script
import CallTrace.Proofs.Stream.Supply
import CallTrace.Proofs.Text.Hexadecimal
import CallTrace.Proofs.Text.Octets
import CallTrace.Proofs.Text.Trimmed
import CallTrace.Proofs.Value.FlagBits
import CallTrace.Proofs.Value.FlagTables
import CallTrace.Proofs.Value.Resolution
import CallTrace.Receiver.Basic
import CallTrace.Receiver.Session
import CallTrace.Record.Basic
import CallTrace.Record.Lines
import CallTrace.Schema
import CallTrace.Sender.Basic
import CallTrace.SortedMap
import CallTrace.Stream.Failure
import CallTrace.Stream.Sink
import CallTrace.Stream.Source
import CallTrace.Text.Blank
import CallTrace.Text.Numeral
import CallTrace.Text.Utf8
import CallTrace.Toml.Basic
import CallTrace.Toml.Lexeme
import CallTrace.Toml.Parser
import CallTrace.Value.Basic
import CallTrace.Value.Converter
