/-
  CloudEvents envelopes: attributes, headers and data, the two ways to put them on a wire, and what
  carries them.
-/
import CloudEvents.Attribute
import CloudEvents.Binding
import CloudEvents.Channel
import CloudEvents.Cli.Arguments
import CloudEvents.Cli.Run
import CloudEvents.Config
import CloudEvents.ContentMode
import CloudEvents.ContentType
import CloudEvents.Decimal.Shortest
import CloudEvents.DefaultBinding
import CloudEvents.Error
import CloudEvents.Event
import CloudEvents.Exchange
import CloudEvents.Extension
import CloudEvents.Fresh
import CloudEvents.Header
import CloudEvents.Json.Choice
import CloudEvents.Json.Layout
import CloudEvents.Json.Number
import CloudEvents.Json.Numeral
import CloudEvents.Json.Quoted
import CloudEvents.Json.Scan
import CloudEvents.Json.Value
import CloudEvents.Main
import CloudEvents.Medium
import CloudEvents.Message
import CloudEvents.NameMap
import CloudEvents.Payload
import CloudEvents.Proofs.Binding.Default
import CloudEvents.Proofs.Channel.Delivery
import CloudEvents.Proofs.Channel.Exchange
import CloudEvents.Proofs.Channel.Mailboxes
import CloudEvents.Proofs.Channel.Publishing
import CloudEvents.Proofs.Cli.Agreement
import CloudEvents.Proofs.Event.Aside
import CloudEvents.Proofs.Event.Derivation
import CloudEvents.Proofs.Event.Edit
import CloudEvents.Proofs.Event.Lineage
import CloudEvents.Proofs.Event.Reachable
import CloudEvents.Proofs.Event.Session
import CloudEvents.Proofs.Event.Slots
import CloudEvents.Proofs.Event.WellFormed
import CloudEvents.Proofs.Json.Denotation
import CloudEvents.Proofs.Json.Grammar
import CloudEvents.Proofs.Json.Rendering
import CloudEvents.Proofs.Json.Spelling
import CloudEvents.Proofs.Text.Decimal
import CloudEvents.Proofs.Text.Hexadecimal
import CloudEvents.Proofs.Text.Trim
import CloudEvents.Proofs.Time.Calendar
import CloudEvents.Proofs.Time.Range
import CloudEvents.Proofs.Time.WireText
import CloudEvents.Proofs.TypedData.Cache
import CloudEvents.Proofs.Validation.Decoding
import CloudEvents.Proofs.Validation.Frame
import CloudEvents.Proofs.Validation.HeaderRules
import CloudEvents.Proofs.Validation.Kinds
import CloudEvents.Proofs.Validation.Repetition
import CloudEvents.Proofs.Wire.Accounting
import CloudEvents.Proofs.Wire.BinaryReading
import CloudEvents.Proofs.Wire.BinaryRoundTrip
import CloudEvents.Proofs.Wire.BinaryVerdict
import CloudEvents.Proofs.Wire.Framing
import CloudEvents.Proofs.Wire.Headers
import CloudEvents.Proofs.Wire.Interference
import CloudEvents.Proofs.Wire.MediaType
import CloudEvents.Proofs.Wire.Octets
import CloudEvents.Proofs.Wire.Records
import CloudEvents.Proofs.Wire.StructuredGrammar
import CloudEvents.Proofs.Wire.StructuredReading
import CloudEvents.Proofs.Wire.StructuredRelay
import CloudEvents.Proofs.Wire.StructuredRoundTrip
import CloudEvents.Proofs.Wire.TimeRelay
import CloudEvents.Proofs.Wire.TypedHeaders
import CloudEvents.Registry
import CloudEvents.Session
import CloudEvents.Text.Ascii
import CloudEvents.Text.Base64
import CloudEvents.Text.Blank
import CloudEvents.Text.Integer
import CloudEvents.Text.Split
import CloudEvents.Text.Utf8
import CloudEvents.Time.Calendar
import CloudEvents.Time.Duration
import CloudEvents.Time.Instant
import CloudEvents.TypedData.DataType
import CloudEvents.TypedData.JsonForm
import CloudEvents.TypedData.View
import CloudEvents.TypedData.XmlForm
import CloudEvents.TypedData.XmlValue
import CloudEvents.Uri
import CloudEvents.Uuid
import CloudEvents.Validation
import CloudEvents.Wire.Binary
import CloudEvents.Wire.Codec
import CloudEvents.Wire.Framing
import CloudEvents.Wire.Record
import CloudEvents.Wire.Structured
import CloudEvents.Xml.Node
import CloudEvents.Xml.Reference
import CloudEvents.Xml.Token
