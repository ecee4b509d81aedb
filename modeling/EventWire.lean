import EventWire.Text.Ranges
import EventWire.Text.Letter
import EventWire.Text.Numeral
import EventWire.Text.Unseen
import EventWire.Text.Blank
import EventWire.Text.Ascii
import EventWire.Text.Quoted
import EventWire.Bytes
import EventWire.Text.Utf8
import EventWire.Decimal.Binary64
import EventWire.Decimal.Shortest
import EventWire.Decimal.Layout
import EventWire.Json.Basic
import EventWire.Json.Token
import EventWire.Json.Source
import EventWire.Json.Printer
import EventWire.Name
import EventWire.EventId
import EventWire.Charset
import EventWire.Base64
import EventWire.MediaType.Token
import EventWire.MediaType.Basic
import EventWire.MediaType.Printer
import EventWire.MediaType.Parser
import EventWire.Xml.Name
import EventWire.Xml.Namespace
import EventWire.Xml.Node
import EventWire.Xml.Escape
import EventWire.Xml.Event
import EventWire.Xml.Attributes
import EventWire.Xml.Document
import EventWire.Xml.Printer
import EventWire.Xml.Finding
import EventWire.Xml.Adapter
import EventWire.Xml.Markup
import EventWire.Record
import EventWire.Value
import EventWire.Class.Json
import EventWire.Class.XmlWriter
import EventWire.Class.XmlReader
import EventWire.Class.Basic
import EventWire.Codec.Error
import EventWire.Codec.Policy
import EventWire.Registry.Table
import EventWire.Codec.Basic
import EventWire.Codec.Marshal
import EventWire.Registry.Readers
import EventWire.Registry.Basic
import EventWire.Registry.Serialize
import EventWire.Payload.Basic
import EventWire.Envelope.Error
import EventWire.Payload.Wire
import EventWire.Envelope.Meta
import EventWire.Envelope.Event
import EventWire.Envelope.Events
import EventWire.Stream
import EventWire.Bookshop
import EventWire.Toml.Document
import EventWire.Config.Source
import EventWire.Config.Registry
import EventWire.Proofs.Except
import EventWire.Proofs.Blank
import EventWire.Proofs.Base64
import EventWire.Proofs.Utf8
import EventWire.Proofs.Charset
import EventWire.Proofs.EventId
import EventWire.Proofs.MediaType.Token
import EventWire.Proofs.MediaType.Parts
import EventWire.Proofs.MediaType.Spelling
import EventWire.Proofs.MediaType
import EventWire.Proofs.Json.Token
import EventWire.Proofs.Json.Tree
import EventWire.Proofs.Json.Read
import EventWire.Proofs.Json.RoundTrip
import EventWire.Proofs.Xml.Tree
import EventWire.Proofs.Xml.Reader
import EventWire.Proofs.Xml.Distinct
import EventWire.Proofs.Xml.Normal
import EventWire.Proofs.Xml.Elements
import EventWire.Proofs.Xml.Written
import EventWire.Proofs.Xml.Escape
import EventWire.Proofs.Xml.Lexing
import EventWire.Proofs.Xml.Attributes
import EventWire.Proofs.Xml.Declaration
import EventWire.Proofs.Xml.RoundTrip
import EventWire.Proofs.Config.Registry
import EventWire.Proofs.Payload.ReadBack
import EventWire.Proofs.Payload.Marshal
import EventWire.Proofs.Envelope.ReadBack
import EventWire.Proofs.Envelope.Json
import EventWire.Proofs.Envelope.Xml
import EventWire.Proofs.Envelope.Bytes
import EventWire.Proofs.Envelope.Domain
import EventWire.Proofs.Registry.Calls
import EventWire.Proofs.Xml.Joined
import EventWire.Proofs.Xml.Settled
import EventWire.Proofs.Codec.Xml
import EventWire.Proofs.Xml.Built
import EventWire.Proofs.Payload.Unmarshal
import EventWire.Proofs.Envelope.Deserialize
import EventWire.Proofs.Codec.Charset
import EventWire.Proofs.Registry.Reading
import EventWire.Proofs.Registry.Order
import EventWire.Proofs.Config.Usable
import EventWire.Proofs.Config.Answers
import EventWire.Proofs.Config.Source
import EventWire.Proofs.Envelope.Agreement
import EventWire.Proofs.Envelope.Names
import EventWire.Proofs.Envelope.Kinds
import EventWire.Proofs.Envelope.Adapters
import EventWire.Proofs.Envelope.Depth
import EventWire.Proofs.Xml.AsRead
import EventWire.Proofs.Payload.AsRead
import EventWire.Proofs.Envelope.Reread
import EventWire.Proofs.MediaType.Quoted
import EventWire.Proofs.Xml.Tags
import EventWire.Proofs.Xml.Readable
import EventWire.Proofs.Xml.Parts
import EventWire.Proofs.Xml.Placed
import EventWire.Proofs.Xml.Outcome
import EventWire.Proofs.Base64.Cache
import EventWire.Proofs.Registry.CommonMediaType
import EventWire.Proofs.Envelope.Malformed
import EventWire.Proofs.Envelope.Undecodable
import EventWire.Proofs.Xml.Cdata
import EventWire.Proofs.Codec.Findings
import EventWire.Proofs.Envelope.Foreign
