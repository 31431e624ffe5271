import PushFeed.Channel.Basic
import PushFeed.Channel.Follow
import PushFeed.Channel.Frames
import PushFeed.Channel.Handle
import PushFeed.Channel.Message
import PushFeed.Channel.Options
import PushFeed.Channel.Reconnect
import PushFeed.Channel.State
import PushFeed.Channel.Turn
import PushFeed.Connection.Action
import PushFeed.Connection.Basic
import PushFeed.Connection.Hub
import PushFeed.Connection.Mailbox
import PushFeed.Connection.Transport
import PushFeed.Control.ClientMessage
import PushFeed.Control.ReadyState
import PushFeed.Control.ServerText
import PushFeed.Error
import PushFeed.Feed
import PushFeed.Json.Basic
import PushFeed.Json.Document
import PushFeed.Json.Fault
import PushFeed.Json.Printer
import PushFeed.Json.Reader
import PushFeed.Json.Token
import PushFeed.Log
import PushFeed.Main
import PushFeed.Market.Book
import PushFeed.Market.OfFrames
import PushFeed.Market.Price
import PushFeed.Market.Structured
import PushFeed.Number.Binary64
import PushFeed.Number.Decimal
import PushFeed.Number.Decimal.OfBinary64
import PushFeed.Number.Decimal.Reading
import PushFeed.Number.Overflow
import PushFeed.Number.Power
import PushFeed.Number.Rounding
import PushFeed.Number.Shortest
import PushFeed.Number.Whole
import PushFeed.Polled
import PushFeed.Schedule
import PushFeed.Schema.Cache
import PushFeed.Schema.Catalog
import PushFeed.Schema.Codec
import PushFeed.Schema.Envelope
import PushFeed.Schema.MarketPrice
import PushFeed.Schema.OrderBook
import PushFeed.Session
import PushFeed.Settings
import PushFeed.Text.Blank
import PushFeed.Text.Hidden
import PushFeed.Text.Quoted
import PushFeed.Text.Size
import PushFeed.Time.Calendar
import PushFeed.Time.Delay
import PushFeed.Time.Instant
import PushFeed.Time.Rfc3339
import PushFeed.Topic
import PushFeed.Url.Address
import PushFeed.Url.Domain
import PushFeed.Url.Encoding
import PushFeed.Url.Host
import PushFeed.Url.Parse
import PushFeed.Url.Path
import PushFeed.Url.Punycode
import PushFeed.Watch
import PushFeed.Watched
import PushFeed.Wire.Conformance
import PushFeed.Wire.Fault
import PushFeed.Wire.Field
import PushFeed.Wire.Layout
import PushFeed.Wire.Reading
import PushFeed.Wire.Structured
import PushFeed.Wire.Varint
import PushFeed.Wire.Writing
import PushFeed.Proofs.Channel.Move
import PushFeed.Proofs.Connection.Queue
import PushFeed.Proofs.Channel.Effect
import PushFeed.Proofs.Channel.Asking
import PushFeed.Proofs.Session.Run
import PushFeed.Proofs.Session.Requests
import PushFeed.Proofs.Channel.Attempts
import PushFeed.Proofs.Session.Stalls
import PushFeed.Proofs.Wire.Fields
import PushFeed.Proofs.Wire.RoundTrip
import PushFeed.Proofs.Schema.Sources
import PushFeed.Proofs.Schema.Crossing
import PushFeed.Proofs.Schema.Cache
import PushFeed.Proofs.Channel.Stream
import PushFeed.Proofs.Channel.Subjects
import PushFeed.Proofs.Session.Isolation
import PushFeed.Proofs.Channel.Closing
import PushFeed.Proofs.Session.Closing
import PushFeed.Proofs.Connection.Succession
import PushFeed.Proofs.Session.Succession
import PushFeed.Proofs.Channel.Replacing
import PushFeed.Proofs.Session.Replacing
import PushFeed.Proofs.Connection.Lists
import PushFeed.Proofs.Channel.Listening
import PushFeed.Proofs.Session.Listening
import PushFeed.Proofs.Channel.Abreast
import PushFeed.Proofs.Session.Abreast
import PushFeed.Proofs.Wire.Normal
import PushFeed.Proofs.Wire.Extent
import PushFeed.Proofs.Schema.Normal
import PushFeed.Proofs.Wire.Records
import PushFeed.Proofs.Wire.Cut
import PushFeed.Proofs.Schema.Cut
import PushFeed.Proofs.Channel.Intake
import PushFeed.Proofs.Session.Stream
import PushFeed.Proofs.Connection.Lifecycle
import PushFeed.Proofs.Connection.FanOut
import PushFeed.Proofs.Channel.Course
import PushFeed.Proofs.Session.Course
import PushFeed.Proofs.Channel.Waiting
import PushFeed.Proofs.Session.Waiting
import PushFeed.Proofs.Schema.Typed
import PushFeed.Proofs.Session.Typed
import PushFeed.Proofs.Connection.Carrying
import PushFeed.Proofs.Channel.Parting
import PushFeed.Proofs.Session.Parting
import PushFeed.Proofs.Connection.Without
import PushFeed.Proofs.Channel.Without
import PushFeed.Proofs.Session.Without
import PushFeed.Proofs.Schema.Agreement
import PushFeed.Proofs.Schema.Lookups
import PushFeed.Proofs.Schema.Transparency
import PushFeed.Proofs.Channel.Timing
import PushFeed.Proofs.Session.Timing
import PushFeed.Proofs.Wire.Spelling
import PushFeed.Proofs.Wire.Grammar
import PushFeed.Proofs.Wire.Unfinished
import PushFeed.Proofs.Wire.Faults
import PushFeed.Proofs.Schema.Undeclared
import PushFeed.Proofs.Schema.Causes
import PushFeed.Proofs.Schema.Completion
import PushFeed.Proofs.Number.Value
import PushFeed.Proofs.Number.Conversion
import PushFeed.Proofs.Market.Sides
import PushFeed.Proofs.Market.Frames
import PushFeed.Proofs.Market.Books
import PushFeed.Proofs.Market.Percentages
import PushFeed.Proofs.Json.Strings
import PushFeed.Proofs.Json.Objects
import PushFeed.Proofs.Topic.Keys
import PushFeed.Proofs.Topic.Resolution
import PushFeed.Proofs.Control.Messages
import PushFeed.Proofs.Number.Order
import PushFeed.Proofs.Market.BestBid
import PushFeed.Proofs.Topic.Retention
import PushFeed.Proofs.Wire.Violations
import PushFeed.Proofs.Schema.Violations
import PushFeed.Proofs.Channel.Deadlines
import PushFeed.Proofs.Session.Deadlines
