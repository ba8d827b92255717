import Courier.Backoff
import Courier.Body
import Courier.CommandLine.Grammar
import Courier.CommandLine.Invocation
import Courier.Crash
import Courier.Exchange.Error
import Courier.Exchange.Reject
import Courier.Exchange.Send
import Courier.Exchange.World
import Courier.Failure
import Courier.Files.Path
import Courier.Files.Tree
import Courier.Http.Headers
import Courier.Http.Method
import Courier.Http.Status
import Courier.Json.Reader
import Courier.Json.Value
import Courier.Main
import Courier.Number.Binary64
import Courier.Number.Decimal
import Courier.Number.Integer
import Courier.Perform
import Courier.Polling.Loop
import Courier.Polling.Operation
import Courier.Prepare
import Courier.Program
import Courier.Proofs.Bodies.Closing
import Courier.Proofs.Bodies.Ledger
import Courier.Proofs.Bodies.Polling
import Courier.Proofs.Bodies.Responders
import Courier.Proofs.Bodies.Runs
import Courier.Proofs.Bodies.Senders
import Courier.Proofs.Bodies.Settled
import Courier.Proofs.Bodies.Uses
import Courier.Proofs.Cancellation.Calls
import Courier.Proofs.Cancellation.Conduct
import Courier.Proofs.Cancellation.Endless
import Courier.Proofs.Cancellation.Passage
import Courier.Proofs.Cancellation.Senders
import Courier.Proofs.Cancellation.Stops
import Courier.Proofs.Cancellation.Waits
import Courier.Proofs.Exchange.Actions
import Courier.Proofs.Exchange.Gate
import Courier.Proofs.Exchange.Invariants
import Courier.Proofs.Exchange.Iterate
import Courier.Proofs.Exchange.Stages
import Courier.Proofs.Exchange.Writing
import Courier.Proofs.Files.Operations
import Courier.Proofs.Files.Places
import Courier.Proofs.Json.Complete
import Courier.Proofs.Json.Grammar
import Courier.Proofs.Json.Objects
import Courier.Proofs.Json.Positional
import Courier.Proofs.Json.Quoted
import Courier.Proofs.Json.Sound
import Courier.Proofs.Judgement.Classification
import Courier.Proofs.Judgement.Runs
import Courier.Proofs.Judgement.Shapes
import Courier.Proofs.Judgement.Verdict
import Courier.Proofs.Judgement.Wrapping
import Courier.Proofs.Layers.Onion
import Courier.Proofs.Layers.Transparent
import Courier.Proofs.Number.Arithmetic
import Courier.Proofs.Number.Order
import Courier.Proofs.Number.Powers
import Courier.Proofs.Number.Rounding
import Courier.Proofs.Polling.Calls
import Courier.Proofs.Polling.History
import Courier.Proofs.Polling.Inspection
import Courier.Proofs.Polling.Location
import Courier.Proofs.Polling.Outcome
import Courier.Proofs.Polling.Schedule
import Courier.Proofs.Polling.Span
import Courier.Proofs.Polling.Turn
import Courier.Proofs.Preparing.Accepted
import Courier.Proofs.Preparing.Carried
import Courier.Proofs.Preparing.Order
import Courier.Proofs.Preparing.Parameters
import Courier.Proofs.Preparing.Replacing
import Courier.Proofs.Preparing.Segments
import Courier.Proofs.Preparing.Steps
import Courier.Proofs.Preparing.UrlParts
import Courier.Proofs.Program.Exits
import Courier.Proofs.Retry.Attempts
import Courier.Proofs.Retry.Doubling
import Courier.Proofs.Retry.Formula
import Courier.Proofs.Retry.Growth
import Courier.Proofs.Retry.Nested
import Courier.Proofs.Retry.Turn
import Courier.Proofs.Retry.Window
import Courier.Proofs.Secrecy.Token
import Courier.Proofs.Secrecy.Veil
import Courier.Proofs.Settings.Drafts
import Courier.Proofs.Settings.Fields
import Courier.Proofs.Settings.Forms
import Courier.Proofs.Settings.Merging
import Courier.Proofs.Settings.Refusals
import Courier.Proofs.Settings.Room
import Courier.Proofs.Settings.Tables
import Courier.Proofs.Text.Utf8
import Courier.Proofs.Time.Calendar
import Courier.Proofs.Time.Fields
import Courier.Proofs.Time.Rereading
import Courier.Proofs.Time.Seconds
import Courier.Proofs.Time.Written
import Courier.Proofs.TokenFiles.Contents
import Courier.Proofs.TokenFiles.Saving
import Courier.Proofs.TokenFiles.Sharing
import Courier.Proofs.Tokens.Expiry
import Courier.Proofs.Url.Addresses
import Courier.Proofs.Url.Authorities
import Courier.Proofs.Url.Forms
import Courier.Proofs.Url.Hosts
import Courier.Proofs.Url.Paths
import Courier.Proofs.Url.Reading
import Courier.Proofs.Url.Rereading
import Courier.Proofs.Url.Texts
import Courier.Request
import Courier.Respond.Error
import Courier.Respond.Step
import Courier.Response
import Courier.Service.ErrorBody
import Courier.Service.Token
import Courier.Service.TokenFile
import Courier.Session
import Courier.Settings.Basic
import Courier.Settings.Error
import Courier.Settings.File
import Courier.Settings.Merge
import Courier.Settings.Template
import Courier.Text.Blank
import Courier.Text.Hex
import Courier.Text.Quoted
import Courier.Text.Utf8
import Courier.Text.Visible
import Courier.Time.Calendar
import Courier.Time.DateJson
import Courier.Time.Duration
import Courier.Time.HttpDate
import Courier.Time.Instant
import Courier.Time.Timer
import Courier.Toml.Draft
import Courier.Toml.Reader
import Courier.Toml.Scalar
import Courier.Toml.Text
import Courier.Toml.Value
import Courier.Url.Basic
import Courier.Url.Edit
import Courier.Url.Host
import Courier.Url.Parser
import Courier.Url.Path
import Courier.Url.Percent
import Courier.Url.Punycode
