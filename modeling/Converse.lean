import Converse.Http.Header
import Converse.Http.MediaType
import Converse.Http.Message
import Converse.Http.Status
import Converse.Http.Wire
import Converse.Json.Basic
import Converse.Json.Decode
import Converse.Json.Draft
import Converse.Json.Reader
import Converse.Json.Writer
import Converse.Link.Delivery
import Converse.Link.Failure
import Converse.Link.Feed
import Converse.Link.Quota
import Converse.Link.Refusal
import Converse.Link.Relay
import Converse.Link.Service
import Converse.Main
import Converse.Number.Double
import Converse.Number.Numeral
import Converse.Number.Shortest
import Converse.Proofs.Talk.Coherence
import Converse.Proofs.Talk.Course
import Converse.Proofs.Talk.Identity
import Converse.Proofs.Talk.Meaning
import Converse.Proofs.Talk.Observer
import Converse.Proofs.Talk.Ownership
import Converse.Reply.ErrorKind
import Converse.Reply.Event
import Converse.Reply.Frame
import Converse.Reply.Lines
import Converse.Reply.Question
import Converse.Talk.Backlog
import Converse.Talk.Message
import Converse.Talk.Mishap
import Converse.Talk.Notice
import Converse.Talk.Session
import Converse.Talk.Snapshot
import Converse.Talk.Switch
import Converse.Talk.ToolRun
import Converse.Terminal.Command
import Converse.Terminal.Console
import Converse.Terminal.Live
import Converse.Terminal.Log
import Converse.Terminal.Options
import Converse.Terminal.Preferences
import Converse.Terminal.Program
import Converse.Terminal.Render
import Converse.Terminal.Surroundings
import Converse.Text.Blank
import Converse.Text.CaseTable
import Converse.Text.EscapeTable
import Converse.Text.Lowercase
import Converse.Text.Quoted
import Converse.Text.Utf8
import Converse.Toml.Quoted
import Converse.Toml.Reader
import Converse.Toml.Scalar
import Converse.Toml.Table
import Converse.Toml.Writer
import Converse.Url.Basic
import Converse.Url.Host
import Converse.Url.Percent
import Converse.Url.Punycode
import Converse.Proofs.Talk.Cancellation
import Converse.Proofs.Talk.Grammar
import Converse.Proofs.Talk.Likeness
import Converse.Proofs.Talk.FreshStart
import Converse.Proofs.Talk.Consultation
import Converse.Proofs.Talk.Publication
import Converse.Proofs.Talk.Exchange
import Converse.Proofs.Talk.Growth
import Converse.Proofs.Talk.Inquiry
import Converse.Proofs.Talk.LateStop
import Converse.Proofs.Json.Settled
import Converse.Proofs.Json.Grammar
import Converse.Proofs.Json.Reading
import Converse.Proofs.Json.Writing
import Converse.Proofs.Json.Records
import Converse.Proofs.Reply.Decoding
import Converse.Proofs.Reply.RoundTrip
import Converse.Proofs.Link.Relaying
import Converse.Proofs.Talk.Intake
import Converse.Proofs.Talk.Naming
import Converse.Proofs.Terminal.Advice
import Converse.Proofs.Terminal.Following
import Converse.Proofs.Terminal.Showing
import Converse.Proofs.Terminal.Thread
import Converse.Proofs.Terminal.Prompt
import Converse.Proofs.Talk.Toolwork
import Converse.Proofs.Talk.Precedence
import Converse.Proofs.Talk.Overlap
import Converse.Proofs.Json.Recovery
import Converse.Proofs.Talk.Recording
import Converse.Proofs.Talk.Provenance
import Converse.Proofs.Talk.Indifference
import Converse.Proofs.Talk.Sending
import Converse.Proofs.Talk.Retrying
import Converse.Proofs.Talk.Keeping
import Converse.Proofs.Talk.Stepping
import Converse.Proofs.Talk.Noise
import Converse.Proofs.Text.Encoding
import Converse.Proofs.Link.Refusing
import Converse.Proofs.Text.Trimming
import Converse.Proofs.Number.Decimal
import Converse.Proofs.Text.Decoding
import Converse.Proofs.Link.Granting
import Converse.Proofs.Toml.Writing
import Converse.Proofs.Terminal.Settling
import Converse.Proofs.Terminal.Wording
