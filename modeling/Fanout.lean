import Fanout.Live.Client
import Fanout.Main
import Fanout.Proofs.Live.Failure
import Fanout.Proofs.Live.Isolation
import Fanout.Proofs.Live.Reach
import Fanout.Proofs.Live.Registry
import Fanout.Proofs.Live.Wake
import Fanout.Proofs.Live.Deadline
import Fanout.Proofs.Live.Delivery
import Fanout.Proofs.Live.Settling
import Fanout.Proofs.Live.Alike
import Fanout.Proofs.Live.Seen
import Fanout.Proofs.Live.Matched
import Fanout.Proofs.Live.Clock
import Fanout.Proofs.Live.Session
import Fanout.Proofs.Live.Independence
import Fanout.Proofs.Live.Outbound
import Fanout.Proofs.Live.Listen
import Fanout.Proofs.Live.Closing
import Fanout.Proofs.Live.Forwarding
import Fanout.Proofs.Event.Envelope
import Fanout.Proofs.Json.Entries
import Fanout.Proofs.Event.Tenancy
import Fanout.Proofs.Text.Base64Url
import Fanout.Proofs.Token.Parts
import Fanout.Proofs.Token.Header
import Fanout.Proofs.Token.Acceptance
import Fanout.Proofs.Token.Minting
import Fanout.Proofs.Http.Socket
import Fanout.Proofs.Json.Literal
import Fanout.Proofs.Live.Broadcast
import Fanout.Proofs.Event.LastTenant
import Fanout.Proofs.Live.Lifecycle
import Fanout.Proofs.Live.Cleanup
import Fanout.Proofs.Settings.Policy
import Fanout.Proofs.Settings.Fields
import Fanout.Proofs.Token.Calendar
import Fanout.Proofs.Http.Credential
import Fanout.Proofs.Live.Interference
