import Mcp.Protocol.RoundTrip
import Mcp.Protocol.ContentRoundTrip
import Mcp.Session.Correlation
import Mcp.Session.Closing
import Mcp.Session.Workers
import Mcp.Session.Responses
import Mcp.Tasks.StateMachine
import Mcp.Tasks.Notifications
import Mcp.Tasks.Concurrency
import Mcp.Server.ClientCapabilities
import Mcp.Server.Listing
import Mcp.Client.Advertised
import Mcp.Http.Teardown
import Mcp.Http.Refusals
import Mcp.Http.Sessions
import Mcp.Http.Routing
import Mcp.Http.CrossTalk
import Mcp.Http.ClosedTransport
import Mcp.Http.SseStream
import Mcp.Http.SessionId
import Mcp.Stdio.Stream
import Mcp.Http.SendQueue
import Mcp.Http.GetWorker
import Mcp.Http.Awaited
import Mcp.Http.ReplySlots
import Mcp.Http.StartGate
import Mcp.Http.GetStream
import Mcp.Session.Timeouts
import Mcp.Protocol.CatalogueRoundTrip
import Mcp.Protocol.SamplingRoundTrip
import Mcp.Server.TaskListing
import Mcp.Client.Requests
import Mcp.Protocol.Decoders
import Mcp.Server.Stopping
import Mcp.InvalidParams
import Mcp.Protocol.Integers
import Mcp.Session.Traffic
import Mcp.Spawns
import Mcp.Server.Cursors
import Mcp.Tasks.Expiry
import Mcp.Stdio.LineEndings
import Mcp.Http.SseGrammar
import Mcp.Http.Unauthorized
import Mcp.Http.Challenge
import Mcp.Http.ProtocolVersion
import Mcp.Client.Handshake
import Mcp.Session.Deadlines
import Mcp.Tasks.Representation
import Mcp.Tokens
import Mcp.RemoteCalls
import Mcp.Callbacks
import Mcp.Client.Notices
import Mcp.Tasks.Waiting
import Mcp.Exchange.Agreement
import Mcp.Http.ClientRequests
import Mcp.Http.Resumption
import Mcp.Http.Conveyance
import Mcp.Stdio.Closing
