import Mcp.Http.ClientTransport
import Mcp.Http.GetStream
import Mcp.Http.ReplySlots
import Mcp.Http.StartGate

/-! An HttpClientTransport and the session of the host that it has to itself: POSTs that wait for
their responses, the GET stream, and connections that break off anywhere. -/
namespace Mcp.Http.Link

open Transition SessionTransport

/-- The last two fields record what happened. -/
structure State (codec : Codec) where
  client : ClientTransport.State
  host : Streams codec
  /-- Requests on their way, each with the POST of the client that waits for its response. -/
  transit : List (String × Option ℕ)
  /-- The POST that waits for the response of a thread of the host. -/
  serves : ℕ → Option ℕ
  /-- The GET stream that the client reads, and what has been written on it and not read. -/
  stream : Option (ℕ × Bytes)
  /-- The frames that `on_message_` of the session has been called with. -/
  taken : List String
  /-- The frames that the Session has sent. -/
  sent : List String

variable {codec : Codec}

/-- The event that the provider writes for a frame. -/
def event (frame : String) : Bytes := "data: ".toList ++ frame.toList ++ "\n\n".toList

def heartbeat : Bytes := ":\n\n".toList

/-- Of what is written, a write that fails may leave a part on the way. -/
structure Wrote (ok : Bool) (whole text : Bytes) : Prop where
  part : text <+: whole
  all : ok = true → text = whole

/-- The response of the host as the client finds it. -/
def dress (sid : String) (res : Response) : Response where
  status := res.status
  headers := ("Mcp-Session-Id", sid) :: (if res.status = 202 then [] else
    [("Content-Type", if res.status = 200 then "application/json" else "text/plain")])
  content := res.content

/-- A stream that the client does not read takes what is written nowhere. -/
def State.carry (s : State codec) (g : ℕ) (text : Bytes) : Option (ℕ × Bytes) :=
  s.stream.map fun c => if c.1 = g then (c.1, c.2 ++ text) else c

/-- The frames a step hands to the Session. -/
def State.hands (s : State codec) : Streams.Action codec → List String
  | .other a => (s.host.transport.hands a).map fun h => h.2.raw
  | _ => []

/-- The frame a step of send() is about. -/
def sends (h : SessionTransport.State codec) : SessionTransport.Action codec → List String
  | .route t => match h.pc t with
    | .answering _ _ m => [m.frame]
    | _ => []
  | .push t => match h.pc t with
    | .emitting m => [m.frame]
    | _ => []
  | _ => []

def State.sends (s : State codec) : Streams.Action codec → List String
  | .other a => Link.sends s.host.transport a
  | _ => []

/-- Steps that the client takes by itself. -/
def Alone : ClientTransport.Action → Prop
  | .postResponse _ _ | .postFail _ | .getRead | .getChunk _ | .getAbort | .getResponse _ => False
  | _ => True

/-- Steps with which a GET ends. -/
def HangsUp : ClientTransport.Action → Prop
  | .getAbort | .getResponse _ => True
  | _ => False

/-- Steps of the host that nothing of the client's is needed for, and nothing of it awaits; a GET
that the client has given up may come all the same. -/
def Unaided (serves : ℕ → Option ℕ) : Streams.Action codec → Prop
  | .write _ _ | .beat _ _ | .other (.post _ _) => False
  | .other (.respond u) => serves u = none
  | _ => True

/-- The client no longer waits. -/
def forget (t : ℕ) (c : Option ℕ) : Option ℕ := if c = some t then none else c

inductive Action (codec : Codec) where
  | client (a : ClientTransport.Action)
  | host (b : Streams.Action codec)
  | depart (t : ℕ)
  | arrive (u : ℕ) (frame : String)
  | respond (t u : ℕ)
  | refuse (t : ℕ) (res : Response)
  | fail (t : ℕ)
  | request
  | connect (g : ℕ)
  | read (chunk : Bytes)
  | hangUp (a : ClientTransport.Action)
  | write (g : ℕ) (ok : Bool) (text : Bytes)
  | beat (g : ℕ) (ok : Bool) (text : Bytes)

section Steps

variable (settings : ClientTransport.Settings) (sid : String)

inductive Step : State codec → Action codec → State codec → Prop where
  | client {s : State codec} {a c} : Alone a → ClientTransport.Step settings s.client a c →
      Step s (.client a) { s with client := c }
  | host {s : State codec} {b l} : Unaided s.serves b → Streams.Step codec s.host b l →
      Step s (.host b) { s with
        host := l, taken := s.taken ++ s.hands b, sent := s.sent ++ s.sends b }
  | depart {s : State codec} {t frame id} : s.client.pc t = .sending frame id →
      (∀ x ∈ s.transit, x.2 ≠ some t) → (∀ u, s.serves u ≠ some t) →
      Step s (.depart t) { s with transit := s.transit ++ [(frame, some t)] }
  -- past the gates, and to the session
  | arrive {s : State codec} {u frame waiter before after l} :
      s.transit = before ++ (frame, waiter) :: after →
      Streams.Step codec s.host (.other (.post u frame)) l →
      Step s (.arrive u frame) { s with
        host := l, transit := before ++ after, serves := Function.update s.serves u waiter }
  | respond {s : State codec} {t u res l c} : s.serves u = some t →
      s.host.transport.pc u = .responding res → Streams.Step codec s.host (.other (.respond u)) l →
      ClientTransport.Step settings s.client (.postResponse t (dress sid res)) c →
      Step s (.respond t u) { s with
        client := c, host := l, serves := Function.update s.serves u none }
  -- at a gate, or for want of the session
  | refuse {s : State codec} {t frame res before after c} :
      s.transit = before ++ (frame, some t) :: after → ClientTransport.isSuccess res = false →
      ClientTransport.Step settings s.client (.postResponse t res) c →
      Step s (.refuse t res) { s with client := c, transit := before ++ after }
  -- a request on its way may come to the host all the same
  | fail {s : State codec} {t c} : ClientTransport.Step settings s.client (.postFail t) c →
      Step s (.fail t) { s with
        client := c
        transit := s.transit.map fun x => (x.1, forget t x.2)
        serves := fun u => forget t (s.serves u) }
  | request {s : State codec} {c} : ClientTransport.Step settings s.client .getRead c →
      Step s .request { s with client := c, stream := none }
  | connect {s : State codec} {g id l} : s.client.get = .requesting id [] → s.stream = none →
      Streams.Step codec s.host (.enter g) l →
      Step s (.connect g) { s with host := l, stream := some (g, []) }
  | read {s : State codec} {g chunk rest c} : s.stream = some (g, chunk ++ rest) →
      ClientTransport.Step settings s.client (.getChunk chunk) c →
      Step s (.read chunk) { s with client := c, stream := some (g, rest) }
  | hangUp {s : State codec} {a c} : HangsUp a → ClientTransport.Step settings s.client a c →
      Step s (.hangUp a) { s with client := c, stream := none }
  | write {s : State codec} {g ok frame text l} : s.host.stream g = .holding frame →
      Wrote ok (event frame) text → Streams.Step codec s.host (.write g ok) l →
      Step s (.write g ok text) { s with host := l, stream := s.carry g text }
  | beat {s : State codec} {g ok text l} : Wrote ok heartbeat text →
      Streams.Step codec s.host (.beat g ok) l →
      Step s (.beat g ok text) { s with host := l, stream := s.carry g text }

def start : State codec where
  client := ClientTransport.fresh settings
  host := unstreamed
  transit := []
  serves _ := none
  stream := none
  taken := []
  sent := []

def link : System (State codec) (Action codec) where
  Initial s := s = start settings
  Step := Step settings sid

end Steps

end Mcp.Http.Link
