import Mcp.Library.Dict
import Mcp.Protocol.Capabilities
import Mcp.Session.Dispatch

/-! The handlers of Client, the session that they are registered with, and what initialize says of
them. -/
namespace Mcp

/-- What a server may ask of a client that has a handler for it. -/
inductive Feature where
  | sampling
  | elicitation
  | roots
  deriving DecidableEq

def Feature.method : Feature → String
  | .sampling => "sampling/createMessage"
  | .elicitation => "elicitation/create"
  | .roots => "roots/list"

/-- The member of `capabilities` that announces it. -/
def Feature.member : Feature → String
  | .sampling => "sampling"
  | .elicitation => "elicitation"
  | .roots => "roots"

/-- How `start` of a Session over the transport ends. -/
structure ClientTransport where
  start : Except Exception Unit

/-- `req_handlers_`, where the Client has put the lambda around a user's handler. -/
structure ClientSession where
  requestHandlers : Dict String RequestHandler

def ClientSession.setRequestHandler (s : ClientSession) (method : String) (h : RequestHandler) :
    ClientSession where
  requestHandlers := s.requestHandlers.insert method h

def ClientSession.clearRequestHandler (s : ClientSession) (method : String) : ClientSession where
  requestHandlers := s.requestHandlers.erase method

/-- A user's handler stands with the decoding and encoding that its lambda puts around it. -/
structure Client where
  clientInfo : Implementation
  connected : Bool
  session : Option ClientSession
  samplingHandler : Option RequestHandler
  elicitationHandler : Option RequestHandler
  rootsHandler : Option RequestHandler
  capabilitiesOverride : Option ClientCapabilities

namespace Client

def fresh (clientInfo : Implementation) : Client where
  clientInfo
  connected := false
  session := none
  samplingHandler := none
  elicitationHandler := none
  rootsHandler := none
  capabilitiesOverride := none

def handler (c : Client) : Feature → Option RequestHandler
  | .sampling => c.samplingHandler
  | .elicitation => c.elicitationHandler
  | .roots => c.rootsHandler

def withHandler (c : Client) (h : Option RequestHandler) : Feature → Client
  | .sampling => { c with samplingHandler := h }
  | .elicitation => { c with elicitationHandler := h }
  | .roots => { c with rootsHandler := h }

def disconnect (c : Client) : Client :=
  if !c.connected then c else { c with connected := false, session := none }

/-- The session is in place before it is started, and stays if that fails. -/
def connect (transport : Option ClientTransport) (c : Client) : Except Exception Unit × Client :=
  match transport with
  | none => (raise ErrorCode.internalError "Client::connect: transport is null", c)
  | some transport =>
    let c := { c.disconnect with session := some ⟨∅⟩ }
    match transport.start with
    | .ok () => (.ok (), { c with connected := true })
    | .error e => (.error e, c)

/-- What the three setters have in common. -/
def setHandler (k : Feature) (h : Option RequestHandler) (c : Client) : Except Exception Client :=
  match c.session with
  | none => raise ErrorCode.internalError "client not connected"
  | some session =>
    let session : ClientSession := match h with
      | some h => session.setRequestHandler k.method h
      | none => session.clearRequestHandler k.method
    .ok { c.withHandler h k with session := some session }

def setSamplingHandler : Option RequestHandler → Client → Except Exception Client :=
  setHandler .sampling

def setElicitationHandler : Option RequestHandler → Client → Except Exception Client :=
  setHandler .elicitation

def setRootsListHandler : Option RequestHandler → Client → Except Exception Client :=
  setHandler .roots

/-- Derived from the handlers, then overridden field by field. -/
def capabilities (c : Client) : ClientCapabilities :=
  let derived : ClientCapabilities := {
    experimental := none
    roots := c.rootsHandler.map fun _ => { listChanged := none }
    sampling := c.samplingHandler.map fun _ => { context := none, tools := none }
    elicitation := c.elicitationHandler.map fun _ =>
      { form := some .emptyObject, url := some .emptyObject }
    tasks := none }
  match c.capabilitiesOverride with
  | none => derived
  | some o => {
    experimental := o.experimental.or derived.experimental
    roots := o.roots.or derived.roots
    sampling := o.sampling.or derived.sampling
    elicitation := o.elicitation.or derived.elicitation
    tasks := o.tasks.or derived.tasks }

/-- The params of the request, and the session that it goes out on. -/
def sendInitialize (c : Client) : Except Exception (ClientSession × Json) :=
  match c.session with
  | none => raise ErrorCode.internalError "client not connected"
  | some session =>
    let params : InitializeRequestParams := {
      protocolVersion := kLatestProtocolVersion
      capabilities := c.capabilities
      clientInfo := c.clientInfo }
    .ok (session, .of params)

/-- What is called on a Client. -/
inductive Call where
  | connect (transport : Option ClientTransport)
  | disconnect
  | setSamplingHandler (h : Option RequestHandler)
  | setElicitationHandler (h : Option RequestHandler)
  | setRootsListHandler (h : Option RequestHandler)
  | sendInitialize

/-- A setter that throws leaves the Client as it was. -/
def orKeep (c : Client) : Except Exception Client → Client
  | .ok c' => c'
  | .error _ => c

def Call.apply (c : Client) : Call → Client
  | .connect transport => (c.connect transport).2
  | .disconnect => c.disconnect
  | .setSamplingHandler h => c.orKeep (c.setSamplingHandler h)
  | .setElicitationHandler h => c.orKeep (c.setElicitationHandler h)
  | .setRootsListHandler h => c.orKeep (c.setRootsListHandler h)
  | .sendInitialize => c

/-- The Client after a sequence of calls. -/
def after (info : Implementation) (calls : List Call) : Client :=
  calls.foldl Call.apply (fresh info)

end Client

end Mcp
