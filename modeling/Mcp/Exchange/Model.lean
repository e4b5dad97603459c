import Mcp.Session.Dispatch
import Mcp.Session.Sending

/-! Two Sessions at the ends of a channel that hands each frame on once, in whatever order. A
transport may refuse a frame, and a thread may be missing for a request; nothing else gets lost. -/
namespace Mcp.Exchange

open Transition Session

/-- The two ends, `kA` and `kB`. -/
inductive Side where
  | a
  | b
  deriving DecidableEq

def Side.peer : Side → Side
  | a => b
  | b => a

@[simp] theorem peer_peer (x : Side) : x.peer.peer = x := by
  cases x <;> rfl

/-- What a handler came to; none if there is none. -/
abbrev Reply := Option (Except Exception Json)

/-- What the worker of a request does next. -/
inductive Work where
  | none
  | serving (req : JsonRpcRequest)
  -- in `send_message`
  | answering (req : JsonRpcRequest) (run : Reply)
  | finishing

structure End (V : Type) where
  session : State V
  /-- The frames for this end that have not been handed to `on_message`. -/
  inbox : List Json
  /-- Requests that are counted as running and whose threads are not made yet. -/
  starting : Thread → Option JsonRpcRequest
  work : ℕ → Work
  /-- What the handlers of this end were asked, and what they came to, in order. -/
  handled : List (JsonRpcRequest × Reply)
  /-- Requests for which no thread could be made. -/
  dropped : List RequestId
  /-- Requests whose response the transport refused, or could not be dumped. -/
  unanswered : List RequestId

variable {V : Type}

def End.fresh (V : Type) : End V where
  session := Session.fresh V
  inbox := []
  starting _ := none
  work _ := .none
  handled := []
  dropped := []
  unanswered := []

/-- `send` of the other end. -/
def End.post (e : End V) (m : JsonRpcMessage) : End V :=
  { e with inbox := e.inbox ++ [serializeMessage m] }

def End.setWork (e : End V) (w : ℕ) (work : Work) : End V :=
  { e with work := Function.update e.work w work }

def End.setStarting (e : End V) (t : Thread) (req : Option JsonRpcRequest) : End V :=
  { e with starting := Function.update e.starting t req }

/-- The steps of a Session that neither send nor take a frame, nor belong to a request worker. -/
def Internal : Session.Action → Prop
  | .sendOk _ | .response _ _ | .dispatch _ | .spawn _ | .spawnThrow _ | .workerDone => False
  | _ => True

inductive Action where
  | session (a : Session.Action)
  | send (t : Thread)
  | notify (note : JsonRpcNotification)
  | takeRequest (t : Thread)
  | takeResponse (t : Thread)
  | takeOther
  | start (t : Thread) (w : ℕ)
  | startThrow (t : Thread)
  | handle (w : ℕ) (run : Reply)
  | answer (w : ℕ)
  | answerFail (w : ℕ)
  | finish (w : ℕ)

section Machine

variable (jsonWhat : JsonException → String) (opts : Options) (calls : ℕ → Call V)

/-- What one end does, and what becomes of it and of its peer. -/
inductive Act : End V → End V → Action → End V → End V → Prop where
  | session {e p a σ} : Session.Step opts calls e.session a σ → Internal a → Refused e.session a →
      Act e p (.session a) { e with session := σ } p
  | send {e p t k σ} : e.session.pc t = .sending k →
      Session.Step opts calls e.session (.sendOk t) σ →
      Act e p (.send t) { e with session := σ } (p.post (.request (requestOf k (calls k))))
  | notify {e p note} : note.params ≠ some .null →
      Act e p (.notify note) e (p.post (.notification note))
  | takeRequest {e p t j earlier later req σ} : e.inbox = earlier ++ j :: later →
      parseMessage j = .ok (.request req) → Session.Step opts calls e.session (.dispatch t) σ →
      Act e p (.takeRequest t)
        ({ e with session := σ, inbox := earlier ++ later }.setStarting t (some req)) p
  | takeResponse {e p t j earlier later resp σ} : e.inbox = earlier ++ j :: later →
      parseMessage j = .ok (.response resp) →
      Session.Step opts calls e.session (.response t resp) σ →
      Act e p (.takeResponse t) { e with session := σ, inbox := earlier ++ later } p
  -- a notification, or a frame that is rejected
  | takeOther {e p j earlier later} : e.inbox = earlier ++ j :: later →
      (∀ req, parseMessage j ≠ .ok (.request req)) →
      (∀ resp, parseMessage j ≠ .ok (.response resp)) →
      Act e p .takeOther { e with inbox := earlier ++ later } p
  | start {e p t w req σ} : e.starting t = some req → e.work w = .none →
      Session.Step opts calls e.session (.spawn t) σ →
      Act e p (.start t w) (({ e with session := σ }.setStarting t none).setWork w (.serving req)) p
  | startThrow {e p t req σ} : e.starting t = some req →
      Session.Step opts calls e.session (.spawnThrow t) σ →
      Act e p (.startThrow t)
        ({ e with session := σ, dropped := e.dropped ++ [req.id] }.setStarting t none) p
  | handle {e p w req} (run : Reply) : e.work w = .serving req →
      Act e p (.handle w run)
        ({ e with handled := e.handled ++ [(req, run)] }.setWork w (.answering req run)) p
  | answer {e p w req run} : e.work w = .answering req run →
      Act e p (.answer w) (e.setWork w .finishing)
        (p.post (.response (respondTo jsonWhat req run)))
  | answerFail {e p w req run} : e.work w = .answering req run →
      Act e p (.answerFail w)
        ({ e with unanswered := e.unanswered ++ [req.id] }.setWork w .finishing) p
  | finish {e p w σ} : e.work w = .finishing → Session.Step opts calls e.session .workerDone σ →
      Act e p (.finish w) ({ e with session := σ }.setWork w .none) p

end Machine

/-- The two ends take turns in any order. -/
def exchange (jsonWhat : JsonException → String) (opts : Options) (calls : Side → ℕ → Call V) :
    System (Side → End V) (Side × Action) where
  Initial s := s = fun _ => End.fresh V
  Step s a s' :=
    Act jsonWhat opts (calls a.1) (s a.1) (s a.1.peer) a.2 (s' a.1) (s' a.1.peer)

variable {jsonWhat : JsonException → String} {opts : Options} {calls : ℕ → Call V}
  {e p e' p' : End V} {a : Action}

/-- Where the requests of an end are, as long as nobody has handled them. -/
inductive Place where
  | outbound
  | starting (t : Thread)
  | serving (w : ℕ)
  | handled
  | dropped
  deriving DecidableEq

/-- Where their answers are. -/
inductive Back where
  | answering (w : ℕ)
  | inbound
  | received
  | unanswered
  deriving DecidableEq

def asked (j : Json) : Option RequestId :=
  match parseMessage j with
  | .ok (.request req) => some req.id
  | .ok (.notification _) | .ok (.response _) | .error _ => none

def answered (j : Json) : Option RequestId :=
  match parseMessage j with
  | .ok (.response resp) => resp.id
  | .ok (.request _) | .ok (.notification _) | .error _ => none

def Work.served : Work → Multiset RequestId
  | serving req => {req.id}
  | none | answering _ _ | finishing => 0

def Work.unsent : Work → Multiset RequestId
  | answering req _ => {req.id}
  | none | serving _ | finishing => 0

/-- The requests of `e`, at its peer `p`. -/
def requests (p : End V) : Place → Multiset RequestId
  | .outbound => p.inbox.filterMap asked
  | .starting t => (p.starting t).elim 0 fun req => {req.id}
  | .serving w => (p.work w).served
  | .handled => p.handled.map fun x => x.1.id
  | .dropped => p.dropped

/-- The answers of `p`, on their way back to `e`. -/
def replies (e p : End V) : Back → Multiset RequestId
  | .answering w => (p.work w).unsent
  | .inbound => e.inbox.filterMap answered
  | .received => e.session.received.filterMap JsonRpcResponse.id
  | .unanswered => p.unanswered

def Written (e : End V) (id : RequestId) : Prop := id ∈ e.session.written.map JsonRpcRequest.id

def Handled (p : End V) (id : RequestId) : Prop := id ∈ p.handled.map fun x => x.1.id

end Mcp.Exchange
