import Mcp.Client.Advertised
import Mcp.Client.Requests
import Mcp.Protocol.Messages
import Mcp.Protocol.SamplingRoundTrip
import Mcp.Session.Requests

/-! What a Server asks of the Client at the other end is asked of the user's handler there, and what
the handler comes to is what the Server's caller gets. -/
namespace Mcp

open Client

namespace Server

/-- The requests that Server sends, by what their futures hold. -/
inductive Ask : Type → Type where
  | sample (params : CreateMessageRequestParams) : Ask CreateMessageResult
  | listRoots : Ask ListRootsResult
  | elicit (params : ElicitRequestParams) : Ask ElicitResult

namespace Ask

variable {α : Type}

def feature : Ask α → Feature
  | sample _ => .sampling
  | listRoots => .roots
  | elicit _ => .elicitation

def sent : Ask α → SentRequest α
  | sample params => ⟨"sampling/createMessage", .of params, fun j => j.get _⟩
  | listRoots => ⟨"roots/list", .null, fun j => j.get _⟩
  | elicit params => ⟨"elicitation/create", .of params, fun j => j.get _⟩

def function : Ask α → String
  | sample _ => "Server::sample"
  | listRoots => "Server::list_roots"
  | elicit _ => "Server::elicit"

/-- Nothing is sent while no session is there to send it. -/
def start (q : Ask α) (session : Bool) : Except Exception (SentRequest α) :=
  if session then .ok q.sent
  else raise ErrorCode.internalError (q.function ++ ": server is not running")

def encode : Ask α → α → Json
  | sample _, r => .of r
  | listRoots, r => .of r
  | elicit _, r => .of r

/-- The params are ones that the other side accepts. -/
def Sendable : Ask α → Prop
  | sample params => params.NullFree ∧ ¬params.maxTokens < 0
  | listRoots => True
  | elicit params => params.ObjectSchema

/-- No raw optional member of the result is an engaged null. -/
def NullFree : Ask α → α → Prop
  | sample _, r => r.NullFree
  | listRoots, _ => True
  | elicit _, r => r.NullFree

end Ask

end Server

namespace Client

/-- What a user gives the three setters. -/
structure UserHandlers where
  sampling : Option (CreateMessageRequestParams → Except Exception CreateMessageResult)
  elicitation : Option (ElicitRequestParams → Except Exception ElicitResult)
  roots : Option (Except Exception ListRootsResult)

section Handlers

variable (jsonWhat : JsonException → String) (u : UserHandlers)

/-- The lambda that a setter puts around the user's handler. -/
def UserHandlers.lambda : Feature → Option RequestHandler
  | .sampling => u.sampling.map (samplingRequestHandler jsonWhat)
  | .elicitation => u.elicitation.map fun h =>
    elicitationRequestHandler jsonWhat fun params => (h params).map Json.of
  | .roots => u.roots.map fun r _ => r.map Json.of

/-- The Client once the three setters have been called. -/
def UserHandlers.install (c : Client) : Client :=
  [Call.setSamplingHandler (u.lambda jsonWhat .sampling),
    .setElicitationHandler (u.lambda jsonWhat .elicitation),
    .setRootsListHandler (u.lambda jsonWhat .roots)].foldl Call.apply c

variable {c : Client} {session : ClientSession}

theorem exists_session_setHandler (k : Feature) (h : Option RequestHandler)
    (hs : c.session = some session) :
    ∃ s', (c.orKeep (c.setHandler k h)).session = some s' ∧ ∀ k' : Feature,
      s'.requestHandlers.lookup k'.method =
        if k' = k then h else session.requestHandlers.lookup k'.method := by
  have hset := setHandler_eq (k := k) h hs
  refine ⟨_, by rw [hset], fun k' => ?_⟩
  exact (setHandler_session h hs (by rw [hset]) k').2

/-- Each of the three methods has the lambda around its own handler. -/
theorem session_install (hs : c.session = some session) :
    ∃ s', (u.install jsonWhat c).session = some s' ∧
      ∀ k : Feature, s'.requestHandlers.lookup k.method = u.lambda jsonWhat k := by
  obtain ⟨s₁, hs₁, h₁⟩ := exists_session_setHandler .sampling (u.lambda jsonWhat .sampling) hs
  obtain ⟨s₂, hs₂, h₂⟩ :=
    exists_session_setHandler .elicitation (u.lambda jsonWhat .elicitation) hs₁
  obtain ⟨s₃, hs₃, h₃⟩ := exists_session_setHandler .roots (u.lambda jsonWhat .roots) hs₂
  refine ⟨s₃, hs₃, fun k => ?_⟩
  rw [h₃, h₂, h₁]
  cases k <;> rfl

end Handlers

end Client

namespace Server

variable {α : Type}

/-- The question put to the user's handler itself; a tool choice keeps the name that it is written
with. -/
def Ask.direct (u : UserHandlers) : Ask α → Option (Except Exception α)
  | .sample params => u.sampling.map fun h => h params.forwarded
  | .listRoots => u.roots
  | .elicit params => u.elicitation.map fun h => h params

section Exchange

variable {jsonWhat : JsonException → String} {u : UserHandlers} {q : Ask α}

theorem Ask.method_sent : q.sent.method = q.feature.method := by
  cases q <;> rfl

theorem isNull_createMessageRequestParams (p : CreateMessageRequestParams) :
    (Json.of p).isNull = false := by
  change p.toJson.isNull = false
  simp [CreateMessageRequestParams.toJson]

theorem isNull_elicitRequestParams (p : ElicitRequestParams) : (Json.of p).isNull = false := by
  cases p <;> rfl

/-- The lambda gives the handler the params that were sent, and writes what it returns. -/
theorem lambda_params (hq : q.Sendable) :
    (u.lambda jsonWhat q.feature).map (fun h => h q.sent.params) =
      (q.direct u).map (Except.map q.encode) := by
  cases q with
  | sample params =>
    have hget := get_of_createMessageRequestParams hq.1 hq.2
    have hnull := isNull_createMessageRequestParams params
    cases hu : u.sampling with
    | none => simp [UserHandlers.lambda, Ask.direct, Ask.feature, hu]
    | some h =>
      simp only [UserHandlers.lambda, Ask.direct, Ask.feature, Ask.sent, hu, Option.map_some,
        samplingRequestHandler, hnull, hget]
      cases h params.forwarded <;> rfl
  | listRoots =>
    cases hu : u.roots with
    | none => simp [UserHandlers.lambda, Ask.direct, Ask.feature, hu]
    | some r =>
      simp only [UserHandlers.lambda, Ask.direct, Ask.feature, hu, Option.map_some]
      cases r <;> rfl
  | elicit params =>
    have hget := get_of_elicitRequestParams hq
    have hnull := isNull_elicitRequestParams params
    cases hu : u.elicitation with
    | none => simp [UserHandlers.lambda, Ask.direct, Ask.feature, hu]
    | some h =>
      simp only [UserHandlers.lambda, Ask.direct, Ask.feature, Ask.sent, hu, Option.map_some,
        elicitationRequestHandler, hnull, hget]
      cases h params <;> rfl

theorem Ask.convert_encode {a : α} (ha : q.NullFree a) : q.sent.convert (q.encode a) = .ok a := by
  cases q with
  | sample _ => exact (restores_createMessageResult ha).get_of
  | listRoots => exact get_of a
  | elicit _ => exact (restores_elicitResult ha).get_of

end Exchange

/-- A user who always declines. -/
def declining : UserHandlers where
  sampling := none
  elicitation := some fun _ => .ok { action := .decline, content := none }
  roots := none

def agreement : Ask ElicitResult :=
  .elicit (.url { message := "terms", url := "https://a.example", elicitationId := "e1" })

end Server

end Mcp
