import Mcp.Session.Dispatch

/-! A request that a Session sends for a caller, from `send_request_for` to the future. A frame
stands here for the JSON value it denotes. -/
namespace Mcp

/-- What `send_request_for` is given; `convert` makes of the result what the future holds. -/
structure SentRequest (α : Type) where
  method : String
  params : Json
  convert : Json → Except Exception α

namespace SentRequest

variable {α : Type}

/-- The request that `register_pending` sends under the next id. -/
def envelope (q : SentRequest α) (id : RequestId) : JsonRpcRequest where
  id
  method := q.method
  params := if q.params.isNull then none else some q.params

/-- `handle_response` with the resolvers of the request. -/
def settle (q : SentRequest α) : Outcome → Except Exception α
  | .result j => q.convert j
  | .error e => .error (.error e)

/-- What an inbound message does to the future of the request that is parked under `id`; none for
a message that leaves it alone. -/
def receive (q : SentRequest α) (id : RequestId) (j : Json) : Option (Except Exception α) :=
  match parseMessage j with
  | .ok (.response r) => if r.id = some id then some (q.settle r.outcome) else none
  | .ok (.request _) | .ok (.notification _) | .error _ => none

/-- What the future holds once the other side came to `run`; none if it has no handler. An exception
that is no Error has become one. -/
def received (jsonWhat : JsonException → String) (q : SentRequest α) :
    Option (Except Exception α) → Except Exception α
  | some (.ok a) => .ok a
  | some (.error (.error e)) => .error (.error e)
  | some (.error (.json e)) => raise ErrorCode.invalidParams ("invalid params: " ++ jsonWhat e)
  | some (.error (.std what)) => raise ErrorCode.internalError ("handler threw: " ++ what)
  | some (.error .other) => raise ErrorCode.internalError "handler threw a non-std exception"
  | none => raise ErrorCode.methodNotFound ("method not found: " ++ q.method)

variable {q : SentRequest α} {id : RequestId} {jsonWhat : JsonException → String}

theorem params_envelope : (q.envelope id).params.getD .null = q.params := by
  unfold envelope
  cases q.params <;> simp [Json.isNull]

/-- The other side reads the request that was sent. -/
theorem parseMessage_envelope :
    parseMessage (serializeMessage (.request (q.envelope id))) =
      .ok (.request (q.envelope id)) := by
  have hparams : (q.envelope id).params ≠ some .null := by
    unfold envelope
    cases q.params <;> simp [Json.isNull]
  exact parseMessage_of_request hparams

/-- The response brings back what the handler came to, if that can be read from what was written. -/
theorem receive_respondTo {encode : α → Json} {run : Option (Except Exception α)}
    (h : ∀ a, run = some (.ok a) → q.convert (encode a) = .ok a) :
    q.receive id (serializeMessage
        (.response (respondTo jsonWhat (q.envelope id) (run.map (Except.map encode))))) =
      some (q.received jsonWhat run) := by
  have hparse := parseMessage_of_response
    (respondTo jsonWhat (q.envelope id) (run.map (Except.map encode)))
  change (match parseMessage (Json.of (respondTo jsonWhat _ _)) with
    | .ok (.response r) => if r.id = some id then some (q.settle r.outcome) else none
    | .ok (.request _) | .ok (.notification _) | .error _ => none) = _
  rw [hparse]
  simp only [respondTo, envelope, if_true]
  cases run with
  | none => rfl
  | some r =>
    cases r with
    | ok a => exact congrArg some (h a rfl)
    | error e => cases e <;> rfl

end SentRequest

end Mcp
