import Mcp.Library.Utf8
import Mcp.Protocol.RoundTrip

/-! One inbound frame: its classification, what the handler made of it, and the response. -/
namespace Mcp

/-- What a handler does with its params. -/
abbrev RequestHandler := Json → Except Exception Json

section What

-- `what()` of the JSON library's exceptions, by class.
variable (jsonWhat : JsonException → String)

/-- `what()` returns a C string. -/
def cString (s : String) : String := String.ofList (s.toList.takeWhile (· != '\x00'))

/-- What `catch (const std::exception& e)` catches, by `e.what()`. -/
def Exception.what : Exception → Option String
  | .error e => some (cString e.message)
  | .json e => some (jsonWhat e)
  | .std what => some what
  | .other => none

/-- The outcome that a handler's result or exception becomes. -/
def outcomeOf : Except Exception Json → Outcome
  | .ok j => .result j
  | .error (.error e) => .error e
  | .error (.json e) =>
    .error { code := ErrorCode.invalidParams, message := "invalid params: " ++ jsonWhat e }
  | .error (.std what) =>
    .error { code := ErrorCode.internalError, message := "handler threw: " ++ what }
  | .error .other =>
    .error { code := ErrorCode.internalError, message := "handler threw a non-std exception" }

def methodNotFound (method : String) : Outcome :=
  .error { code := ErrorCode.methodNotFound, message := "method not found: " ++ method }

/-- The response to a request; `run` is none when no handler is registered. -/
def respondTo (req : JsonRpcRequest) (run : Option (Except Exception Json)) : JsonRpcResponse where
  id := some req.id
  outcome := match run with
    | none => methodNotFound req.method
    | some r => outcomeOf jsonWhat r

namespace Session

variable (codec : Codec)

/-- The frame that goes to `transport_->send`, which accepts it; none when `dump` throws. -/
def sendMessage (m : JsonRpcMessage) : Option String := codec.dump (serializeMessage m)

/-- What a request's worker hands to the transport. An exception of `sendMessage` is logged. -/
def handleRequest (handlers : String → Option RequestHandler) (req : JsonRpcRequest) :
    List String :=
  let run := (handlers req.method).map fun handler => handler (req.params.getD .null)
  (sendMessage codec (.response (respondTo jsonWhat req run))).toList

/-- What an inbound frame makes the Session hand to the transport. Only a request is answered. -/
def handleFrame (handlers : String → Option RequestHandler) (raw : String) : List String :=
  match codec.parse raw with
  | none => []
  | some j =>
    match parseMessage j with
    | .ok (.request req) => handleRequest jsonWhat codec handlers req
    | .ok (.notification _) | .ok (.response _) | .error _ => []

end Session

end What

end Mcp
