import Mcp.Error

/-! The JSON-RPC envelope: request ids, the three kinds of frame, and their codecs. -/
namespace Mcp

def kJsonrpcVersion : String := "2.0"

/-- A request id: the original kind is preserved. -/
inductive RequestId where
  | string (s : String)
  | integer (i : Int64)
  deriving DecidableEq, Repr

namespace RequestId

/-- The form used for hashing; the markers keep the integer 5 and the string "5" apart. -/
def canonical : RequestId → String
  | .string s => "s:" ++ s
  | .integer i => "i:" ++ toString i.toInt

end RequestId

def RequestId.toJson : RequestId → Json
  | .string s => .string s
  | .integer i => .integer i

instance : ToJson RequestId := ⟨RequestId.toJson⟩

/-- Whole floats are accepted, because some clients write small integers as `1.0`. -/
def RequestId.fromJson (j : Json) : Except Exception RequestId :=
  match j with
  | .string s => .ok (.string s)
  | .integer _ | .unsigned _ => do
    let i ← j.getInt64
    return .integer i
  | .float v =>
    let truncated := castInt64 v
    if (truncated.toInt : ℚ) ≠ v then
      raise ErrorCode.parseError "JSON-RPC id must be an integer (got fractional number)"
    else .ok (.integer truncated)
  | _ => raise ErrorCode.parseError "JSON-RPC id must be a string or integer"

instance : FromJson RequestId := ⟨RequestId.fromJson⟩

/-- A request always has an id. -/
structure JsonRpcRequest where
  id : RequestId
  method : String
  params : Option Json

/-- A notification has none. -/
structure JsonRpcNotification where
  method : String
  params : Option Json

inductive Outcome where
  | result (j : Json)
  | error (e : ErrorObject)

/-- A response; the id is absent only on errors that could not be attributed. -/
structure JsonRpcResponse where
  id : Option RequestId
  outcome : Outcome

inductive JsonRpcMessage where
  | request (r : JsonRpcRequest)
  | notification (n : JsonRpcNotification)
  | response (r : JsonRpcResponse)

def JsonRpcRequest.toJson (r : JsonRpcRequest) : Json :=
  let j := Json.emptyObject
  let j := j.set "jsonrpc" (.of kJsonrpcVersion)
  let j := j.set "id" (.of r.id)
  let j := j.set "method" (.of r.method)
  putOptional j "params" r.params

instance : ToJson JsonRpcRequest := ⟨JsonRpcRequest.toJson⟩

/-- The check every envelope decoder opens with. -/
def checkJsonrpc (j : Json) : Except Exception Unit := do
  let v ← require String j "jsonrpc"
  if v ≠ kJsonrpcVersion then raise ErrorCode.invalidRequest "jsonrpc must be \"2.0\""

def JsonRpcRequest.fromJson (j : Json) : Except Exception JsonRpcRequest := do
  checkJsonrpc j
  let id ← getAt RequestId j "id"
  let method ← require String j "method"
  return { id, method, params := takeOptionalJson j "params" }

instance : FromJson JsonRpcRequest := ⟨JsonRpcRequest.fromJson⟩

def JsonRpcNotification.toJson (n : JsonRpcNotification) : Json :=
  let j := Json.emptyObject
  let j := j.set "jsonrpc" (.of kJsonrpcVersion)
  let j := j.set "method" (.of n.method)
  putOptional j "params" n.params

instance : ToJson JsonRpcNotification := ⟨JsonRpcNotification.toJson⟩

def JsonRpcNotification.fromJson (j : Json) : Except Exception JsonRpcNotification := do
  checkJsonrpc j
  let method ← require String j "method"
  return { method, params := takeOptionalJson j "params" }

instance : FromJson JsonRpcNotification := ⟨JsonRpcNotification.fromJson⟩

def ErrorObject.toJson (e : ErrorObject) : Json :=
  let j := Json.emptyObject
  let j := j.set "code" (.of e.code)
  let j := j.set "message" (.of e.message)
  if e.hasData then j.set "data" e.data else j

instance : ToJson ErrorObject := ⟨ErrorObject.toJson⟩

def ErrorObject.fromJson (j : Json) : Except Exception ErrorObject := do
  let code ← require Int32 j "code"
  let message ← require String j "message"
  return { code, message, data := (j.find "data").getD .null }

instance : FromJson ErrorObject := ⟨ErrorObject.fromJson⟩

def JsonRpcResponse.toJson (r : JsonRpcResponse) : Json :=
  let j := Json.emptyObject
  let j := j.set "jsonrpc" (.of kJsonrpcVersion)
  let j := j.set "id" (match r.id with | some id => .of id | none => .null)
  match r.outcome with
  | .result result => j.set "result" result
  | .error e => j.set "error" (.of e)

instance : ToJson JsonRpcResponse := ⟨JsonRpcResponse.toJson⟩

/-- The id of a response: absent and null both mean none. -/
def responseId (j : Json) : Except Exception (Option RequestId) :=
  match j.find "id" with
  | none | some .null => .ok none
  | some v => do
    let id ← v.get RequestId
    return some id

def JsonRpcResponse.fromJson (j : Json) : Except Exception JsonRpcResponse := do
  checkJsonrpc j
  let id ← responseId j
  let hasResult := j.contains "result"
  let hasError := j.contains "error"
  if hasResult = hasError then
    raise ErrorCode.invalidRequest
      "JSON-RPC response must carry exactly one of \"result\" or \"error\""
  else if hasResult then
    let result ← getAt Json j "result"
    return { id, outcome := .result result }
  else
    let e ← getAt ErrorObject j "error"
    return { id, outcome := .error e }

instance : FromJson JsonRpcResponse := ⟨JsonRpcResponse.fromJson⟩

/-- Classification is by presence of the four keys. -/
def parseMessage (j : Json) : Except Exception JsonRpcMessage :=
  if !j.isObject then
    raise ErrorCode.invalidRequest "JSON-RPC frame must be an object"
  else
    let hasId := j.contains "id"
    let hasMethod := j.contains "method"
    let hasResult := j.contains "result"
    let hasError := j.contains "error"
    if hasMethod && hasId then return .request (← j.get _)
    else if hasMethod then return .notification (← j.get _)
    else if hasResult || hasError then return .response (← j.get _)
    else
      raise ErrorCode.invalidRequest
        "JSON-RPC frame has neither \"method\" nor \"result\"/\"error\""

def serializeMessage : JsonRpcMessage → Json
  | .request r => .of r
  | .notification n => .of n
  | .response r => .of r

end Mcp
