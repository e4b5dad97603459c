import Mcp.Error

/-! The params of elicitation/create, told apart by `mode`. -/
namespace Mcp

structure ElicitFormRequestParams where
  message : String
  /-- The schema of the expected response. -/
  requestedSchema : Json

/-- No mode is written: form is what an absent one means. -/
def ElicitFormRequestParams.toJson (p : ElicitFormRequestParams) : Json :=
  let j := Json.emptyObject
  let j := j.set "message" (.of p.message)
  j.set "requestedSchema" p.requestedSchema

instance : ToJson ElicitFormRequestParams := ⟨ElicitFormRequestParams.toJson⟩

def ElicitFormRequestParams.fromJson (j : Json) : Except Exception ElicitFormRequestParams := do
  let message ← require String j "message"
  let requestedSchema ← require Json j "requestedSchema"
  if !requestedSchema.isObject then
    raise ErrorCode.invalidParams "elicitation/create: `requestedSchema` must be a JSON object"
  return { message, requestedSchema }

instance : FromJson ElicitFormRequestParams := ⟨ElicitFormRequestParams.fromJson⟩

structure ElicitUrlRequestParams where
  message : String
  url : String
  elicitationId : String

def ElicitUrlRequestParams.toJson (p : ElicitUrlRequestParams) : Json :=
  let j := Json.emptyObject
  let j := j.set "mode" (.of "url")
  let j := j.set "message" (.of p.message)
  let j := j.set "url" (.of p.url)
  j.set "elicitationId" (.of p.elicitationId)

instance : ToJson ElicitUrlRequestParams := ⟨ElicitUrlRequestParams.toJson⟩

def ElicitUrlRequestParams.fromJson (j : Json) : Except Exception ElicitUrlRequestParams := do
  let message ← require String j "message"
  let url ← require String j "url"
  let elicitationId ← require String j "elicitationId"
  return { message, url, elicitationId }

instance : FromJson ElicitUrlRequestParams := ⟨ElicitUrlRequestParams.fromJson⟩

inductive ElicitRequestParams where
  | form (p : ElicitFormRequestParams)
  | url (p : ElicitUrlRequestParams)

def ElicitRequestParams.toJson : ElicitRequestParams → Json
  | .form p => .of p
  | .url p => .of p

instance : ToJson ElicitRequestParams := ⟨ElicitRequestParams.toJson⟩

/-- A mode that is there must be a string; null is none. -/
def elicitMode (j : Json) : Except Exception String :=
  match j.find "mode" with
  | none => .ok "form"
  | some (.string mode) => .ok mode
  | some _ => raise ErrorCode.invalidParams "elicitation/create: `mode` must be a string"

def ElicitRequestParams.fromJson (j : Json) : Except Exception ElicitRequestParams := do
  let mode ← elicitMode j
  if mode = "form" then return .form (← j.get _)
  else if mode = "url" then return .url (← j.get _)
  else
    raise ErrorCode.invalidParams ("elicitation/create: unknown mode \"" ++ mode ++ "\"")

instance : FromJson ElicitRequestParams := ⟨ElicitRequestParams.fromJson⟩

end Mcp
