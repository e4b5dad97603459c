import Mcp.Protocol.Catalogue

/-! The params of sampling/createMessage, with their codecs. -/
namespace Mcp

structure ModelHint where
  name : Option String

def ModelHint.toJson (h : ModelHint) : Json := putOptional Json.emptyObject "name" h.name

instance : ToJson ModelHint := ⟨ModelHint.toJson⟩

def ModelHint.fromJson (j : Json) : Except Exception ModelHint := do
  let name ← takeOptional String j "name"
  return { name }

instance : FromJson ModelHint := ⟨ModelHint.fromJson⟩

/-- Read an optional list; what is no array counts as absent. -/
def takeArray (α : Type) [FromJson α] (j : Json) (key : String) :
    Except Exception (Option (List α)) :=
  match j.find key with
  | some (.array xs) => do
    let items ← xs.mapM (Json.get α)
    return some items
  | _ => .ok none

structure ModelPreferences where
  hints : Option (List ModelHint)
  costPriority : Option ℚ
  speedPriority : Option ℚ
  intelligencePriority : Option ℚ

def ModelPreferences.toJson (p : ModelPreferences) : Json :=
  let j := Json.emptyObject
  let j := putOptional j "hints" p.hints
  let j := putOptional j "costPriority" p.costPriority
  let j := putOptional j "speedPriority" p.speedPriority
  putOptional j "intelligencePriority" p.intelligencePriority

instance : ToJson ModelPreferences := ⟨ModelPreferences.toJson⟩

def ModelPreferences.fromJson (j : Json) : Except Exception ModelPreferences := do
  let hints ← takeArray ModelHint j "hints"
  let costPriority ← takeOptional ℚ j "costPriority"
  let speedPriority ← takeOptional ℚ j "speedPriority"
  let intelligencePriority ← takeOptional ℚ j "intelligencePriority"
  return { hints, costPriority, speedPriority, intelligencePriority }

instance : FromJson ModelPreferences := ⟨ModelPreferences.fromJson⟩

inductive IncludeContext where
  | none
  | thisServer
  | allServers
  deriving DecidableEq, Repr

def IncludeContext.toString : IncludeContext → String
  | .none => "none"
  | .thisServer => "thisServer"
  | .allServers => "allServers"

instance : ToJson IncludeContext := ⟨fun c => .of c.toString⟩

def includeContextFromString (s : String) : Except Exception IncludeContext :=
  if s = "none" then .ok .none
  else if s = "thisServer" then .ok .thisServer
  else if s = "allServers" then .ok .allServers
  else raise ErrorCode.parseError ("unknown includeContext: " ++ s)

instance : FromJson IncludeContext := ⟨fun j => do includeContextFromString (← j.get String)⟩

inductive ToolChoiceMode where
  | auto
  | any
  | none
  | tool
  deriving DecidableEq, Repr

def ToolChoiceMode.toString : ToolChoiceMode → String
  | .auto => "auto"
  | .any => "any"
  | .none => "none"
  | .tool => "tool"

instance : ToJson ToolChoiceMode := ⟨fun m => .of m.toString⟩

def toolChoiceModeFromString (s : String) : Except Exception ToolChoiceMode :=
  if s = "auto" then .ok .auto
  else if s = "any" then .ok .any
  else if s = "none" then .ok .none
  else if s = "tool" then .ok .tool
  else raise ErrorCode.parseError ("unknown toolChoice mode: " ++ s)

instance : FromJson ToolChoiceMode := ⟨fun j => do toolChoiceModeFromString (← j.get String)⟩

structure ToolChoice where
  mode : Option ToolChoiceMode
  name : Option String

/-- The object form is for a named tool; the other modes are written as bare strings. -/
def ToolChoice.toJson (c : ToolChoice) : Json :=
  match c.mode with
  | some .tool =>
    let j := Json.emptyObject
    let j := j.set "type" (.of "tool")
    putOptional j "name" c.name
  | some mode => .of mode.toString
  | none => .emptyObject

instance : ToJson ToolChoice := ⟨ToolChoice.toJson⟩

def ToolChoice.fromJson (j : Json) : Except Exception ToolChoice :=
  match j with
  | .string s => do
    let mode ← (Json.string s).get ToolChoiceMode
    return { mode := some mode, name := none }
  | .object kvs =>
    match (Json.object kvs).find "type" with
    | some (.string "tool") => do
      let name ← takeOptional String (.object kvs) "name"
      return { mode := some .tool, name }
    -- any other type: the legacy form
    | _ => do
      let mode ← takeOptional ToolChoiceMode (.object kvs) "mode"
      let name ← takeOptional String (.object kvs) "name"
      return { mode, name }
  | _ => raise ErrorCode.parseError "toolChoice must be a string or an object"

instance : FromJson ToolChoice := ⟨ToolChoice.fromJson⟩

structure CreateMessageRequestParams where
  messages : List SamplingMessage
  modelPreferences : Option ModelPreferences
  systemPrompt : Option String
  includeContext : Option IncludeContext
  temperature : Option ℚ
  maxTokens : Int64
  stopSequences : Option (List String)
  metadata : Option Json
  tools : Option (List Tool)
  toolChoice : Option ToolChoice

def CreateMessageRequestParams.toJson (p : CreateMessageRequestParams) : Json :=
  let j := Json.emptyObject
  let j := j.set "messages" (.of p.messages)
  let j := j.set "maxTokens" (.of p.maxTokens)
  let j := putOptional j "modelPreferences" p.modelPreferences
  let j := putOptional j "systemPrompt" p.systemPrompt
  let j := putOptional j "includeContext" p.includeContext
  let j := putOptional j "temperature" p.temperature
  let j := putOptional j "stopSequences" p.stopSequences
  let j := putOptional j "metadata" p.metadata
  let j := putOptional j "tools" p.tools
  putOptional j "toolChoice" p.toolChoice

instance : ToJson CreateMessageRequestParams := ⟨CreateMessageRequestParams.toJson⟩

/-- Read strictly: nothing is clamped, and nothing negative is let in. -/
def maxTokensFromJson (mt : Json) : Except Exception Int64 :=
  match mt with
  | .integer i =>
    if i < 0 then raise ErrorCode.invalidParams "maxTokens must be non-negative" else .ok i
  | .unsigned u =>
    -- is_number_integer holds of these too, and get<int64_t> wraps
    if u.toInt64 < 0 then raise ErrorCode.invalidParams "maxTokens must be non-negative"
    else if Int64.maxValue.toInt.toNat < u.toNat then
      raise ErrorCode.invalidParams "maxTokens overflows int64"
    else .ok u.toInt64
  | _ => raise ErrorCode.invalidParams "maxTokens must be an integer"

def CreateMessageRequestParams.fromJson (j : Json) :
    Except Exception CreateMessageRequestParams := do
  let messages ← getAt (List SamplingMessage) j "messages"
  let maxTokens ← maxTokensFromJson (← getAt Json j "maxTokens")
  let modelPreferences ← takeOptional ModelPreferences j "modelPreferences"
  let systemPrompt ← takeOptional String j "systemPrompt"
  let includeContext ← takeOptional IncludeContext j "includeContext"
  let temperature ← takeOptional ℚ j "temperature"
  let stopSequences ← takeArray String j "stopSequences"
  let metadata := takeOptionalJson j "metadata"
  let tools ← takeOptional (List Tool) j "tools"
  let toolChoice ← takeOptional ToolChoice j "toolChoice"
  return {
    messages, modelPreferences, systemPrompt, includeContext, temperature, maxTokens,
    stopSequences, metadata, tools, toolChoice }

instance : FromJson CreateMessageRequestParams := ⟨CreateMessageRequestParams.fromJson⟩

end Mcp
