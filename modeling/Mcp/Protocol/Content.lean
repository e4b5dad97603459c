import Mcp.Error

/-! Content blocks, the resources they refer to, and the results built from them, with their
codecs. -/
namespace Mcp

structure Icon where
  src : String
  mimeType : Option String
  sizes : Option String
  theme : Option String

def Icon.toJson (c : Icon) : Json :=
  let j := Json.emptyObject
  let j := j.set "src" (.of c.src)
  let j := putOptional j "mimeType" c.mimeType
  let j := putOptional j "sizes" c.sizes
  putOptional j "theme" c.theme

instance : ToJson Icon := ⟨Icon.toJson⟩

def Icon.fromJson (j : Json) : Except Exception Icon := do
  let src ← require String j "src"
  let mimeType ← takeOptional String j "mimeType"
  let sizes ← takeOptional String j "sizes"
  let theme ← takeOptional String j "theme"
  return { src, mimeType, sizes, theme }

instance : FromJson Icon := ⟨Icon.fromJson⟩

inductive Role where
  | user
  | assistant
  deriving DecidableEq, Repr

def Role.toString : Role → String
  | .user => "user"
  | .assistant => "assistant"

def roleFromString (s : String) : Except Exception Role :=
  if s = "user" then .ok .user
  else if s = "assistant" then .ok .assistant
  else raise ErrorCode.parseError ("unknown role: " ++ s)

instance : ToJson Role := ⟨fun r => .of r.toString⟩
instance : FromJson Role := ⟨fun j => do roleFromString (← j.get String)⟩

structure Annotations where
  audience : Option (List Role)
  priority : Option ℚ
  lastModified : Option String

def Annotations.toJson (a : Annotations) : Json :=
  let j := Json.emptyObject
  let j := match a.audience with
    | none => j
    | some audience => j.set "audience" (.array (audience.map Json.of))
  let j := putOptional j "priority" a.priority
  putOptional j "lastModified" a.lastModified

instance : ToJson Annotations := ⟨Annotations.toJson⟩

/-- An audience that is not an array is passed over. -/
def Annotations.readAudience (j : Json) : Except Exception (Option (List Role)) :=
  match j.find "audience" with
  | some (.array xs) => do
    let roles ← xs.mapM (Json.get Role)
    return some roles
  | _ => .ok none

def Annotations.fromJson (j : Json) : Except Exception Annotations := do
  let audience ← readAudience j
  let priority ← takeOptional ℚ j "priority"
  let lastModified ← takeOptional String j "lastModified"
  return { audience, priority, lastModified }

instance : FromJson Annotations := ⟨Annotations.fromJson⟩

structure TextContent where
  text : String
  annotations : Option Annotations

def TextContent.toJson (c : TextContent) : Json :=
  let j := Json.emptyObject
  let j := j.set "type" (.of "text")
  let j := j.set "text" (.of c.text)
  putOptional j "annotations" c.annotations

instance : ToJson TextContent := ⟨TextContent.toJson⟩

def TextContent.fromJson (j : Json) : Except Exception TextContent := do
  let text ← require String j "text"
  let annotations ← takeOptional Annotations j "annotations"
  return { text, annotations }

instance : FromJson TextContent := ⟨TextContent.fromJson⟩

structure ImageContent where
  data : String
  mimeType : String
  annotations : Option Annotations

def ImageContent.toJson (c : ImageContent) : Json :=
  let j := Json.emptyObject
  let j := j.set "type" (.of "image")
  let j := j.set "data" (.of c.data)
  let j := j.set "mimeType" (.of c.mimeType)
  putOptional j "annotations" c.annotations

instance : ToJson ImageContent := ⟨ImageContent.toJson⟩

def ImageContent.fromJson (j : Json) : Except Exception ImageContent := do
  let data ← require String j "data"
  let mimeType ← require String j "mimeType"
  let annotations ← takeOptional Annotations j "annotations"
  return { data, mimeType, annotations }

instance : FromJson ImageContent := ⟨ImageContent.fromJson⟩

structure AudioContent where
  data : String
  mimeType : String
  annotations : Option Annotations

def AudioContent.toJson (c : AudioContent) : Json :=
  let j := Json.emptyObject
  let j := j.set "type" (.of "audio")
  let j := j.set "data" (.of c.data)
  let j := j.set "mimeType" (.of c.mimeType)
  putOptional j "annotations" c.annotations

instance : ToJson AudioContent := ⟨AudioContent.toJson⟩

def AudioContent.fromJson (j : Json) : Except Exception AudioContent := do
  let data ← require String j "data"
  let mimeType ← require String j "mimeType"
  let annotations ← takeOptional Annotations j "annotations"
  return { data, mimeType, annotations }

instance : FromJson AudioContent := ⟨AudioContent.fromJson⟩

structure TextResourceContents where
  uri : String
  mimeType : Option String
  text : String

def TextResourceContents.toJson (c : TextResourceContents) : Json :=
  let j := Json.emptyObject
  let j := j.set "uri" (.of c.uri)
  let j := j.set "text" (.of c.text)
  putOptional j "mimeType" c.mimeType

instance : ToJson TextResourceContents := ⟨TextResourceContents.toJson⟩

def TextResourceContents.fromJson (j : Json) : Except Exception TextResourceContents := do
  let uri ← require String j "uri"
  let text ← require String j "text"
  let mimeType ← takeOptional String j "mimeType"
  return { uri, text, mimeType }

instance : FromJson TextResourceContents := ⟨TextResourceContents.fromJson⟩

structure BlobResourceContents where
  uri : String
  mimeType : Option String
  blob : String

def BlobResourceContents.toJson (c : BlobResourceContents) : Json :=
  let j := Json.emptyObject
  let j := j.set "uri" (.of c.uri)
  let j := j.set "blob" (.of c.blob)
  putOptional j "mimeType" c.mimeType

instance : ToJson BlobResourceContents := ⟨BlobResourceContents.toJson⟩

def BlobResourceContents.fromJson (j : Json) : Except Exception BlobResourceContents := do
  let uri ← require String j "uri"
  let blob ← require String j "blob"
  let mimeType ← takeOptional String j "mimeType"
  return { uri, blob, mimeType }

instance : FromJson BlobResourceContents := ⟨BlobResourceContents.fromJson⟩

/-- On the wire the two kinds differ in which member they have. -/
inductive ResourceContents where
  | text (c : TextResourceContents)
  | blob (c : BlobResourceContents)

def ResourceContents.toJson : ResourceContents → Json
  | .text c => .of c
  | .blob c => .of c

instance : ToJson ResourceContents := ⟨ResourceContents.toJson⟩

def ResourceContents.fromJson (j : Json) : Except Exception ResourceContents :=
  if j.contains "text" then do
    let c ← j.get TextResourceContents
    return .text c
  else if j.contains "blob" then do
    let c ← j.get BlobResourceContents
    return .blob c
  else raise ErrorCode.parseError "ResourceContents must have either \"text\" or \"blob\""

instance : FromJson ResourceContents := ⟨ResourceContents.fromJson⟩

structure ResourceLink where
  uri : String
  name : String
  title : Option String
  description : Option String
  mimeType : Option String
  annotations : Option Annotations
  size : Option Int64
  icons : Option (List Icon)
  «meta» : Option Json

def ResourceLink.toJson (r : ResourceLink) : Json :=
  let j := Json.emptyObject
  let j := j.set "type" (.of "resource_link")
  let j := j.set "uri" (.of r.uri)
  let j := j.set "name" (.of r.name)
  let j := putOptional j "title" r.title
  let j := putOptional j "description" r.description
  let j := putOptional j "mimeType" r.mimeType
  let j := putOptional j "annotations" r.annotations
  let j := putOptional j "size" r.size
  let j := putOptional j "icons" r.icons
  putOptional j "_meta" r.meta

instance : ToJson ResourceLink := ⟨ResourceLink.toJson⟩

def ResourceLink.fromJson (j : Json) : Except Exception ResourceLink := do
  let uri ← require String j "uri"
  let name ← require String j "name"
  let title ← takeOptional String j "title"
  let description ← takeOptional String j "description"
  let mimeType ← takeOptional String j "mimeType"
  let annotations ← takeOptional Annotations j "annotations"
  let size ← takeOptional Int64 j "size"
  let icons ← takeOptional (List Icon) j "icons"
  let «meta» := takeOptionalJson j "_meta"
  return { uri, name, title, description, mimeType, annotations, size, icons, «meta» }

instance : FromJson ResourceLink := ⟨ResourceLink.fromJson⟩

structure EmbeddedResource where
  resource : ResourceContents
  annotations : Option Annotations

def EmbeddedResource.toJson (r : EmbeddedResource) : Json :=
  let j := Json.emptyObject
  let j := j.set "type" (.of "resource")
  let j := j.set "resource" (.of r.resource)
  putOptional j "annotations" r.annotations

instance : ToJson EmbeddedResource := ⟨EmbeddedResource.toJson⟩

def EmbeddedResource.fromJson (j : Json) : Except Exception EmbeddedResource := do
  let resource ← getAt ResourceContents j "resource"
  let annotations ← takeOptional Annotations j "annotations"
  return { resource, annotations }

instance : FromJson EmbeddedResource := ⟨EmbeddedResource.fromJson⟩

/-- A tool call the assistant emits. -/
structure ToolUseContent where
  id : String
  name : String
  input : Json
  annotations : Option Annotations

def ToolUseContent.toJson (c : ToolUseContent) : Json :=
  let j := Json.emptyObject
  let j := j.set "type" (.of "tool_use")
  let j := j.set "id" (.of c.id)
  let j := j.set "name" (.of c.name)
  let j := j.set "input" c.input
  putOptional j "annotations" c.annotations

instance : ToJson ToolUseContent := ⟨ToolUseContent.toJson⟩

def ToolUseContent.fromJson (j : Json) : Except Exception ToolUseContent := do
  let id ← require String j "id"
  let name ← require String j "name"
  let input ← require Json j "input"
  let annotations ← takeOptional Annotations j "annotations"
  return { id, name, input, annotations }

instance : FromJson ToolUseContent := ⟨ToolUseContent.fromJson⟩

/-- The blocks a tool result may hold: no nested tool blocks. -/
inductive PlainContentBlock where
  | text (c : TextContent)
  | image (c : ImageContent)
  | audio (c : AudioContent)
  | resourceLink (r : ResourceLink)
  | resource (r : EmbeddedResource)

def PlainContentBlock.toJson : PlainContentBlock → Json
  | .text c => .of c
  | .image c => .of c
  | .audio c => .of c
  | .resourceLink r => .of r
  | .resource r => .of r

instance : ToJson PlainContentBlock := ⟨PlainContentBlock.toJson⟩

def PlainContentBlock.fromJson (j : Json) : Except Exception PlainContentBlock := do
  let t ← require String j "type"
  if t = "text" then return .text (← j.get _)
  else if t = "image" then return .image (← j.get _)
  else if t = "audio" then return .audio (← j.get _)
  else if t = "resource_link" then return .resourceLink (← j.get _)
  else if t = "resource" then return .resource (← j.get _)
  else raise ErrorCode.parseError ("plain content block must not be \"" ++ t ++ "\"")

instance : FromJson PlainContentBlock := ⟨PlainContentBlock.fromJson⟩

/-- The result of an earlier tool call. -/
structure ToolResultContent where
  toolUseId : String
  content : List PlainContentBlock
  isError : Option Bool
  annotations : Option Annotations

def ToolResultContent.toJson (c : ToolResultContent) : Json :=
  let j := Json.emptyObject
  let j := j.set "type" (.of "tool_result")
  let j := j.set "toolUseId" (.of c.toolUseId)
  let j := j.set "content" (.of c.content)
  let j := putOptional j "isError" c.isError
  putOptional j "annotations" c.annotations

instance : ToJson ToolResultContent := ⟨ToolResultContent.toJson⟩

def ToolResultContent.fromJson (j : Json) : Except Exception ToolResultContent := do
  let toolUseId ← require String j "toolUseId"
  let content ← getAt (List PlainContentBlock) j "content"
  let isError ← takeOptional Bool j "isError"
  let annotations ← takeOptional Annotations j "annotations"
  return { toolUseId, content, isError, annotations }

instance : FromJson ToolResultContent := ⟨ToolResultContent.fromJson⟩

/-- The blocks of tool calls, prompts and sampling. -/
inductive ContentBlock where
  | text (c : TextContent)
  | image (c : ImageContent)
  | audio (c : AudioContent)
  | resourceLink (r : ResourceLink)
  | resource (r : EmbeddedResource)
  | toolUse (c : ToolUseContent)
  | toolResult (c : ToolResultContent)

def ContentBlock.toJson : ContentBlock → Json
  | .text c => .of c
  | .image c => .of c
  | .audio c => .of c
  | .resourceLink r => .of r
  | .resource r => .of r
  | .toolUse c => .of c
  | .toolResult c => .of c

instance : ToJson ContentBlock := ⟨ContentBlock.toJson⟩

def ContentBlock.fromJson (j : Json) : Except Exception ContentBlock := do
  let t ← require String j "type"
  if t = "text" then return .text (← j.get _)
  else if t = "image" then return .image (← j.get _)
  else if t = "audio" then return .audio (← j.get _)
  else if t = "resource_link" then return .resourceLink (← j.get _)
  else if t = "resource" then return .resource (← j.get _)
  else if t = "tool_use" then return .toolUse (← j.get _)
  else if t = "tool_result" then return .toolResult (← j.get _)
  else raise ErrorCode.parseError ("unknown content block type: " ++ t)

instance : FromJson ContentBlock := ⟨ContentBlock.fromJson⟩

structure CallToolResult where
  content : List ContentBlock
  structuredContent : Option Json
  isError : Option Bool
  «meta» : Option Json

def CallToolResult.toJson (r : CallToolResult) : Json :=
  let j := Json.emptyObject
  let j := j.set "content" (.of r.content)
  let j := putOptional j "structuredContent" r.structuredContent
  let j := putOptional j "isError" r.isError
  putOptional j "_meta" r.meta

instance : ToJson CallToolResult := ⟨CallToolResult.toJson⟩

def CallToolResult.fromJson (j : Json) : Except Exception CallToolResult := do
  let content ← getAt (List ContentBlock) j "content"
  let structuredContent := takeOptionalJson j "structuredContent"
  let isError ← takeOptional Bool j "isError"
  let «meta» := takeOptionalJson j "_meta"
  return { content, structuredContent, isError, «meta» }

instance : FromJson CallToolResult := ⟨CallToolResult.fromJson⟩

structure PromptMessage where
  role : Role
  content : ContentBlock

def PromptMessage.toJson (m : PromptMessage) : Json :=
  let j := Json.emptyObject
  let j := j.set "role" (.of m.role)
  j.set "content" (.of m.content)

instance : ToJson PromptMessage := ⟨PromptMessage.toJson⟩

def PromptMessage.fromJson (j : Json) : Except Exception PromptMessage := do
  let role ← getAt Role j "role"
  let content ← getAt ContentBlock j "content"
  return { role, content }

instance : FromJson PromptMessage := ⟨PromptMessage.fromJson⟩

structure GetPromptResult where
  description : Option String
  messages : List PromptMessage
  «meta» : Option Json

def GetPromptResult.toJson (r : GetPromptResult) : Json :=
  let j := Json.emptyObject
  let j := putOptional j "description" r.description
  let j := j.set "messages" (.of r.messages)
  putOptional j "_meta" r.meta

instance : ToJson GetPromptResult := ⟨GetPromptResult.toJson⟩

def GetPromptResult.fromJson (j : Json) : Except Exception GetPromptResult := do
  let description ← takeOptional String j "description"
  let messages ← getAt (List PromptMessage) j "messages"
  let «meta» := takeOptionalJson j "_meta"
  return { description, messages, «meta» }

instance : FromJson GetPromptResult := ⟨GetPromptResult.fromJson⟩

/-- Sampling content: a single block is written bare. -/
def samplingContentToJson : List ContentBlock → Json
  | [block] => .of block
  | content => .of content

/-- A bare block reads as a list of one. -/
def samplingContentFromJson (j : Json) : Except Exception (List ContentBlock) := do
  match ← getAt Json j "content" with
  | .array xs => xs.mapM (Json.get ContentBlock)
  | c => return [← c.get ContentBlock]

structure SamplingMessage where
  role : Role
  content : List ContentBlock

def SamplingMessage.toJson (m : SamplingMessage) : Json :=
  let j := Json.emptyObject
  let j := j.set "role" (.of m.role)
  j.set "content" (samplingContentToJson m.content)

instance : ToJson SamplingMessage := ⟨SamplingMessage.toJson⟩

def SamplingMessage.fromJson (j : Json) : Except Exception SamplingMessage := do
  let role ← getAt Role j "role"
  let content ← samplingContentFromJson j
  return { role, content }

instance : FromJson SamplingMessage := ⟨SamplingMessage.fromJson⟩

structure CreateMessageResult where
  role : Role
  content : List ContentBlock
  model : String
  stopReason : Option String
  «meta» : Option Json

def CreateMessageResult.toJson (r : CreateMessageResult) : Json :=
  let j := Json.emptyObject
  let j := j.set "role" (.of r.role)
  let j := j.set "content" (samplingContentToJson r.content)
  let j := j.set "model" (.of r.model)
  let j := putOptional j "stopReason" r.stopReason
  putOptional j "_meta" r.meta

instance : ToJson CreateMessageResult := ⟨CreateMessageResult.toJson⟩

def CreateMessageResult.fromJson (j : Json) : Except Exception CreateMessageResult := do
  let role ← getAt Role j "role"
  let content ← samplingContentFromJson j
  let model ← require String j "model"
  let stopReason ← takeOptional String j "stopReason"
  let «meta» := takeOptionalJson j "_meta"
  return { role, content, model, stopReason, «meta» }

instance : FromJson CreateMessageResult := ⟨CreateMessageResult.fromJson⟩

end Mcp
