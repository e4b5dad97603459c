import Mcp.Protocol.Content

/-! What a server lists and runs: tools, resources and prompts, the params of the requests for
them, and the results. -/
namespace Mcp

structure ToolAnnotations where
  title : Option String
  readOnlyHint : Option Bool
  destructiveHint : Option Bool
  idempotentHint : Option Bool
  openWorldHint : Option Bool

def ToolAnnotations.toJson (a : ToolAnnotations) : Json :=
  let j := Json.emptyObject
  let j := putOptional j "title" a.title
  let j := putOptional j "readOnlyHint" a.readOnlyHint
  let j := putOptional j "destructiveHint" a.destructiveHint
  let j := putOptional j "idempotentHint" a.idempotentHint
  putOptional j "openWorldHint" a.openWorldHint

instance : ToJson ToolAnnotations := ⟨ToolAnnotations.toJson⟩

def ToolAnnotations.fromJson (j : Json) : Except Exception ToolAnnotations := do
  let title ← takeOptional String j "title"
  let readOnlyHint ← takeOptional Bool j "readOnlyHint"
  let destructiveHint ← takeOptional Bool j "destructiveHint"
  let idempotentHint ← takeOptional Bool j "idempotentHint"
  let openWorldHint ← takeOptional Bool j "openWorldHint"
  return { title, readOnlyHint, destructiveHint, idempotentHint, openWorldHint }

instance : FromJson ToolAnnotations := ⟨ToolAnnotations.fromJson⟩

/-- Whether a tool may, or must, be called as a task. -/
inductive TaskSupport where
  | forbidden
  | optional
  | required
  deriving DecidableEq, Repr

def TaskSupport.toJson : TaskSupport → Json
  | .forbidden => .of "forbidden"
  | .optional => .of "optional"
  | .required => .of "required"

instance : ToJson TaskSupport := ⟨TaskSupport.toJson⟩

def taskSupportFromString (v : String) : Except Exception TaskSupport :=
  if v = "forbidden" then .ok .forbidden
  else if v = "optional" then .ok .optional
  else if v = "required" then .ok .required
  else raise ErrorCode.invalidParams ("tool execution: unknown taskSupport \"" ++ v ++ "\"")

instance : FromJson TaskSupport := ⟨fun j => do taskSupportFromString (← j.get String)⟩

structure ToolExecution where
  taskSupport : TaskSupport := .optional

def ToolExecution.toJson (e : ToolExecution) : Json :=
  Json.emptyObject.set "taskSupport" (.of e.taskSupport)

instance : ToJson ToolExecution := ⟨ToolExecution.toJson⟩

/-- A member that is there is read, null too. -/
def ToolExecution.fromJson (j : Json) : Except Exception ToolExecution :=
  match j.find "taskSupport" with
  | some v => do
    let taskSupport ← v.get TaskSupport
    return { taskSupport }
  | none => .ok { taskSupport := .optional }

instance : FromJson ToolExecution := ⟨ToolExecution.fromJson⟩

structure Tool where
  name : String
  title : Option String
  description : Option String
  inputSchema : Json
  outputSchema : Option Json
  annotations : Option ToolAnnotations
  icons : Option (List Icon)
  execution : Option ToolExecution
  «meta» : Option Json

def Tool.toJson (t : Tool) : Json :=
  let j := Json.emptyObject
  let j := j.set "name" (.of t.name)
  let j := j.set "inputSchema" t.inputSchema
  let j := putOptional j "title" t.title
  let j := putOptional j "description" t.description
  let j := putOptional j "outputSchema" t.outputSchema
  let j := putOptional j "annotations" t.annotations
  let j := putOptional j "icons" t.icons
  let j := putOptional j "execution" t.execution
  putOptional j "_meta" t.meta

instance : ToJson Tool := ⟨Tool.toJson⟩

def Tool.fromJson (j : Json) : Except Exception Tool := do
  let name ← require String j "name"
  let inputSchema ← require Json j "inputSchema"
  let title ← takeOptional String j "title"
  let description ← takeOptional String j "description"
  let outputSchema := takeOptionalJson j "outputSchema"
  let annotations ← takeOptional ToolAnnotations j "annotations"
  let icons ← takeOptional (List Icon) j "icons"
  let execution ← takeOptional ToolExecution j "execution"
  let «meta» := takeOptionalJson j "_meta"
  return {
    name, title, description, inputSchema, outputSchema, annotations, icons, execution, «meta» }

instance : FromJson Tool := ⟨Tool.fromJson⟩

structure Resource where
  uri : String
  name : String
  title : Option String
  description : Option String
  mimeType : Option String
  annotations : Option Annotations
  size : Option Int64
  icons : Option (List Icon)
  «meta» : Option Json

def Resource.toJson (r : Resource) : Json :=
  let j := Json.emptyObject
  let j := j.set "uri" (.of r.uri)
  let j := j.set "name" (.of r.name)
  let j := putOptional j "title" r.title
  let j := putOptional j "description" r.description
  let j := putOptional j "mimeType" r.mimeType
  let j := putOptional j "annotations" r.annotations
  let j := putOptional j "size" r.size
  let j := putOptional j "icons" r.icons
  putOptional j "_meta" r.meta

instance : ToJson Resource := ⟨Resource.toJson⟩

def Resource.fromJson (j : Json) : Except Exception Resource := do
  let uri ← require String j "uri"
  let name ← require String j "name"
  let title ← takeOptional String j "title"
  let description ← takeOptional String j "description"
  let mimeType ← takeOptional String j "mimeType"
  let annotations ← takeOptional Annotations j "annotations"
  let size ← takeOptional Int64 j "size"
  let icons ← takeOptional (List Icon) j "icons"
  let «meta» := takeOptionalJson j "_meta"
  return { uri, name, title, description, mimeType, annotations, size, icons, «meta» }

instance : FromJson Resource := ⟨Resource.fromJson⟩

structure ResourceTemplate where
  uriTemplate : String
  name : String
  title : Option String
  description : Option String
  mimeType : Option String
  annotations : Option Annotations
  icons : Option (List Icon)
  «meta» : Option Json

def ResourceTemplate.toJson (r : ResourceTemplate) : Json :=
  let j := Json.emptyObject
  let j := j.set "uriTemplate" (.of r.uriTemplate)
  let j := j.set "name" (.of r.name)
  let j := putOptional j "title" r.title
  let j := putOptional j "description" r.description
  let j := putOptional j "mimeType" r.mimeType
  let j := putOptional j "annotations" r.annotations
  let j := putOptional j "icons" r.icons
  putOptional j "_meta" r.meta

instance : ToJson ResourceTemplate := ⟨ResourceTemplate.toJson⟩

def ResourceTemplate.fromJson (j : Json) : Except Exception ResourceTemplate := do
  let uriTemplate ← require String j "uriTemplate"
  let name ← require String j "name"
  let title ← takeOptional String j "title"
  let description ← takeOptional String j "description"
  let mimeType ← takeOptional String j "mimeType"
  let annotations ← takeOptional Annotations j "annotations"
  let icons ← takeOptional (List Icon) j "icons"
  let «meta» := takeOptionalJson j "_meta"
  return { uriTemplate, name, title, description, mimeType, annotations, icons, «meta» }

instance : FromJson ResourceTemplate := ⟨ResourceTemplate.fromJson⟩

structure PromptArgument where
  name : String
  title : Option String
  description : Option String
  required : Option Bool

def PromptArgument.toJson (a : PromptArgument) : Json :=
  let j := Json.emptyObject
  let j := j.set "name" (.of a.name)
  let j := putOptional j "title" a.title
  let j := putOptional j "description" a.description
  putOptional j "required" a.required

instance : ToJson PromptArgument := ⟨PromptArgument.toJson⟩

def PromptArgument.fromJson (j : Json) : Except Exception PromptArgument := do
  let name ← require String j "name"
  let title ← takeOptional String j "title"
  let description ← takeOptional String j "description"
  let required ← takeOptional Bool j "required"
  return { name, title, description, required }

instance : FromJson PromptArgument := ⟨PromptArgument.fromJson⟩

structure Prompt where
  name : String
  title : Option String
  description : Option String
  arguments : Option (List PromptArgument)
  icons : Option (List Icon)
  «meta» : Option Json

def Prompt.toJson (p : Prompt) : Json :=
  let j := Json.emptyObject
  let j := j.set "name" (.of p.name)
  let j := putOptional j "title" p.title
  let j := putOptional j "description" p.description
  let j := putOptional j "arguments" p.arguments
  let j := putOptional j "icons" p.icons
  putOptional j "_meta" p.meta

instance : ToJson Prompt := ⟨Prompt.toJson⟩

def Prompt.fromJson (j : Json) : Except Exception Prompt := do
  let name ← require String j "name"
  let title ← takeOptional String j "title"
  let description ← takeOptional String j "description"
  let arguments ← takeOptional (List PromptArgument) j "arguments"
  let icons ← takeOptional (List Icon) j "icons"
  let «meta» := takeOptionalJson j "_meta"
  return { name, title, description, arguments, icons, «meta» }

instance : FromJson Prompt := ⟨Prompt.fromJson⟩

/-- The params that the list requests share. -/
structure ListRequestParams where
  cursor : Option String := none

def ListRequestParams.toJson (p : ListRequestParams) : Json :=
  putOptional Json.emptyObject "cursor" p.cursor

instance : ToJson ListRequestParams := ⟨ListRequestParams.toJson⟩

def ListRequestParams.fromJson (j : Json) : Except Exception ListRequestParams := do
  let cursor ← takeOptional String j "cursor"
  return { cursor }

instance : FromJson ListRequestParams := ⟨ListRequestParams.fromJson⟩

abbrev ListToolsRequestParams := ListRequestParams
abbrev ListResourcesRequestParams := ListRequestParams
abbrev ListResourceTemplatesRequestParams := ListRequestParams
abbrev ListPromptsRequestParams := ListRequestParams

/-- The shape that the list results share: a page under `member`. -/
def listResultToJson {α : Type} [ToJson α] (member : String) (page : List α)
    (nextCursor : Option String) («meta» : Option Json) : Json :=
  let j := Json.emptyObject
  let j := j.set member (.of page)
  let j := putOptional j "nextCursor" nextCursor
  putOptional j "_meta" «meta»

/-- A page under `member`, the next cursor and what else came with them. -/
def listResultFromJson (α : Type) [FromJson α] (member : String) (j : Json) :
    Except Exception (List α × Option String × Option Json) := do
  let page ← getAt (List α) j member
  let nextCursor ← takeOptional String j "nextCursor"
  return (page, nextCursor, takeOptionalJson j "_meta")

structure ListToolsResult where
  tools : List Tool
  nextCursor : Option String
  «meta» : Option Json

instance : ToJson ListToolsResult :=
  ⟨fun r => listResultToJson "tools" r.tools r.nextCursor r.meta⟩

instance : FromJson ListToolsResult where
  fromJson j := do
    let (tools, nextCursor, «meta») ← listResultFromJson Tool "tools" j
    return { tools, nextCursor, «meta» }

structure ListResourcesResult where
  resources : List Resource
  nextCursor : Option String
  «meta» : Option Json

instance : ToJson ListResourcesResult :=
  ⟨fun r => listResultToJson "resources" r.resources r.nextCursor r.meta⟩

instance : FromJson ListResourcesResult where
  fromJson j := do
    let (resources, nextCursor, «meta») ← listResultFromJson Resource "resources" j
    return { resources, nextCursor, «meta» }

structure ListResourceTemplatesResult where
  resourceTemplates : List ResourceTemplate
  nextCursor : Option String
  «meta» : Option Json

instance : ToJson ListResourceTemplatesResult :=
  ⟨fun r => listResultToJson "resourceTemplates" r.resourceTemplates r.nextCursor r.meta⟩

instance : FromJson ListResourceTemplatesResult where
  fromJson j := do
    let (resourceTemplates, nextCursor, «meta») ←
      listResultFromJson ResourceTemplate "resourceTemplates" j
    return { resourceTemplates, nextCursor, «meta» }

structure ListPromptsResult where
  prompts : List Prompt
  nextCursor : Option String
  «meta» : Option Json

instance : ToJson ListPromptsResult :=
  ⟨fun r => listResultToJson "prompts" r.prompts r.nextCursor r.meta⟩

instance : FromJson ListPromptsResult where
  fromJson j := do
    let (prompts, nextCursor, «meta») ← listResultFromJson Prompt "prompts" j
    return { prompts, nextCursor, «meta» }

/-- What asks for a call to run as a task. -/
structure TaskAugmentation where
  ttl : Option Int64

def TaskAugmentation.toJson (t : TaskAugmentation) : Json :=
  putOptional Json.emptyObject "ttl" t.ttl

instance : ToJson TaskAugmentation := ⟨TaskAugmentation.toJson⟩

def TaskAugmentation.fromJson (j : Json) : Except Exception TaskAugmentation := do
  let ttl ← takeOptional Int64 j "ttl"
  return { ttl }

instance : FromJson TaskAugmentation := ⟨TaskAugmentation.fromJson⟩

structure CallToolRequestParams where
  name : String
  arguments : Option Json
  task : Option TaskAugmentation

def CallToolRequestParams.toJson (p : CallToolRequestParams) : Json :=
  let j := Json.emptyObject
  let j := j.set "name" (.of p.name)
  let j := putOptional j "arguments" p.arguments
  putOptional j "task" p.task

instance : ToJson CallToolRequestParams := ⟨CallToolRequestParams.toJson⟩

def CallToolRequestParams.fromJson (j : Json) : Except Exception CallToolRequestParams := do
  let name ← require String j "name"
  let arguments := takeOptionalJson j "arguments"
  let task ← takeOptional TaskAugmentation j "task"
  return { name, arguments, task }

instance : FromJson CallToolRequestParams := ⟨CallToolRequestParams.fromJson⟩

structure ReadResourceRequestParams where
  uri : String

def ReadResourceRequestParams.fromJson (j : Json) :
    Except Exception ReadResourceRequestParams := do
  let uri ← require String j "uri"
  return { uri }

instance : FromJson ReadResourceRequestParams := ⟨ReadResourceRequestParams.fromJson⟩

structure ReadResourceResult where
  contents : List ResourceContents
  «meta» : Option Json

def ReadResourceResult.toJson (r : ReadResourceResult) : Json :=
  let j := Json.emptyObject
  let j := j.set "contents" (.of r.contents)
  putOptional j "_meta" r.meta

instance : ToJson ReadResourceResult := ⟨ReadResourceResult.toJson⟩

/-- The members of an object that are strings, as a map; the others are passed over. -/
def stringMembers (kvs : List (String × Json)) : List (String × String) :=
  kvs.filterMap fun kv =>
    match kv.2 with
    | .string s => some (kv.1, s)
    | _ => none

def putString (j : Json) (kv : String × String) : Json := j.set kv.1 (.of kv.2)

/-- A map of strings, written member by member. -/
def stringObject (m : List (String × String)) : Json := m.foldl putString Json.emptyObject

structure GetPromptRequestParams where
  name : String
  arguments : Option (List (String × String))

def GetPromptRequestParams.fromJson (j : Json) : Except Exception GetPromptRequestParams := do
  let name ← require String j "name"
  let arguments := match j.find "arguments" with
    | some (.object kvs) => some (stringMembers kvs)
    | _ => none
  return { name, arguments }

instance : FromJson GetPromptRequestParams := ⟨GetPromptRequestParams.fromJson⟩

inductive LoggingLevel where
  | debug
  | info
  | notice
  | warning
  | error
  | critical
  | alert
  | emergency
  deriving DecidableEq, Repr

def loggingLevelFromString (s : String) : Except Exception LoggingLevel :=
  if s = "debug" then .ok .debug
  else if s = "info" then .ok .info
  else if s = "notice" then .ok .notice
  else if s = "warning" then .ok .warning
  else if s = "error" then .ok .error
  else if s = "critical" then .ok .critical
  else if s = "alert" then .ok .alert
  else if s = "emergency" then .ok .emergency
  else raise ErrorCode.parseError ("unknown logging level: " ++ s)

instance : FromJson LoggingLevel := ⟨fun j => do loggingLevelFromString (← j.get String)⟩

structure SetLevelRequestParams where
  level : LoggingLevel

def SetLevelRequestParams.fromJson (j : Json) : Except Exception SetLevelRequestParams := do
  let level ← getAt LoggingLevel j "level"
  return { level }

instance : FromJson SetLevelRequestParams := ⟨SetLevelRequestParams.fromJson⟩

structure ResourceTemplateReference where
  uriTemplate : String

def ResourceTemplateReference.toJson (r : ResourceTemplateReference) : Json :=
  let j := Json.emptyObject
  let j := j.set "type" (.of "ref/resource")
  j.set "uri" (.of r.uriTemplate)

instance : ToJson ResourceTemplateReference := ⟨ResourceTemplateReference.toJson⟩

def ResourceTemplateReference.fromJson (j : Json) :
    Except Exception ResourceTemplateReference := do
  let uriTemplate ← require String j "uri"
  return { uriTemplate }

instance : FromJson ResourceTemplateReference := ⟨ResourceTemplateReference.fromJson⟩

structure PromptReference where
  name : String
  title : Option String

def PromptReference.toJson (r : PromptReference) : Json :=
  let j := Json.emptyObject
  let j := j.set "type" (.of "ref/prompt")
  let j := j.set "name" (.of r.name)
  putOptional j "title" r.title

instance : ToJson PromptReference := ⟨PromptReference.toJson⟩

def PromptReference.fromJson (j : Json) : Except Exception PromptReference := do
  let name ← require String j "name"
  let title ← takeOptional String j "title"
  return { name, title }

instance : FromJson PromptReference := ⟨PromptReference.fromJson⟩

inductive CompletionReference where
  | resourceTemplate (r : ResourceTemplateReference)
  | prompt (r : PromptReference)

def CompletionReference.toJson : CompletionReference → Json
  | .resourceTemplate r => .of r
  | .prompt r => .of r

instance : ToJson CompletionReference := ⟨CompletionReference.toJson⟩

def CompletionReference.fromJson (j : Json) : Except Exception CompletionReference := do
  let t ← require String j "type"
  if t = "ref/resource" then return .resourceTemplate (← j.get _)
  else if t = "ref/prompt" then return .prompt (← j.get _)
  else raise ErrorCode.parseError ("unknown completion reference type: " ++ t)

instance : FromJson CompletionReference := ⟨CompletionReference.fromJson⟩

structure CompleteArgument where
  name : String
  value : String

def CompleteArgument.toJson (a : CompleteArgument) : Json :=
  let j := Json.emptyObject
  let j := j.set "name" (.of a.name)
  j.set "value" (.of a.value)

instance : ToJson CompleteArgument := ⟨CompleteArgument.toJson⟩

def CompleteArgument.fromJson (j : Json) : Except Exception CompleteArgument := do
  let name ← require String j "name"
  let value ← require String j "value"
  return { name, value }

instance : FromJson CompleteArgument := ⟨CompleteArgument.fromJson⟩

structure CompleteRequestParams where
  reference : CompletionReference
  argument : CompleteArgument
  contextArguments : Option (List (String × String))

def CompleteRequestParams.toJson (p : CompleteRequestParams) : Json :=
  let j := Json.emptyObject
  let j := j.set "ref" (.of p.reference)
  let j := j.set "argument" (.of p.argument)
  match p.contextArguments with
  | none => j
  | some ctx => j.set "context" (Json.emptyObject.set "arguments" (stringObject ctx))

instance : ToJson CompleteRequestParams := ⟨CompleteRequestParams.toJson⟩

def CompleteRequestParams.fromJson (j : Json) : Except Exception CompleteRequestParams := do
  let reference ← getAt CompletionReference j "ref"
  let argument ← getAt CompleteArgument j "argument"
  let contextArguments := match j.find "context" with
    | some context =>
      match context.find "arguments" with
      | some (.object kvs) => some (stringMembers kvs)
      | _ => none
    | none => none
  return { reference, argument, contextArguments }

instance : FromJson CompleteRequestParams := ⟨CompleteRequestParams.fromJson⟩

structure CompletionValues where
  values : List String
  total : Option Int64
  hasMore : Option Bool

def CompletionValues.toJson (v : CompletionValues) : Json :=
  let j := Json.emptyObject
  let j := j.set "values" (.of v.values)
  let j := putOptional j "total" v.total
  putOptional j "hasMore" v.hasMore

instance : ToJson CompletionValues := ⟨CompletionValues.toJson⟩

def CompletionValues.fromJson (j : Json) : Except Exception CompletionValues := do
  let values ← getAt (List String) j "values"
  let total ← takeOptional Int64 j "total"
  let hasMore ← takeOptional Bool j "hasMore"
  return { values, total, hasMore }

instance : FromJson CompletionValues := ⟨CompletionValues.fromJson⟩

structure CompleteResult where
  completion : CompletionValues

def CompleteResult.toJson (r : CompleteResult) : Json :=
  Json.emptyObject.set "completion" (.of r.completion)

instance : ToJson CompleteResult := ⟨CompleteResult.toJson⟩

/-- The params of tasks/get, tasks/result and tasks/cancel. -/
structure TaskIdRequestParams where
  taskId : String

def TaskIdRequestParams.fromJson (j : Json) : Except Exception TaskIdRequestParams := do
  let taskId ← require String j "taskId"
  return { taskId }

instance : FromJson TaskIdRequestParams := ⟨TaskIdRequestParams.fromJson⟩

abbrev GetTaskRequestParams := TaskIdRequestParams
abbrev GetTaskResultRequestParams := TaskIdRequestParams
abbrev CancelTaskRequestParams := TaskIdRequestParams
abbrev ListTasksRequestParams := ListRequestParams

end Mcp
