import Mcp.Protocol.Content

/-! The handshake: what each party says of itself, and the capabilities it offers. -/
namespace Mcp

def kLatestProtocolVersion : String := "2025-11-25"

structure Implementation where
  name : String
  title : Option String
  version : String
  description : Option String
  websiteUrl : Option String
  icons : Option (List Icon)
  «meta» : Option Json

def Implementation.toJson (i : Implementation) : Json :=
  let j := Json.emptyObject
  let j := j.set "name" (.of i.name)
  let j := j.set "version" (.of i.version)
  let j := putOptional j "title" i.title
  let j := putOptional j "description" i.description
  let j := putOptional j "websiteUrl" i.websiteUrl
  let j := putOptional j "icons" i.icons
  putOptional j "_meta" i.meta

instance : ToJson Implementation := ⟨Implementation.toJson⟩

def Implementation.fromJson (j : Json) : Except Exception Implementation := do
  let name ← require String j "name"
  let version ← require String j "version"
  let title ← takeOptional String j "title"
  let description ← takeOptional String j "description"
  let websiteUrl ← takeOptional String j "websiteUrl"
  let icons ← takeOptional (List Icon) j "icons"
  let «meta» := takeOptionalJson j "_meta"
  return { name, title, version, description, websiteUrl, icons, «meta» }

instance : FromJson Implementation := ⟨Implementation.fromJson⟩

/-- Presence-only objects, one for each namespace of requests. -/
structure TasksRequestsCapability where
  tools : Option Json
  sampling : Option Json
  elicitation : Option Json

def TasksRequestsCapability.toJson (c : TasksRequestsCapability) : Json :=
  let j := Json.emptyObject
  let j := putOptional j "tools" c.tools
  let j := putOptional j "sampling" c.sampling
  putOptional j "elicitation" c.elicitation

instance : ToJson TasksRequestsCapability := ⟨TasksRequestsCapability.toJson⟩

def TasksRequestsCapability.fromJson (j : Json) : Except Exception TasksRequestsCapability :=
  .ok {
    tools := takeOptionalJson j "tools"
    sampling := takeOptionalJson j "sampling"
    elicitation := takeOptionalJson j "elicitation" }

instance : FromJson TasksRequestsCapability := ⟨TasksRequestsCapability.fromJson⟩

structure TasksCapability where
  list : Option Json
  cancel : Option Json
  requests : Option TasksRequestsCapability

def TasksCapability.toJson (c : TasksCapability) : Json :=
  let j := Json.emptyObject
  let j := putOptional j "list" c.list
  let j := putOptional j "cancel" c.cancel
  putOptional j "requests" c.requests

instance : ToJson TasksCapability := ⟨TasksCapability.toJson⟩

def TasksCapability.fromJson (j : Json) : Except Exception TasksCapability := do
  let list := takeOptionalJson j "list"
  let cancel := takeOptionalJson j "cancel"
  let requests ← takeOptional TasksRequestsCapability j "requests"
  return { list, cancel, requests }

instance : FromJson TasksCapability := ⟨TasksCapability.fromJson⟩

structure RootsCapability where
  listChanged : Option Bool

def RootsCapability.toJson (c : RootsCapability) : Json :=
  putOptional Json.emptyObject "listChanged" c.listChanged

instance : ToJson RootsCapability := ⟨RootsCapability.toJson⟩

def RootsCapability.fromJson (j : Json) : Except Exception RootsCapability := do
  let listChanged ← takeOptional Bool j "listChanged"
  return { listChanged }

instance : FromJson RootsCapability := ⟨RootsCapability.fromJson⟩

structure SamplingCapability where
  context : Option Json
  tools : Option Json

def SamplingCapability.toJson (c : SamplingCapability) : Json :=
  let j := Json.emptyObject
  let j := putOptional j "context" c.context
  putOptional j "tools" c.tools

instance : ToJson SamplingCapability := ⟨SamplingCapability.toJson⟩

def SamplingCapability.fromJson (j : Json) : Except Exception SamplingCapability :=
  .ok { context := takeOptionalJson j "context", tools := takeOptionalJson j "tools" }

instance : FromJson SamplingCapability := ⟨SamplingCapability.fromJson⟩

structure ElicitationCapability where
  form : Option Json
  url : Option Json

def ElicitationCapability.toJson (c : ElicitationCapability) : Json :=
  let j := Json.emptyObject
  let j := putOptional j "form" c.form
  putOptional j "url" c.url

instance : ToJson ElicitationCapability := ⟨ElicitationCapability.toJson⟩

def ElicitationCapability.fromJson (j : Json) : Except Exception ElicitationCapability :=
  .ok { form := takeOptionalJson j "form", url := takeOptionalJson j "url" }

instance : FromJson ElicitationCapability := ⟨ElicitationCapability.fromJson⟩

structure ClientCapabilities where
  experimental : Option Json
  roots : Option RootsCapability
  sampling : Option SamplingCapability
  elicitation : Option ElicitationCapability
  tasks : Option TasksCapability

def ClientCapabilities.toJson (c : ClientCapabilities) : Json :=
  let j := Json.emptyObject
  let j := putOptional j "experimental" c.experimental
  let j := putOptional j "roots" c.roots
  let j := putOptional j "sampling" c.sampling
  let j := putOptional j "elicitation" c.elicitation
  putOptional j "tasks" c.tasks

instance : ToJson ClientCapabilities := ⟨ClientCapabilities.toJson⟩

/-- A value that is no object has no members, and reads as no capability at all. -/
def ClientCapabilities.fromJson (j : Json) : Except Exception ClientCapabilities := do
  let experimental := takeOptionalJson j "experimental"
  let roots ← takeOptional RootsCapability j "roots"
  let sampling ← takeOptional SamplingCapability j "sampling"
  let elicitation ← takeOptional ElicitationCapability j "elicitation"
  let tasks ← takeOptional TasksCapability j "tasks"
  return { experimental, roots, sampling, elicitation, tasks }

instance : FromJson ClientCapabilities := ⟨ClientCapabilities.fromJson⟩

structure PromptsCapability where
  listChanged : Option Bool := none

def PromptsCapability.toJson (c : PromptsCapability) : Json :=
  putOptional Json.emptyObject "listChanged" c.listChanged

instance : ToJson PromptsCapability := ⟨PromptsCapability.toJson⟩

def PromptsCapability.fromJson (j : Json) : Except Exception PromptsCapability := do
  let listChanged ← takeOptional Bool j "listChanged"
  return { listChanged }

instance : FromJson PromptsCapability := ⟨PromptsCapability.fromJson⟩

structure ResourcesCapability where
  subscribe : Option Bool := none
  listChanged : Option Bool := none

def ResourcesCapability.toJson (c : ResourcesCapability) : Json :=
  let j := Json.emptyObject
  let j := putOptional j "subscribe" c.subscribe
  putOptional j "listChanged" c.listChanged

instance : ToJson ResourcesCapability := ⟨ResourcesCapability.toJson⟩

def ResourcesCapability.fromJson (j : Json) : Except Exception ResourcesCapability := do
  let subscribe ← takeOptional Bool j "subscribe"
  let listChanged ← takeOptional Bool j "listChanged"
  return { subscribe, listChanged }

instance : FromJson ResourcesCapability := ⟨ResourcesCapability.fromJson⟩

structure ToolsCapability where
  listChanged : Option Bool := none

def ToolsCapability.toJson (c : ToolsCapability) : Json :=
  putOptional Json.emptyObject "listChanged" c.listChanged

instance : ToJson ToolsCapability := ⟨ToolsCapability.toJson⟩

def ToolsCapability.fromJson (j : Json) : Except Exception ToolsCapability := do
  let listChanged ← takeOptional Bool j "listChanged"
  return { listChanged }

instance : FromJson ToolsCapability := ⟨ToolsCapability.fromJson⟩

structure ServerCapabilities where
  experimental : Option Json
  logging : Option Json
  completions : Option Json
  prompts : Option PromptsCapability
  resources : Option ResourcesCapability
  tools : Option ToolsCapability
  tasks : Option TasksCapability

def ServerCapabilities.toJson (c : ServerCapabilities) : Json :=
  let j := Json.emptyObject
  let j := putOptional j "experimental" c.experimental
  let j := putOptional j "logging" c.logging
  let j := putOptional j "completions" c.completions
  let j := putOptional j "prompts" c.prompts
  let j := putOptional j "resources" c.resources
  let j := putOptional j "tools" c.tools
  putOptional j "tasks" c.tasks

instance : ToJson ServerCapabilities := ⟨ServerCapabilities.toJson⟩

def ServerCapabilities.fromJson (j : Json) : Except Exception ServerCapabilities := do
  let experimental := takeOptionalJson j "experimental"
  let logging := takeOptionalJson j "logging"
  let completions := takeOptionalJson j "completions"
  let prompts ← takeOptional PromptsCapability j "prompts"
  let resources ← takeOptional ResourcesCapability j "resources"
  let tools ← takeOptional ToolsCapability j "tools"
  let tasks ← takeOptional TasksCapability j "tasks"
  return { experimental, logging, completions, prompts, resources, tools, tasks }

instance : FromJson ServerCapabilities := ⟨ServerCapabilities.fromJson⟩

structure InitializeRequestParams where
  protocolVersion : String
  capabilities : ClientCapabilities
  clientInfo : Implementation

def InitializeRequestParams.toJson (p : InitializeRequestParams) : Json :=
  let j := Json.emptyObject
  let j := j.set "protocolVersion" (.of p.protocolVersion)
  let j := j.set "capabilities" (.of p.capabilities)
  j.set "clientInfo" (.of p.clientInfo)

instance : ToJson InitializeRequestParams := ⟨InitializeRequestParams.toJson⟩

def InitializeRequestParams.fromJson (j : Json) : Except Exception InitializeRequestParams := do
  let protocolVersion ← require String j "protocolVersion"
  let capabilities ← getAt ClientCapabilities j "capabilities"
  let clientInfo ← getAt Implementation j "clientInfo"
  return { protocolVersion, capabilities, clientInfo }

instance : FromJson InitializeRequestParams := ⟨InitializeRequestParams.fromJson⟩

structure InitializeResult where
  protocolVersion : String
  capabilities : ServerCapabilities
  serverInfo : Implementation
  instructions : Option String
  «meta» : Option Json

def InitializeResult.toJson (r : InitializeResult) : Json :=
  let j := Json.emptyObject
  let j := j.set "protocolVersion" (.of r.protocolVersion)
  let j := j.set "capabilities" (.of r.capabilities)
  let j := j.set "serverInfo" (.of r.serverInfo)
  let j := putOptional j "instructions" r.instructions
  putOptional j "_meta" r.meta

instance : ToJson InitializeResult := ⟨InitializeResult.toJson⟩

def InitializeResult.fromJson (j : Json) : Except Exception InitializeResult := do
  let protocolVersion ← require String j "protocolVersion"
  let capabilities ← getAt ServerCapabilities j "capabilities"
  let serverInfo ← getAt Implementation j "serverInfo"
  let instructions ← takeOptional String j "instructions"
  let «meta» := takeOptionalJson j "_meta"
  return { protocolVersion, capabilities, serverInfo, instructions, «meta» }

instance : FromJson InitializeResult := ⟨InitializeResult.fromJson⟩

end Mcp
