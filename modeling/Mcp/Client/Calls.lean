import Mcp.Protocol.Messages
import Mcp.Session.Requests

/-! The requests that Client sends for its callers: the method, the params, and what the future is
given once the response is there. -/
namespace Mcp.Client

open Tasks

/-- The calls of Client that send one request, by what their futures hold. -/
inductive Request : Type → Type where
  | ping : Request Unit
  | listTools (cursor : Option String) : Request ListToolsResult
  | callTool (name : String) (arguments : Json) : Request CallToolResult
  | callToolAsTask (name : String) (arguments : Json) (ttlMs : Option Int64) :
      Request CreateTaskResult
  | taskGet (taskId : String) : Request Task
  | taskResult (taskId : String) : Request Json
  | taskList (cursor : Option String) : Request TaskStore.ListTasksResult
  | taskCancel (taskId : String) : Request Task
  | listResources (cursor : Option String) : Request ListResourcesResult
  | listResourceTemplates (cursor : Option String) : Request ListResourceTemplatesResult
  | readResource (uri : String) : Request ReadResourceResult
  | subscribe (uri : String) : Request Unit
  | unsubscribe (uri : String) : Request Unit
  | listPrompts (cursor : Option String) : Request ListPromptsResult
  | getPrompt (name : String) (arguments : Option (List (String × String))) :
      Request GetPromptResult
  | setLogLevel (level : LoggingLevel) : Request Unit
  | complete (reference : CompletionReference) (argument : CompleteArgument)
      (contextArguments : Option (List (String × String))) : Request CompleteResult

namespace Request

variable {α : Type}

def method : Request α → String
  | ping => "ping"
  | listTools _ => "tools/list"
  | callTool _ _ | callToolAsTask _ _ _ => "tools/call"
  | taskGet _ => "tasks/get"
  | taskResult _ => "tasks/result"
  | taskList _ => "tasks/list"
  | taskCancel _ => "tasks/cancel"
  | listResources _ => "resources/list"
  | listResourceTemplates _ => "resources/templates/list"
  | readResource _ => "resources/read"
  | subscribe _ => "resources/subscribe"
  | unsubscribe _ => "resources/unsubscribe"
  | listPrompts _ => "prompts/list"
  | getPrompt _ _ => "prompts/get"
  | setLogLevel _ => "logging/setLevel"
  | complete _ _ _ => "completion/complete"

/-- Arguments that are null are left out. -/
def engagedArguments (arguments : Json) : Option Json :=
  if arguments.isNull then none else some arguments

def params : Request α → Json
  | ping => .null
  | listTools cursor => .of { cursor : ListToolsRequestParams }
  | callTool name arguments =>
    .of { name, arguments := engagedArguments arguments, task := none : CallToolRequestParams }
  | callToolAsTask name arguments ttlMs =>
    .of { name, arguments := engagedArguments arguments, task := some ⟨ttlMs⟩ :
      CallToolRequestParams }
  | taskGet taskId => .of { taskId : GetTaskRequestParams }
  | taskResult taskId => .of { taskId : GetTaskResultRequestParams }
  | taskList cursor => .of { cursor : ListTasksRequestParams }
  | taskCancel taskId => .of { taskId : CancelTaskRequestParams }
  | listResources cursor => .of { cursor : ListResourcesRequestParams }
  | listResourceTemplates cursor => .of { cursor : ListResourceTemplatesRequestParams }
  | readResource uri => .of { uri : ReadResourceRequestParams }
  | subscribe uri => .of { uri : SubscribeRequestParams }
  | unsubscribe uri => .of { uri : UnsubscribeRequestParams }
  | listPrompts cursor => .of { cursor : ListPromptsRequestParams }
  | getPrompt name arguments => .of { name, arguments : GetPromptRequestParams }
  | setLogLevel level => .of { level : SetLevelRequestParams }
  | complete reference argument contextArguments =>
    .of { reference, argument, contextArguments : CompleteRequestParams }

/-- What `resolve` makes of a result; a call without a payload does not look at it. -/
def convert : Request α → Json → Except Exception α
  | ping, _ | subscribe _, _ | unsubscribe _, _ | setLogLevel _, _ => .ok ()
  | listTools _, j => j.get _
  | callTool _ _, j => j.get _
  | callToolAsTask _ _ _, j => j.get _
  | taskGet _, j | taskCancel _, j => j.get _
  | taskResult _, j => .ok j
  | taskList _, j => j.get _
  | listResources _, j => j.get _
  | listResourceTemplates _, j => j.get _
  | readResource _, j => j.get _
  | listPrompts _, j => j.get _
  | getPrompt _ _, j => j.get _
  | complete _ _ _, j => j.get _

/-- What the call hands to its Session. -/
def sent (c : Request α) : SentRequest α where
  method := c.method
  params := c.params
  convert := c.convert

/-- The maps that are sent with it name no key twice. -/
def KeysNodup : Request α → Prop
  | getPrompt name arguments => GetPromptRequestParams.KeysNodup { name, arguments }
  | complete reference argument contextArguments =>
    CompleteRequestParams.KeysNodup { reference, argument, contextArguments }
  | _ => True

/-- The same call, its maps in some order. -/
inductive Same : {β : Type} → Request β → Request β → Prop where
  | refl {β : Type} (c : Request β) : Same c c
  | getPrompt {name args args'} : Option.Rel List.Perm args args' →
      Same (.getPrompt name args) (.getPrompt name args')
  | complete {reference argument context context'} : Option.Rel List.Perm context context' →
      Same (.complete reference argument context) (.complete reference argument context')

/-- No raw optional member of the value is an engaged null. -/
def NullFree : Request α → α → Prop
  | listTools _, r => r.NullFree
  | callTool _ _, r => r.NullFree
  | listResources _, r => r.NullFree
  | listResourceTemplates _, r => r.NullFree
  | readResource _, r => r.NullFree
  | listPrompts _, r => r.NullFree
  | getPrompt _ _, r => r.NullFree
  | _, _ => True

end Request

end Mcp.Client
