import Mcp.Library.Dict
import Mcp.Library.Program
import Mcp.Protocol.Capabilities
import Mcp.Protocol.Catalogue
import Mcp.Server.Paging
import Mcp.Session.Dispatch
import Mcp.Tasks.Store

/-! The request handlers of Server, as programs. One operation is one atomic access, one section
of a mutex, one call of a user's handler or one call of the TaskStore. -/
namespace Mcp.Server

open Tasks Threads

/-- An `unordered_map`, in the order in which it iterates. -/
structure Registered (α : Type) where
  entries : Dict String α
  length_lt : (Dict.list entries).length < 2 ^ 63

/-- The vector a list handler builds from the entries. -/
def Registered.collect {α β : Type} (r : Registered α) (f : α → β) : StdVector β where
  items := (Dict.list r.entries).map f
  length_lt := by simpa using r.length_lt

def Registered.isEmpty {α : Type} (r : Registered α) : Bool := (Dict.list r.entries).isEmpty

structure ToolEntry where
  descriptor : Tool

/-- `handler` says whether the `std::function` is engaged. -/
structure ResourceEntry where
  descriptor : Resource
  handler : Bool

structure PromptEntry where
  descriptor : Prompt
  handler : Bool

/-- What can be registered at any time. -/
structure Registry where
  tools : Registered ToolEntry
  resources : Registered ResourceEntry
  resourceTemplates : StdVector ResourceTemplate
  fallbackResourceHandler : Bool
  prompts : Registered PromptEntry
  loggingEnabled : Bool
  completionHandler : Bool

/-- What is configured before `run`. -/
structure Settings where
  serverInfo : Implementation
  instructions : Option String
  pageSize : UInt64
  /-- `tasks_` is not null. -/
  tasks : Bool
  tasksDefaultTtlMs : Option Int64
  tasksMaxConcurrent : UInt64

/-- What a task worker is given. -/
structure TaskWork where
  tool : String
  arguments : Json
  id : String

inductive Op where
  | loadInitialized
  -- a section of the mutex that guards what is looked at
  | read
  | storeLogLevel (level : LoggingLevel)
  -- the user's handlers
  | callTool (name : String) (arguments : Json)
  | readResource (uri : String)
  | getPrompt (name : String) (arguments : List (String × String))
  | complete (params : CompleteRequestParams)
  -- the TaskStore
  | workersInflight
  | createTask (ttl : Option Int64)
  | workerStarted
  | spawn (w : TaskWork)
  | getTask (id : String)
  | waitResult (id : String)
  | listTasks (cursor : Option String) (pageSize : UInt64)
  | cancelTask (id : String)
  | completeTask (id : String) (result : Json)
  | failTask (id message : String)
  | workerFinished
  -- the Session
  | respond (r : JsonRpcResponse)

def Op.Ans : Op → Type
  | .loadInitialized => Bool
  | .read => Registry
  | .storeLogLevel _ => Unit
  | .callTool _ _ => Except Exception CallToolResult
  | .readResource _ => Except Exception ReadResourceResult
  | .getPrompt _ _ => Except Exception GetPromptResult
  | .complete _ => Except Exception CompletionValues
  | .workersInflight => ℕ
  | .createTask _ => Task
  | .workerStarted => Unit
  | .spawn _ => Except Exception Unit
  | .getTask _ => Option Task
  | .waitResult _ => Except Exception (Option Json)
  | .listTasks _ _ => Except Exception TaskStore.ListTasksResult
  | .cancelTask _ => Option Task
  | .completeTask _ _ => Unit
  | .failTask _ _ => Unit
  | .workerFinished => Unit
  | .respond _ => Unit

/-- What only handle_initialize does. -/
inductive InitializeOp where
  -- compare_exchange_strong(false, true)
  | claimInitialized
  | storeCapabilities (c : ClientCapabilities)

def InitializeOp.Ans : InitializeOp → Type
  | .claimInitialized => Bool
  | .storeCapabilities _ => Unit

abbrev ServerOp := Op ⊕ InitializeOp
abbrev ServerOp.Ans : ServerOp → Type := Sum.elim Op.Ans InitializeOp.Ans

/-- A handler's body: it returns JSON or throws. -/
abbrev Handler (α : Type) := ExceptT Exception (Program Op Op.Ans) α
abbrev ServerHandler (α : Type) := ExceptT Exception (Program ServerOp ServerOp.Ans) α

def perform (o : Op) : Program Op Op.Ans o.Ans := Program.call o

def call (o : Op) : Handler o.Ans := ExceptT.lift (perform o)

def performServer (o : ServerOp) : Program ServerOp ServerOp.Ans (ServerOp.Ans o) :=
  Program.call o

def callServer (o : ServerOp) : ServerHandler (ServerOp.Ans o) := ExceptT.lift (performServer o)

/-- What a user's handler throws, the caller throws. -/
def ofExcept {α : Type} (r : Except Exception α) : Handler α := ExceptT.mk (pure r)

def requireInitialized : Handler Unit := do
  let initialized : Bool ← call .loadInitialized
  if !initialized then raise ErrorCode.invalidRequest "not initialized"

def requireTasks (cfg : Settings) : Handler Unit :=
  if !cfg.tasks then
    raise ErrorCode.methodNotFound "tasks: server has not enabled the tasks capability"
  else pure ()

section Handlers

variable (jsonWhat : JsonException → String) (cfg : Settings)

/-- Decode inside a `try` that reports any `std::exception` as invalid params. -/
def decodeParams (α : Type) [FromJson α] (text : String) (params : Json) : Except Exception α :=
  match params.get α with
  | .ok a => .ok a
  | .error e =>
    match e.what jsonWhat with
    | some what => raise ErrorCode.invalidParams (text ++ what)
    | none => .error e

/-- What the four list handlers have in common. -/
def handleList {α : Type} (collect : Registry → StdVector α)
    (result : List α → Option String → Json) (params : Json) : Handler Json := do
  requireInitialized
  let parsed ← if params.isNull then pure {} else params.get ListRequestParams
  let registry : Registry ← call .read
  let (page, next) ← listPage (collect registry) cfg.pageSize parsed.cursor
  return result page next

def handleListTools : Json → Handler Json :=
  handleList cfg (fun registry => registry.tools.collect (·.descriptor)) fun page next =>
    .of { tools := page, nextCursor := next, «meta» := none : ListToolsResult }

def handleListResources : Json → Handler Json :=
  handleList cfg (fun registry => registry.resources.collect (·.descriptor)) fun page next =>
    .of { resources := page, nextCursor := next, «meta» := none : ListResourcesResult }

def handleListResourceTemplates : Json → Handler Json :=
  handleList cfg (fun registry => registry.resourceTemplates) fun page next =>
    .of { resourceTemplates := page, nextCursor := next, «meta» := none :
      ListResourceTemplatesResult }

def handleListPrompts : Json → Handler Json :=
  handleList cfg (fun registry => registry.prompts.collect (·.descriptor)) fun page next =>
    .of { prompts := page, nextCursor := next, «meta» := none : ListPromptsResult }

/-- The policy a tool declares for calls as a task. -/
def checkTaskSupport (tool : Tool) (parsed : CallToolRequestParams) : Except Exception Unit :=
  match tool.execution with
  | none => .ok ()
  | some execution =>
    if execution.taskSupport = .required ∧ parsed.task.isNone then
      raise ErrorCode.invalidRequest
        ("tool \"" ++ parsed.name ++ "\" requires task augmentation; pass `task` in params")
    else if execution.taskSupport = .forbidden ∧ parsed.task.isSome then
      raise ErrorCode.invalidRequest
        ("tool \"" ++ parsed.name ++ "\" forbids task augmentation")
    else .ok ()

/-- The branch of handle_call_tool that leaves the call to a worker. -/
def callToolAsTask (name : String) (arguments : Json) (task : TaskAugmentation) :
    Handler Json := do
  if !cfg.tasks then
    raise ErrorCode.invalidRequest
      "tasks/tools/call: server has not enabled the tasks capability"
  if 0 < cfg.tasksMaxConcurrent then
    let inflight : ℕ ← call .workersInflight
    if cfg.tasksMaxConcurrent.toNat ≤ inflight then
      raise ErrorCode.invalidRequest
        ("task concurrency limit reached (" ++ toString cfg.tasksMaxConcurrent.toNat ++ ")")
  let created : Task ← call (.createTask (task.ttl.or cfg.tasksDefaultTtlMs))
  let _ ← call .workerStarted
  let spawned : Except Exception Unit ←
    call (.spawn { tool := name, arguments, id := created.taskId })
  ofExcept spawned
  return .of { task := created : CreateTaskResult }

/-- The body of a task worker. -/
def taskWorker (w : TaskWork) : Program Op Op.Ans Unit := do
  let r : Except Exception CallToolResult ← perform (.callTool w.tool w.arguments)
  let _ ← match r with
    | .ok result => perform (.completeTask w.id (.of result))
    | .error (.error e) => perform (.failTask w.id e.message)
    | .error e => perform (.failTask w.id ((e.what jsonWhat).getD "unknown exception"))
  let _ ← perform .workerFinished
  return ()

def handleCallTool (params : Json) : Handler Json := do
  requireInitialized
  let parsed ← decodeParams jsonWhat CallToolRequestParams "invalid tools/call params: " params
  let registry : Registry ← call .read
  match registry.tools.entries.lookup parsed.name with
  | none => raise ErrorCode.methodNotFound ("tool not found: " ++ parsed.name)
  | some entry =>
    let arguments := parsed.arguments.getD .emptyObject
    checkTaskSupport entry.descriptor parsed
    match parsed.task with
    | some task => callToolAsTask cfg parsed.name arguments task
    | none =>
      let result : Except Exception CallToolResult ← call (.callTool parsed.name arguments)
      return .of (← ofExcept result)

def handleReadResource (params : Json) : Handler Json := do
  requireInitialized
  let parsed ←
    decodeParams jsonWhat ReadResourceRequestParams "invalid resources/read params: " params
  let registry : Registry ← call .read
  let handler := match registry.resources.entries.lookup parsed.uri with
    | some entry => entry.handler
    | none => registry.fallbackResourceHandler
  if !handler then raise ErrorCode.methodNotFound ("resource not found: " ++ parsed.uri)
  let result : Except Exception ReadResourceResult ← call (.readResource parsed.uri)
  return .of (← ofExcept result)

def handleGetPrompt (params : Json) : Handler Json := do
  requireInitialized
  let parsed ← decodeParams jsonWhat GetPromptRequestParams "invalid prompts/get params: " params
  let registry : Registry ← call .read
  let handler := match registry.prompts.entries.lookup parsed.name with
    | some entry => entry.handler
    | none => false
  if !handler then raise ErrorCode.methodNotFound ("prompt not found: " ++ parsed.name)
  let result : Except Exception GetPromptResult ←
    call (.getPrompt parsed.name (parsed.arguments.getD []))
  return .of (← ofExcept result)

def handlePing (_params : Json) : Handler Json := return .emptyObject

def handleSetLevel (params : Json) : Handler Json := do
  let registry : Registry ← call .read
  if !registry.loggingEnabled then
    raise ErrorCode.methodNotFound "logging capability is not enabled"
  let parsed ← decodeParams jsonWhat SetLevelRequestParams "invalid logging/setLevel: " params
  let _ ← call (.storeLogLevel parsed.level)
  return .emptyObject

def handleComplete (params : Json) : Handler Json := do
  requireInitialized
  let registry : Registry ← call .read
  if !registry.completionHandler then
    raise ErrorCode.methodNotFound "completion is not enabled on this server"
  let parsed ←
    decodeParams jsonWhat CompleteRequestParams "invalid completion/complete params: " params
  let result : Except Exception CompletionValues ← call (.complete parsed)
  return .of { completion := (← ofExcept result) : CompleteResult }

def handleGetTask (params : Json) : Handler Json := do
  requireInitialized
  requireTasks cfg
  let parsed ← decodeParams jsonWhat GetTaskRequestParams "invalid tasks/get params: " params
  let t : Option Task ← call (.getTask parsed.taskId)
  match t with
  | none => raise ErrorCode.invalidRequest ("task not found: " ++ parsed.taskId)
  | some t => return .of t

def tasksRelatedTaskMetaKey : String := "io.modelcontextprotocol/related-task"

/-- The task id is merged into whatever `_meta` object the result has. -/
def tagResult (value : Json) (taskId : String) : Json :=
  if value.isObject then
    let «meta» : Json := match value.find "_meta" with
      | some (.object kvs) => .object kvs
      | _ => .emptyObject
    value.set "_meta" («meta».set tasksRelatedTaskMetaKey
      (Json.emptyObject.set "taskId" (.of taskId)))
  else value

def handleGetTaskResult (params : Json) : Handler Json := do
  requireInitialized
  requireTasks cfg
  let parsed ←
    decodeParams jsonWhat GetTaskResultRequestParams "invalid tasks/result params: " params
  let value : Except Exception (Option Json) ← call (.waitResult parsed.taskId)
  match ← ofExcept value with
  | none =>
    let cur : Option Task ← call (.getTask parsed.taskId)
    let data := match cur with
      | some t => Json.emptyObject.set "task" (.of t)
      | none => Json.emptyObject
    throw (.error {
      code := ErrorCode.invalidRequest
      message := "task " ++ parsed.taskId ++
        " not yet terminal; re-call tasks/result or poll tasks/get"
      data })
  | some value => return tagResult value parsed.taskId

def handleListTasks (params : Json) : Handler Json := do
  requireInitialized
  requireTasks cfg
  let parsed ← if params.isNull then pure {}
    else decodeParams jsonWhat ListTasksRequestParams "invalid tasks/list params: " params
  let result : Except Exception TaskStore.ListTasksResult ←
    call (.listTasks parsed.cursor cfg.pageSize)
  return .of (← ofExcept result)

def handleCancelTask (params : Json) : Handler Json := do
  requireInitialized
  requireTasks cfg
  let parsed ← decodeParams jsonWhat CancelTaskRequestParams "invalid tasks/cancel params: " params
  let t : Option Task ← call (.cancelTask parsed.taskId)
  match t with
  | none => raise ErrorCode.invalidRequest ("task not found: " ++ parsed.taskId)
  | some t => return .of t

/-- Only the first of several gets past the claim; the capabilities offered are those that
something is registered for. -/
def handleInitialize (params : Json) : ServerHandler Json := do
  let parsed ← decodeParams jsonWhat InitializeRequestParams "invalid initialize params: " params
  let won : Bool ← callServer (.inr .claimInitialized)
  if !won then raise ErrorCode.invalidRequest "already initialized"
  let _ ← callServer (.inr (.storeCapabilities parsed.capabilities))
  let tools : Registry ← callServer (.inl .read)
  let resources : Registry ← callServer (.inl .read)
  let prompts : Registry ← callServer (.inl .read)
  let logging : Registry ← callServer (.inl .read)
  let completions : Registry ← callServer (.inl .read)
  let capabilities : ServerCapabilities := {
    experimental := none
    logging := if logging.loggingEnabled then some .emptyObject else none
    completions := if completions.completionHandler then some .emptyObject else none
    prompts := if prompts.prompts.isEmpty then none else some {}
    resources :=
      if !resources.resources.isEmpty || !resources.resourceTemplates.items.isEmpty ||
        resources.fallbackResourceHandler then some {} else none
    tools := if tools.tools.isEmpty then none else some {}
    tasks := if cfg.tasks then some {
        list := some .emptyObject
        cancel := some .emptyObject
        requests := some {
          tools := some (Json.emptyObject.set "call" .emptyObject)
          sampling := none
          elicitation := none } }
      else none }
  return .of {
    protocolVersion := kLatestProtocolVersion
    capabilities
    serverInfo := cfg.serverInfo
    instructions := cfg.instructions
    «meta» := none : InitializeResult }

/-- What `run` registers besides handle_initialize. -/
def serviceHandlers : List (String × (Json → Handler Json)) :=
  [("tools/list", handleListTools cfg),
    ("tools/call", handleCallTool jsonWhat cfg),
    ("resources/list", handleListResources cfg),
    ("resources/templates/list", handleListResourceTemplates cfg),
    ("resources/read", handleReadResource jsonWhat),
    ("prompts/list", handleListPrompts cfg),
    ("prompts/get", handleGetPrompt jsonWhat),
    ("ping", handlePing),
    ("logging/setLevel", handleSetLevel jsonWhat),
    ("completion/complete", handleComplete jsonWhat)] ++
  if cfg.tasks then
    [("tasks/get", handleGetTask jsonWhat cfg),
      ("tasks/result", handleGetTaskResult jsonWhat cfg),
      ("tasks/list", handleListTasks jsonWhat cfg),
      ("tasks/cancel", handleCancelTask jsonWhat cfg)]
  else []

def methodInitialize : String := "initialize"

/-- The handler table of the Session that `run` starts. -/
def requestHandler (method : String) : Option (Json → ServerHandler Json) :=
  if method = methodInitialize then some (handleInitialize jsonWhat cfg)
  else ((serviceHandlers jsonWhat cfg).find? fun entry => entry.1 == method).map
    fun entry params => ExceptT.mk (entry.2 params).run.embed

/-- The worker of a request, from the lookup of its handler to its response. -/
def serveRequest (req : JsonRpcRequest) : Program ServerOp ServerOp.Ans Unit :=
  let respond (run : Option (Except Exception Json)) : Program ServerOp ServerOp.Ans Unit :=
    performServer (.inl (.respond (respondTo jsonWhat req run)))
  match requestHandler jsonWhat cfg req.method with
  | none => respond none
  | some handler => do
    let r ← (handler (req.params.getD .null)).run
    respond (some r)

end Handlers

end Mcp.Server
