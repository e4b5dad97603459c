import Mcp.Client.Calls
import Mcp.Server.Initialization
import Mcp.Server.Listing

/-! A call of Client is carried out by the Server at the other end as if it were made there: the
requests, the handlers and the results in between leave no trace. A frame stands here for the JSON
value it denotes. -/
namespace Mcp.Server

open Client Tasks Threads

section Direct

variable {α β : Type} (cfg : Settings)

/-- What a list call comes to, without the request. -/
def listDirectly (collect : Registry → StdVector β) (result : List β → Option String → α)
    (cursor : Option String) : Handler α := do
  requireInitialized
  let registry : Registry ← call .read
  let (page, next) ← listPage (collect registry) cfg.pageSize cursor
  return result page next

/-- The tool is there, and lets itself be called in this way. -/
def lookUpTool (parsed : CallToolRequestParams) : Handler Unit := do
  requireInitialized
  let registry : Registry ← call .read
  match registry.tools.entries.lookup parsed.name with
  | none => raise ErrorCode.methodNotFound ("tool not found: " ++ parsed.name)
  | some entry => checkTaskSupport entry.descriptor parsed

/-- A call that is left to a worker of its own, within the limit on these. -/
def startTask (name : String) (arguments : Json) (ttlMs : Option Int64) :
    Handler CreateTaskResult := do
  if !cfg.tasks then
    raise ErrorCode.invalidRequest
      "tasks/tools/call: server has not enabled the tasks capability"
  if 0 < cfg.tasksMaxConcurrent then
    let inflight : ℕ ← call .workersInflight
    if cfg.tasksMaxConcurrent.toNat ≤ inflight then
      raise ErrorCode.invalidRequest
        ("task concurrency limit reached (" ++ toString cfg.tasksMaxConcurrent.toNat ++ ")")
  let task : Task ← call (.createTask (ttlMs.or cfg.tasksDefaultTtlMs))
  let _ ← call .workerStarted
  let spawned : Except Exception Unit ← call (.spawn { tool := name, arguments, id := task.taskId })
  Server.ofExcept spawned
  return { task }

/-- The task that a lookup found. -/
def knownTask (taskId : String) (t : Option Task) : Handler Task :=
  match t with
  | none => raise ErrorCode.invalidRequest ("task not found: " ++ taskId)
  | some t => return t

/-- The result of a task that has one, with its id. -/
def resultOfTask (taskId : String) (value : Option Json) : Handler Json :=
  match value with
  | none => do
    let cur : Option Task ← call (.getTask taskId)
    let data := match cur with
      | some t => Json.emptyObject.set "task" (.of t)
      | none => Json.emptyObject
    throw (.error {
      code := ErrorCode.invalidRequest
      message := "task " ++ taskId ++ " not yet terminal; re-call tasks/result or poll tasks/get"
      data })
  | some value => return tagResult value taskId

/-- Arguments that are left out are an empty object to the tool. -/
def argumentsOf (arguments : Json) : Json :=
  (Request.engagedArguments arguments).getD .emptyObject

/-- The requests about tasks have handlers only if tasks are enabled. -/
def ifTasks (h : Handler α) : Option (Handler α) := if cfg.tasks then some h else none

/-- The call made on the server itself; none where the server offers nothing of the kind. -/
def direct : Request α → Option (Handler α)
  | .ping => some (return ())
  | .listTools cursor =>
    some (listDirectly cfg (fun registry => registry.tools.collect (·.descriptor))
      (fun page next => ⟨page, next, none⟩) cursor)
  | .callTool name arguments => some do
    lookUpTool { name, arguments := Request.engagedArguments arguments, task := none }
    let result : Except Exception CallToolResult ← call (.callTool name (argumentsOf arguments))
    Server.ofExcept result
  | .callToolAsTask name arguments ttlMs => some do
    lookUpTool { name, arguments := Request.engagedArguments arguments, task := some ⟨ttlMs⟩ }
    startTask cfg name (argumentsOf arguments) ttlMs
  | .taskGet taskId => ifTasks cfg do
    requireInitialized
    let t : Option Task ← call (.getTask taskId)
    knownTask taskId t
  | .taskResult taskId => ifTasks cfg do
    requireInitialized
    let value : Except Exception (Option Json) ← call (.waitResult taskId)
    resultOfTask taskId (← Server.ofExcept value)
  | .taskList cursor => ifTasks cfg do
    requireInitialized
    let result : Except Exception TaskStore.ListTasksResult ←
      call (.listTasks cursor cfg.pageSize)
    Server.ofExcept result
  | .taskCancel taskId => ifTasks cfg do
    requireInitialized
    let t : Option Task ← call (.cancelTask taskId)
    knownTask taskId t
  | .listResources cursor =>
    some (listDirectly cfg (fun registry => registry.resources.collect (·.descriptor))
      (fun page next => ⟨page, next, none⟩) cursor)
  | .listResourceTemplates cursor =>
    some (listDirectly cfg (fun registry => registry.resourceTemplates)
      (fun page next => ⟨page, next, none⟩) cursor)
  | .readResource uri => some do
    requireInitialized
    let registry : Registry ← call .read
    let handler := match registry.resources.entries.lookup uri with
      | some entry => entry.handler
      | none => registry.fallbackResourceHandler
    if !handler then raise ErrorCode.methodNotFound ("resource not found: " ++ uri)
    let result : Except Exception ReadResourceResult ← call (.readResource uri)
    Server.ofExcept result
  | .subscribe _ | .unsubscribe _ => none
  | .listPrompts cursor =>
    some (listDirectly cfg (fun registry => registry.prompts.collect (·.descriptor))
      (fun page next => ⟨page, next, none⟩) cursor)
  | .getPrompt name arguments => some do
    requireInitialized
    let registry : Registry ← call .read
    let handler := match registry.prompts.entries.lookup name with
      | some entry => entry.handler
      | none => false
    if !handler then raise ErrorCode.methodNotFound ("prompt not found: " ++ name)
    let result : Except Exception GetPromptResult ← call (.getPrompt name (arguments.getD []))
    Server.ofExcept result
  | .setLogLevel level => some do
    let registry : Registry ← call .read
    if !registry.loggingEnabled then
      raise ErrorCode.methodNotFound "logging capability is not enabled"
    call (.storeLogLevel level)
  | .complete reference argument contextArguments => some do
    requireInitialized
    let registry : Registry ← call .read
    if !registry.completionHandler then
      raise ErrorCode.methodNotFound "completion is not enabled on this server"
    let result : Except Exception CompletionValues ←
      call (.complete { reference, argument, contextArguments })
    return { completion := ← Server.ofExcept result }

/-- The JSON that a handler's return becomes; nothing is an empty object. -/
def encode : Request α → α → Json
  | .ping, _ | .subscribe _, _ | .unsubscribe _, _ | .setLogLevel _, _ => .emptyObject
  | .listTools _, r => .of r
  | .callTool _ _, r => .of r
  | .callToolAsTask _ _ _, r => .of r
  | .taskGet _, r | .taskCancel _, r => .of r
  | .taskResult _, r => r
  | .taskList _, r => .of r
  | .listResources _, r => .of r
  | .listResourceTemplates _, r => .of r
  | .readResource _, r => .of r
  | .listPrompts _, r => .of r
  | .getPrompt _ _, r => .of r
  | .complete _ _ _, r => .of r

end Direct

section Handlers

variable {α β : Type} {jsonWhat : JsonException → String} {cfg : Settings}

theorem decodeParams_of [FromJson β] {params : Json} {text : String} {parsed : β}
    (h : params.get β = .ok parsed) : decodeParams jsonWhat β text params = .ok parsed := by
  simp [decodeParams, h]

/-- Two programs that begin alike, and of which one goes on to write what the other has. -/
theorem bind_map_congr {γ : Type} {x : Handler γ} {f : γ → Handler Json} {g : γ → Handler α}
    {toJson : α → Json} (h : ∀ c, f c = toJson <$> g c) :
    x >>= f = toJson <$> (x >>= g) := by
  rw [map_bind]
  exact bind_congr h

/-- The same after a check that may throw. -/
theorem ite_map_congr {c : Prop} [Decidable c] {f f' : Handler Json} {g g' : Handler α}
    {toJson : α → Json} (h : f = toJson <$> g) (h' : f' = toJson <$> g') :
    (if c then f else f') = toJson <$> if c then g else g' := by
  split <;> assumption

theorem handleList_eq (collect : Registry → StdVector β) (result : List β → Option String → α)
    (toJson : α → Json) (cursor : Option String) :
    handleList cfg collect (fun page next => toJson (result page next))
        (.of { cursor : ListRequestParams }) =
      toJson <$> listDirectly cfg collect result cursor := by
  have hparams : Json.of { cursor : ListRequestParams } = listParams false cursor := by
    cases cursor <;> rfl
  rw [hparams, handleList_listParams]
  refine bind_map_congr fun _ => ?_
  refine bind_map_congr fun registry => ?_
  exact bind_map_congr fun page => rfl

theorem ok_bind {γ : Type} (c : γ) (f : γ → Handler β) :
    (liftM (Except.ok c : Except Exception γ) >>= f) = f c := rfl

theorem nullFree_callTool (name : String) (arguments : Json) (task : Option TaskAugmentation) :
    CallToolRequestParams.NullFree
      { name, arguments := Request.engagedArguments arguments, task } := by
  cases arguments <;> simp [CallToolRequestParams.NullFree, Request.engagedArguments, Json.isNull]

/-- A call of a tool, once its params have been read. -/
theorem handleCallTool_of_decode {params : Json} {parsed : CallToolRequestParams}
    (h : decodeParams jsonWhat CallToolRequestParams "invalid tools/call params: " params =
      .ok parsed) :
    handleCallTool jsonWhat cfg params = (do
      lookUpTool parsed
      let arguments := parsed.arguments.getD .emptyObject
      match parsed.task with
      | some task => callToolAsTask cfg parsed.name arguments task
      | none =>
        let result : Except Exception CallToolResult ← call (.callTool parsed.name arguments)
        return .of (← Server.ofExcept result)) := by
  unfold handleCallTool lookUpTool
  rw [h]
  refine (bind_congr fun _ => ?_).trans (bind_assoc _ _ _).symm
  rw [ok_bind]
  refine (bind_congr fun registry : Registry => ?_).trans (bind_assoc _ _ _).symm
  cases registry.tools.entries.lookup parsed.name <;> rfl

theorem handleCallTool_eq (name : String) (arguments : Json) :
    some (handleCallTool jsonWhat cfg (Request.callTool name arguments).params) =
      (direct cfg (.callTool name arguments)).map (Json.of <$> ·) := by
  have hdecode := get_of_callToolRequestParams (nullFree_callTool name arguments none)
  refine congrArg some ((handleCallTool_of_decode (decodeParams_of hdecode)).trans ?_)
  refine bind_map_congr fun _ => ?_
  refine bind_map_congr fun r => ?_
  exact (map_eq_pure_bind _ _).symm

theorem callToolAsTask_eq (name : String) (arguments : Json) (ttlMs : Option Int64) :
    callToolAsTask cfg name arguments ⟨ttlMs⟩ = Json.of <$> startTask cfg name arguments ttlMs := by
  refine ite_map_congr rfl (ite_map_congr (bind_map_congr fun inflight => ite_map_congr rfl ?_) ?_)
  all_goals
    refine bind_map_congr fun created => ?_
    refine bind_map_congr fun _ => ?_
    refine bind_map_congr fun spawned => ?_
    exact bind_map_congr fun _ => rfl

theorem handleCallTool_task_eq (name : String) (arguments : Json) (ttlMs : Option Int64) :
    some (handleCallTool jsonWhat cfg (Request.callToolAsTask name arguments ttlMs).params) =
      (direct cfg (.callToolAsTask name arguments ttlMs)).map (Json.of <$> ·) := by
  have hdecode := get_of_callToolRequestParams (nullFree_callTool name arguments (some ⟨ttlMs⟩))
  refine congrArg some ((handleCallTool_of_decode (decodeParams_of hdecode)).trans ?_)
  refine bind_map_congr fun _ => ?_
  exact callToolAsTask_eq name _ ttlMs

theorem handleReadResource_eq (uri : String) :
    some (handleReadResource jsonWhat (Request.readResource uri).params) =
      (direct cfg (.readResource uri)).map (Json.of <$> ·) := by
  unfold handleReadResource
  rw [Request.params, decodeParams_of (get_of _)]
  refine congrArg some (bind_map_congr fun _ => ?_)
  rw [ok_bind]
  refine bind_map_congr fun registry => ite_map_congr rfl (bind_map_congr fun r => ?_)
  exact (map_eq_pure_bind _ _).symm

theorem handleGetPrompt_eq (jsonWhat : JsonException → String) (cfg : Settings) {name : String}
    {arguments : Option (List (String × String))}
    (h : (Request.getPrompt name arguments).KeysNodup) :
    ∃ arguments', Option.Rel List.Perm arguments arguments' ∧
      some (handleGetPrompt jsonWhat (Request.getPrompt name arguments).params) =
        (direct cfg (.getPrompt name arguments')).map (Json.of <$> ·) := by
  obtain ⟨arguments', hget, hperm⟩ := get_of_getPromptRequestParams h
  refine ⟨arguments', hperm, ?_⟩
  unfold handleGetPrompt
  rw [Request.params, decodeParams_of hget]
  refine congrArg some (bind_map_congr fun _ => ?_)
  rw [ok_bind]
  refine bind_map_congr fun registry => ite_map_congr rfl (bind_map_congr fun r => ?_)
  exact (map_eq_pure_bind _ _).symm

theorem handleComplete_eq (jsonWhat : JsonException → String) (cfg : Settings)
    {reference : CompletionReference} {argument : CompleteArgument}
    {contextArguments : Option (List (String × String))}
    (h : (Request.complete reference argument contextArguments).KeysNodup) :
    ∃ contextArguments', Option.Rel List.Perm contextArguments contextArguments' ∧
      some (handleComplete jsonWhat
          (Request.complete reference argument contextArguments).params) =
        (direct cfg (.complete reference argument contextArguments')).map (Json.of <$> ·) := by
  obtain ⟨⟨reference', argument', contextArguments'⟩, hget, hsame⟩ :=
    get_of_completeRequestParams h
  obtain ⟨rfl, rfl, hperm⟩ := hsame
  refine ⟨contextArguments', hperm, ?_⟩
  unfold handleComplete
  rw [Request.params, decodeParams_of hget]
  refine congrArg some (bind_map_congr fun _ => ?_)
  refine bind_map_congr fun registry => ite_map_congr rfl ?_
  rw [ok_bind]
  refine bind_map_congr fun r => ?_
  exact bind_map_congr fun _ => rfl

theorem handleSetLevel_eq (level : LoggingLevel) :
    some (handleSetLevel jsonWhat (Request.setLogLevel level).params) =
      (direct cfg (.setLogLevel level)).map (encode (.setLogLevel level) <$> ·) := by
  unfold handleSetLevel
  rw [Request.params, decodeParams_of (get_of _)]
  refine congrArg some (bind_map_congr fun registry => ite_map_congr rfl ?_)
  rw [ok_bind]
  exact bind_map_congr fun _ => rfl

section TaskRequests

variable (ht : cfg.tasks = true)
include ht

theorem some_eq_ifTasks {h : Handler α} {h' : Handler Json} {toJson : α → Json}
    (he : h' = toJson <$> h) : some h' = (ifTasks cfg h).map (toJson <$> ·) := by
  simp [ifTasks, ht, he]

theorem requireTasks_bind (f : Unit → Handler β) : (requireTasks cfg >>= f) = f () := by
  simp [requireTasks, ht]

theorem handleGetTask_eq (taskId : String) :
    some (handleGetTask jsonWhat cfg (Request.taskGet taskId).params) =
      (direct cfg (.taskGet taskId)).map (Json.of <$> ·) := by
  refine some_eq_ifTasks ht (bind_map_congr fun _ => ?_)
  rw [requireTasks_bind ht, Request.params, decodeParams_of (get_of _), ok_bind]
  refine bind_map_congr fun t => ?_
  cases t <;> rfl

theorem handleCancelTask_eq (taskId : String) :
    some (handleCancelTask jsonWhat cfg (Request.taskCancel taskId).params) =
      (direct cfg (.taskCancel taskId)).map (Json.of <$> ·) := by
  refine some_eq_ifTasks ht (bind_map_congr fun _ => ?_)
  rw [requireTasks_bind ht, Request.params, decodeParams_of (get_of _), ok_bind]
  refine bind_map_congr fun t => ?_
  cases t <;> rfl

theorem handleListTasks_eq (cursor : Option String) :
    some (handleListTasks jsonWhat cfg (Request.taskList cursor).params) =
      (direct cfg (.taskList cursor)).map (Json.of <$> ·) := by
  have hnull : (Request.taskList cursor).params.isNull = false := by
    cases cursor <;> rfl
  have hdecode : (Request.taskList cursor).params.get ListTasksRequestParams = .ok { cursor } := by
    cases cursor <;> rfl
  refine some_eq_ifTasks ht (bind_map_congr fun _ => ?_)
  rw [requireTasks_bind ht, hnull, decodeParams_of hdecode]
  change (call (.listTasks cursor cfg.pageSize) >>= fun r => Server.ofExcept r >>= fun result =>
    pure (Json.of result) : Handler Json) = _
  refine bind_map_congr fun r => ?_
  exact (map_eq_pure_bind _ _).symm

theorem handleGetTaskResult_eq (taskId : String) :
    some (handleGetTaskResult jsonWhat cfg (Request.taskResult taskId).params) =
      (direct cfg (.taskResult taskId)).map (id <$> ·) := by
  refine some_eq_ifTasks ht (bind_map_congr fun _ => ?_)
  rw [requireTasks_bind ht, Request.params, decodeParams_of (get_of _), ok_bind]
  refine bind_map_congr fun value => bind_map_congr fun value => ?_
  cases value <;> rfl

end TaskRequests

/-- The handler that a call's method finds, on the call's params. -/
def served (jsonWhat : JsonException → String) (cfg : Settings) (c : Request α) :
    Option (Handler Json) :=
  ((serviceHandlers jsonWhat cfg).find? fun entry => entry.1 == c.method).map fun entry =>
    entry.2 c.params

/-- The requests about tasks, with and without handlers for them. -/
theorem served_task_eq {c : Request α} (handler : Json → Handler Json)
    (hfind : cfg.tasks = true → (serviceHandlers jsonWhat cfg).find?
      (fun entry => entry.1 == c.method) = some (c.method, handler))
    (hnone : cfg.tasks = false → (serviceHandlers jsonWhat cfg).find?
      (fun entry => entry.1 == c.method) = none)
    (hdirect : cfg.tasks = false → direct cfg c = none)
    (heq : cfg.tasks = true → some (handler c.params) = (direct cfg c).map (encode c <$> ·)) :
    served jsonWhat cfg c = (direct cfg c).map (encode c <$> ·) := by
  cases ht : cfg.tasks with
  | true =>
    rw [← heq ht, served, hfind ht]
    rfl
  | false =>
    rw [hdirect ht, served, hnone ht]
    rfl

/-- What answers a call is the call itself, up to the order in which its maps are read. -/
theorem served_eq (jsonWhat : JsonException → String) (cfg : Settings) (c : Request α)
    (hc : c.KeysNodup) :
    ∃ c' : Request α, c.Same c' ∧ served jsonWhat cfg c = (direct cfg c').map (encode c <$> ·) := by
  cases c with
  | ping =>
    have hserved : served jsonWhat cfg .ping = some (handlePing .null) := by
      simp [served, serviceHandlers, Request.method, Request.params]
    exact ⟨_, .refl _, hserved⟩
  | listTools cursor =>
    have hserved : served jsonWhat cfg (.listTools cursor) =
        some (handleListTools cfg (.of { cursor : ListRequestParams })) := by
      simp [served, serviceHandlers, Request.method, Request.params]
    exact ⟨_, .refl _, hserved.trans (congrArg some (handleList_eq _ _ _ cursor))⟩
  | callTool name arguments =>
    have hserved : served jsonWhat cfg (.callTool name arguments) =
        some (handleCallTool jsonWhat cfg (Request.callTool name arguments).params) := by
      simp [served, serviceHandlers, Request.method]
    exact ⟨_, .refl _, hserved.trans (handleCallTool_eq name arguments)⟩
  | callToolAsTask name arguments ttlMs =>
    have hserved : served jsonWhat cfg (.callToolAsTask name arguments ttlMs) =
        some (handleCallTool jsonWhat cfg
          (Request.callToolAsTask name arguments ttlMs).params) := by
      simp [served, serviceHandlers, Request.method]
    exact ⟨_, .refl _, hserved.trans (handleCallTool_task_eq name arguments ttlMs)⟩
  | taskGet taskId =>
    refine ⟨_, .refl _, served_task_eq (handleGetTask jsonWhat cfg) ?_ ?_ ?_
      fun ht => handleGetTask_eq ht taskId⟩
    all_goals
      intro ht
      simp [serviceHandlers, Request.method, direct, ifTasks, ht]
  | taskResult taskId =>
    refine ⟨_, .refl _, served_task_eq (handleGetTaskResult jsonWhat cfg) ?_ ?_ ?_
      fun ht => handleGetTaskResult_eq ht taskId⟩
    all_goals
      intro ht
      simp [serviceHandlers, Request.method, direct, ifTasks, ht]
  | taskList cursor =>
    refine ⟨_, .refl _, served_task_eq (handleListTasks jsonWhat cfg) ?_ ?_ ?_
      fun ht => handleListTasks_eq ht cursor⟩
    all_goals
      intro ht
      simp [serviceHandlers, Request.method, direct, ifTasks, ht]
  | taskCancel taskId =>
    refine ⟨_, .refl _, served_task_eq (handleCancelTask jsonWhat cfg) ?_ ?_ ?_
      fun ht => handleCancelTask_eq ht taskId⟩
    all_goals
      intro ht
      simp [serviceHandlers, Request.method, direct, ifTasks, ht]
  | listResources cursor =>
    have hserved : served jsonWhat cfg (.listResources cursor) =
        some (handleListResources cfg (.of { cursor : ListRequestParams })) := by
      simp [served, serviceHandlers, Request.method, Request.params]
    exact ⟨_, .refl _, hserved.trans (congrArg some (handleList_eq _ _ _ cursor))⟩
  | listResourceTemplates cursor =>
    have hserved : served jsonWhat cfg (.listResourceTemplates cursor) =
        some (handleListResourceTemplates cfg (.of { cursor : ListRequestParams })) := by
      simp [served, serviceHandlers, Request.method, Request.params]
    exact ⟨_, .refl _, hserved.trans (congrArg some (handleList_eq _ _ _ cursor))⟩
  | listPrompts cursor =>
    have hserved : served jsonWhat cfg (.listPrompts cursor) =
        some (handleListPrompts cfg (.of { cursor : ListRequestParams })) := by
      simp [served, serviceHandlers, Request.method, Request.params]
    exact ⟨_, .refl _, hserved.trans (congrArg some (handleList_eq _ _ _ cursor))⟩
  | readResource uri =>
    have hserved : served jsonWhat cfg (.readResource uri) =
        some (handleReadResource jsonWhat (Request.readResource uri).params) := by
      simp [served, serviceHandlers, Request.method]
    exact ⟨_, .refl _, hserved.trans (handleReadResource_eq uri)⟩
  | subscribe uri | unsubscribe uri =>
    refine ⟨_, .refl _, ?_⟩
    cases ht : cfg.tasks <;> simp [served, serviceHandlers, Request.method, direct, ht]
  | getPrompt name arguments =>
    have hserved : served jsonWhat cfg (.getPrompt name arguments) =
        some (handleGetPrompt jsonWhat (Request.getPrompt name arguments).params) := by
      simp [served, serviceHandlers, Request.method]
    obtain ⟨arguments', hperm, heq⟩ := handleGetPrompt_eq jsonWhat cfg hc
    exact ⟨_, .getPrompt hperm, hserved.trans heq⟩
  | setLogLevel level =>
    have hserved : served jsonWhat cfg (.setLogLevel level) =
        some (handleSetLevel jsonWhat (Request.setLogLevel level).params) := by
      simp [served, serviceHandlers, Request.method]
    exact ⟨_, .refl _, hserved.trans (handleSetLevel_eq level)⟩
  | complete reference argument contextArguments =>
    have hserved : served jsonWhat cfg (.complete reference argument contextArguments) =
        some (handleComplete jsonWhat
          (Request.complete reference argument contextArguments).params) := by
      simp [served, serviceHandlers, Request.method]
    obtain ⟨contextArguments', hperm, heq⟩ := handleComplete_eq jsonWhat cfg hc
    exact ⟨_, .complete hperm, hserved.trans heq⟩

end Handlers

section Exchange

variable {α : Type} (jsonWhat : JsonException → String) (cfg : Settings) (c : Request α)
  (id : RequestId)

/-- The response to a call that came to `run`; none if there is no handler for it. -/
def answer (run : Option (Except Exception α)) : JsonRpcResponse :=
  respondTo jsonWhat (c.sent.envelope id) (run.map (Except.map (encode c)))

/-- The worker of a call that is made on the server itself. -/
def serveDirectly (c' : Request α) : Program ServerOp ServerOp.Ans Unit :=
  let respond (run : Option (Except Exception α)) : Program ServerOp ServerOp.Ans Unit :=
    performServer (.inl (.respond (answer jsonWhat c id run)))
  match direct cfg c' with
  | none => respond none
  | some h => do
    let r ← h.run.embed
    respond (some r)

variable {jsonWhat cfg c id}

theorem requestHandler_method :
    requestHandler jsonWhat cfg c.method =
      ((serviceHandlers jsonWhat cfg).find? fun entry => entry.1 == c.method).map
        fun entry params => ExceptT.mk (entry.2 params).run.embed := by
  have hne : c.method ≠ methodInitialize := by
    cases c <;> simp [Request.method, methodInitialize]
  simp [requestHandler, hne]

theorem run_map {β γ : Type} (f : β → γ) (h : Handler β) :
    (f <$> h).run = h.run.bind fun r => .done (r.map f) := by
  rw [ExceptT.run_map]
  rfl

theorem serveRequest_of_none {req : JsonRpcRequest}
    (h : requestHandler jsonWhat cfg req.method = none) : serveRequest jsonWhat cfg req =
      performServer (.inl (.respond (respondTo jsonWhat req none))) := by
  unfold serveRequest
  rw [h]

theorem serveRequest_of_some {req : JsonRpcRequest} {handler : Json → ServerHandler Json}
    (h : requestHandler jsonWhat cfg req.method = some handler) : serveRequest jsonWhat cfg req =
      (handler (req.params.getD .null)).run.bind fun r =>
        performServer (.inl (.respond (respondTo jsonWhat req (some r)))) := by
  unfold serveRequest
  rw [h]
  rfl

theorem serveRequest_envelope {c' : Request α}
    (h : served jsonWhat cfg c = (direct cfg c').map (encode c <$> ·)) :
    serveRequest jsonWhat cfg (c.sent.envelope id) = serveDirectly jsonWhat cfg c id c' := by
  have hparams : (c.sent.envelope id).params.getD .null = c.params := SentRequest.params_envelope
  have hhandler : requestHandler jsonWhat cfg (c.sent.envelope id).method = _ :=
    requestHandler_method
  unfold served at h
  unfold serveDirectly
  cases hfind : (serviceHandlers jsonWhat cfg).find? fun entry => entry.1 == c.method with
  | none =>
    rw [hfind] at h hhandler
    rw [serveRequest_of_none hhandler, Option.map_eq_none_iff.mp h.symm]
    rfl
  | some entry =>
    rw [hfind] at h hhandler
    obtain ⟨h', hdirect, heq⟩ := Option.map_eq_some_iff.mp h.symm
    rw [serveRequest_of_some hhandler, hdirect]
    simp only [hparams, ← heq, run_map, Program.embed_bind]
    exact Program.bind_bind _ _ _

theorem convert_encode {a : α} (ha : c.NullFree a) : c.convert (encode c a) = .ok a := by
  cases c with
  | listTools _ => exact get_of_listToolsResult ha
  | callTool _ _ => exact (restores_callToolResult ha).get_of
  | listResources _ => exact get_of_listResourcesResult ha
  | listResourceTemplates _ => exact get_of_listResourceTemplatesResult ha
  | readResource _ => exact (restores_readResourceResult ha).get_of
  | listPrompts _ => exact get_of_listPromptsResult ha
  | getPrompt _ _ => exact (restores_getPromptResult ha).get_of
  | taskList _ => exact get_of_listTasksResult a
  | callToolAsTask _ _ _ => exact get_of a
  | taskGet _ | taskCancel _ => exact get_of a
  | complete _ _ _ => exact get_of a
  | taskResult _ => rfl
  | ping | subscribe _ | unsubscribe _ | setLogLevel _ => rfl

/-- A prompt with two arguments, which its handler is given as a map. -/
def greet : Request GetPromptResult :=
  .getPrompt "greet" (some [("to", "Ada"), ("from", "Bo")])

end Exchange

end Mcp.Server
