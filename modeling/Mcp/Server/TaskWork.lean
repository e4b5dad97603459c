import Mcp.Server.Initialization

/-! What the workers of calls, tasks and tasks/result requests make of the answers they wait for,
and what the store keeps of a task. -/
namespace Mcp.Server

open Tasks Threads Transition

variable {jsonWhat : JsonException → String} {cfg : Settings} {req : JsonRpcRequest}
  {w : TaskWork}

/-- What a tools/call or a tasks/result handler makes of the answers it was waiting for. -/
def Hands : (o : Op) → (o.Ans → Program Op Op.Ans (Except Exception Json)) → Prop
  | .callTool _ _, next => ∀ x : Except Exception CallToolResult, next x = .done (x.map Json.of)
  | .waitResult id, next =>
    (∀ v, next (.ok (some v)) = .done (.ok (tagResult v id))) ∧
      ∀ e, next (.error e) = .done (.error e)
  | _, _ => True

/-- The operations whose answers are no result of a tool. -/
def Aside : Op → Prop
  | .callTool _ _ | .waitResult _ => False
  | _ => True

theorem hands_of_aside (o : Op) (next) (h : Aside o) : Hands o next := by
  cases o <;> first | exact h.elim | trivial

theorem aside_call {o : Op} (h : Aside o) : (call o).run.Only Aside := ⟨h, fun _ => trivial⟩

theorem aside_requireInitialized : requireInitialized.run.Only Aside := by
  refine ⟨trivial, ?_⟩
  intro x
  cases x <;> trivial

theorem aside_requireTasks : (requireTasks cfg).run.Only Aside := by
  unfold requireTasks
  split <;> trivial

/-- What comes before the start of a task worker. -/
def Prepares : Op → Prop
  | .workersInflight | .createTask _ | .workerStarted => True
  | _ => False

/-- A call that is left to a worker prepares for it, starts it, and returns the task. -/
theorem always_callToolAsTask
    {P : (o : Op) → (o.Ans → Program Op Op.Ans (Except Exception Json)) → Prop}
    (h : ∀ o next, Prepares o → P o next)
    (hspawn : ∀ (w : TaskWork) (r : CreateTaskResult), P (.spawn w)
      fun x : Except Exception Unit => (do ofExcept x; return Json.of r : Handler Json).run)
    (name : String) (arguments : Json) (task : TaskAugmentation) :
    (callToolAsTask cfg name arguments task).run.Always P := by
  unfold callToolAsTask
  cases cfg.tasks with
  | false => trivial
  | true =>
    have hstart : (do
        let created : Task ← call (.createTask (task.ttl.or cfg.tasksDefaultTtlMs))
        let _ ← call .workerStarted
        let spawned : Except Exception Unit ←
          call (.spawn { tool := name, arguments, id := created.taskId })
        ofExcept spawned
        return Json.of { task := created : CreateTaskResult } : Handler Json).run.Always P := by
      refine Program.always_bindExcept h ⟨trivial, fun _ => trivial⟩ fun created => ?_
      refine Program.always_bindExcept h ⟨trivial, fun _ => trivial⟩ fun _ => ?_
      refine ⟨hspawn _ _, ?_⟩
      intro spawned
      cases spawned <;> trivial
    by_cases hcap : 0 < cfg.tasksMaxConcurrent
    · simp only [hcap]
      refine Program.always_bindExcept h ⟨trivial, fun _ => trivial⟩ fun inflight => ?_
      split
      · trivial
      · exact hstart
    · simp only [hcap]
      exact hstart

theorem hands_of_prepares (o : Op) (next) (h : Prepares o) : Hands o next := by
  cases o <;> first | exact h.elim | trivial

theorem hands_handleCallTool (params : Json) :
    (handleCallTool jsonWhat cfg params).run.Always Hands := by
  unfold handleCallTool
  refine Program.always_bindExcept hands_of_aside aside_requireInitialized fun _ => ?_
  refine Program.always_bindExcept hands_of_aside trivial fun parsed => ?_
  refine Program.always_bindExcept hands_of_aside (aside_call trivial) fun registry => ?_
  split
  · trivial
  · refine Program.always_bindExcept hands_of_aside trivial fun _ => ?_
    split
    · exact always_callToolAsTask hands_of_prepares (fun _ _ => trivial) _ _ _
    · refine ⟨?_, ?_⟩
      · intro x
        cases x <;> rfl
      · intro x
        cases x <;> trivial

theorem hands_handleGetTaskResult (params : Json) :
    (handleGetTaskResult jsonWhat cfg params).run.Always Hands := by
  unfold handleGetTaskResult
  refine Program.always_bindExcept hands_of_aside aside_requireInitialized fun _ => ?_
  refine Program.always_bindExcept hands_of_aside aside_requireTasks fun _ => ?_
  refine Program.always_bindExcept hands_of_aside trivial fun parsed => ?_
  refine ⟨⟨fun v => rfl, fun e => rfl⟩, ?_⟩
  intro x
  match x with
  | .ok none => exact ⟨trivial, fun _ => trivial⟩
  | .ok (some v) => trivial
  | .error e => trivial

def methodCallTool : String := "tools/call"
def methodTaskResult : String := "tasks/result"

/-- The last thing a request's worker does. -/
def replying (jsonWhat : JsonException → String) (req : JsonRpcRequest)
    (r : Except Exception Json) : Program ServerOp ServerOp.Ans Unit :=
  performServer (.inl (.respond (respondTo jsonWhat req (some r))))

/-- What the worker of such a request makes of the answers it was waiting for. -/
def Replies (jsonWhat : JsonException → String) (req : JsonRpcRequest) :
    (o : ServerOp) → (ServerOp.Ans o → Program ServerOp ServerOp.Ans Unit) → Prop
  | .inl (.callTool _ _), next => ∀ x : Except Exception CallToolResult,
      next x = replying jsonWhat req (x.map Json.of)
  | .inl (.waitResult id), next =>
    (∀ v, next (.ok (some v)) = replying jsonWhat req (.ok (tagResult v id))) ∧
      ∀ e, next (.error e) = replying jsonWhat req (.error e)
  | _, _ => True

/-- The message a failed task is filed with. -/
def failMessage (jsonWhat : JsonException → String) : Exception → String
  | .error e => e.message
  | e => (e.what jsonWhat).getD "unknown exception"

/-- How a task worker reports what the tool gave it. -/
def report (jsonWhat : JsonException → String) (w : TaskWork) :
    Except Exception CallToolResult → Op
  | .ok result => .completeTask w.id (.of result)
  | .error e => .failTask w.id (failMessage jsonWhat e)

/-- A task worker that has called its tool reports next. -/
def Reports (jsonWhat : JsonException → String) (w : TaskWork) :
    (o : ServerOp) → (ServerOp.Ans o → Program ServerOp ServerOp.Ans Unit) → Prop
  | .inl (.callTool _ _), next => ∀ x : Except Exception CallToolResult,
      ∃ rest, next x = .perform (.inl (report jsonWhat w x)) rest
  | _, _ => True

theorem replies_of_hands {o : Op} {next : o.Ans → Program Op Op.Ans (Except Exception Json)}
    (h : Hands o next) :
    Replies jsonWhat req (.inl o) fun x => (next x).embed.bind (replying jsonWhat req) := by
  cases o with
  | callTool name arguments =>
    intro x
    exact congrArg (fun p => p.embed.bind (replying jsonWhat req)) (h x)
  | waitResult id =>
    refine ⟨fun v => ?_, fun e => ?_⟩
    · exact congrArg (fun p => p.embed.bind (replying jsonWhat req)) (h.1 v)
    · exact congrArg (fun p => p.embed.bind (replying jsonWhat req)) (h.2 e)
  | _ => trivial

theorem replies_serveRequest (hm : req.method = methodCallTool ∨ req.method = methodTaskResult) :
    (serveRequest jsonWhat cfg req).Always (Replies jsonWhat req) := by
  have hreply : ∀ r, (replying jsonWhat req r).Always (Replies jsonWhat req) :=
    fun r => ⟨trivial, fun _ => trivial⟩
  have hhands : ∀ handler : Json → Handler Json, (∀ params, (handler params).run.Always Hands) →
      ((handler (req.params.getD .null)).run.embed.bind (replying jsonWhat req)).Always
        (Replies jsonWhat req) :=
    fun handler h => Program.always_embed (fun _ _ => replies_of_hands) hreply (h _)
  unfold serveRequest
  rcases hm with hm | hm
  · have hh : requestHandler jsonWhat cfg req.method = some fun params =>
        ExceptT.mk (handleCallTool jsonWhat cfg params).run.embed := by
      rw [hm]
      rfl
    rw [hh]
    exact hhands _ hands_handleCallTool
  · cases ht : cfg.tasks with
    | true =>
      have hh : requestHandler jsonWhat cfg req.method = some fun params =>
          ExceptT.mk (handleGetTaskResult jsonWhat cfg params).run.embed := by
        simp [hm, requestHandler, serviceHandlers, ht, methodTaskResult, methodInitialize]
      rw [hh]
      exact hhands _ hands_handleGetTaskResult
    | false =>
      have hh : requestHandler jsonWhat cfg req.method = none := by
        simp [hm, requestHandler, serviceHandlers, ht, methodTaskResult, methodInitialize]
      rw [hh]
      exact ⟨trivial, fun _ => trivial⟩

/-- A task worker calls its tool, reports, and is done. -/
theorem taskWorker_eq : taskWorker jsonWhat w = .perform (.callTool w.tool w.arguments) fun x =>
    .perform (report jsonWhat w x) fun _ => .perform .workerFinished fun _ => .done () := by
  refine congrArg (Program.perform _) (funext fun x => ?_)
  match x with
  | .ok result => rfl
  | .error (.error e) => rfl
  | .error (.json e) => rfl
  | .error (.std what) => rfl
  | .error .other => rfl

theorem reports_taskWorker :
    (taskWorker jsonWhat w).embed.Always (Reports jsonWhat w) := by
  rw [taskWorker_eq]
  refine ⟨fun x => ⟨_, rfl⟩, ?_⟩
  intro x
  cases x <;> exact ⟨trivial, fun _ => ⟨trivial, fun _ => trivial⟩⟩

/-- The jobs that are looked at here. -/
def Watched : Job → Prop
  | .request req => req.method = methodCallTool ∨ req.method = methodTaskResult
  | .task _ => True

/-- What the worker of such a job makes of the answers it was waiting for. -/
def Residual (jsonWhat : JsonException → String) :
    Job → (o : ServerOp) → (ServerOp.Ans o → Program ServerOp ServerOp.Ans Unit) → Prop
  | .request req => Replies jsonWhat req
  | .task w => Reports jsonWhat w

theorem inductive_residual : Inductive (rules jsonWhat cfg) AtStart (fun _ => True)
    fun s t p => ∀ job, s.jobs t = some job → Watched job → p.Always (Residual jsonWhat job) :=
  inductive_always (fun _ hm => replies_serveRequest hm) fun _ _ => reports_taskWorker

section Answers

variable {s s' s'' : Pool State ServerOp ServerOp.Ans Unit} {t : ℕ} {id : String}

/-- Thread `t` performs `o`, and goes on with the answer `x`. -/
def Answers (s s' : Pool State ServerOp ServerOp.Ans Unit) (t : ℕ) (o : ServerOp)
    (x : ServerOp.Ans o) : Prop :=
  ∃ next u, s.thread t = some (.perform o next) ∧ performs s.shared t o x u ∧
    s' = ⟨u, Function.update s.thread t (some (next x))⟩

/-- The next thing thread `t` does is to send `r`. -/
def Responds (s : Pool State ServerOp ServerOp.Ans Unit) (t : ℕ) (r : JsonRpcResponse) : Prop :=
  ∃ rest, s.thread t = some (.perform (.inl (.respond r)) rest)

theorem Answers.step {o : ServerOp} {x : ServerOp.Ans o} (h : Answers s s' t o x) :
    (server jsonWhat cfg).Step s (.perform t) s' := by
  obtain ⟨next, u, ht, hp, rfl⟩ := h
  exact .perform ht hp

theorem responds_replying {r : Except Exception Json} {res : JsonRpcResponse}
    (hs : s.thread t = some (replying jsonWhat req r)) (h : Responds s t res) :
    res = respondTo jsonWhat req (some r) := by
  obtain ⟨rest, ht⟩ := h
  cases hs.symm.trans ht
  rfl

/-- A plain call responds with what its tool gives it. -/
theorem plain_step (hs : (server jsonWhat cfg).Reachable Free s)
    (hjob : s.shared.jobs t = some (.request req)) (hm : req.method = methodCallTool)
    {name : String} {arguments : Json} {x : Except Exception CallToolResult}
    (h : Answers s s' t (.inl (.callTool name arguments)) x) :
    s'.thread t = some (replying jsonWhat req (x.map Json.of)) := by
  obtain ⟨next, u, ht, -, rfl⟩ := h
  have hres := (inductive_residual.reachable hs).2 t _ ht
  have hnext : next x = replying jsonWhat req (x.map Json.of) := (hres _ hjob (.inl hm)).1 x
  simp [hnext]

/-- A task worker reports what its tool gives it. -/
theorem worker_step (hs : (server jsonWhat cfg).Reachable Free s)
    (hjob : s.shared.jobs t = some (.task w))
    {name : String} {arguments : Json} {x : Except Exception CallToolResult}
    (h : Answers s s' t (.inl (.callTool name arguments)) x) :
    ∃ rest, s'.thread t = some (.perform (.inl (report jsonWhat w x)) rest) := by
  obtain ⟨next, u, ht, -, rfl⟩ := h
  have hres := (inductive_residual.reachable hs).2 t _ ht
  obtain ⟨rest, hnext⟩ := (hres _ hjob trivial).1 x
  exact ⟨rest, by simp [hnext]⟩

/-- A tasks/result request responds with what the store gives it. -/
theorem result_step (hs : (server jsonWhat cfg).Reachable Free s)
    (hjob : s.shared.jobs t = some (.request req)) (hm : req.method = methodTaskResult)
    {x : Except Exception (Option Json)} (h : Answers s s' t (.inl (.waitResult id)) x) :
    (∀ v, x = .ok (some v) → s'.thread t = some (replying jsonWhat req (.ok (tagResult v id)))) ∧
      ∀ e, x = .error e → s'.thread t = some (replying jsonWhat req (.error e)) := by
  obtain ⟨next, u, ht, -, rfl⟩ := h
  have hres := (inductive_residual.reachable hs).2 t _ ht
  obtain ⟨hok, herror⟩ := (hres _ hjob (.inr hm)).1
  constructor
  · rintro v rfl
    simp [hok v]
  · rintro e rfl
    simp [herror e]

end Answers

section Stored

variable {s s' : Pool State ServerOp ServerOp.Ans Unit} {a : Action} {t : ℕ} {id : String}
  {e : Entry} {x : Except Exception CallToolResult}

/-- No operation of a handler or a worker touches a task that has ended. -/
theorem serve_ended {initialized : Bool} {services services' : Services} {o : Op} {y : o.Ans}
    (h : serve initialized services o y services')
    (he : services.store.entries.lookup id = some e) (ht : e.task.status.isTerminal = true) :
    services'.store.entries.lookup id = some e := by
  have hsettle : ∀ id' f, (services.store.settle id' f).1.entries.lookup id = some e := by
    intro id' f
    by_cases hid : id' = id
    · subst id'
      rw [settle_terminal he ht]
      exact he
    · rw [settle_lookup_ne (Ne.symm hid)]
      exact he
  cases o with
  | createTask ttl =>
    obtain ⟨id', now, steady, -, -, rfl⟩ := h
    exact Dict.lookup_tryEmplace_of_lookup he
  | cancelTask id' =>
    obtain ⟨now, -, rfl⟩ := h
    exact hsettle id' _
  | completeTask id' result | failTask id' message =>
    obtain ⟨now, rfl⟩ := h
    exact hsettle id' _
  | spawn w =>
    rcases h with ⟨-, rfl⟩ | ⟨what, -, rfl⟩ <;> exact he
  | storeLogLevel level =>
    obtain rfl := h
    exact he
  | callTool _ _ | readResource _ | getPrompt _ _ | complete _ | workerStarted | workerFinished
  | respond _ =>
    obtain rfl := h
    exact he
  | loadInitialized | read | workersInflight | getTask _ | waitResult _ | listTasks _ _ =>
    obtain ⟨-, rfl⟩ := h
    exact he

theorem ended_step (hs : (server jsonWhat cfg).Step s a s')
    (he : s.shared.services.store.entries.lookup id = some e)
    (ht : e.task.status.isTerminal = true) :
    s'.shared.services.store.entries.lookup id = some e := by
  cases hs with
  | start _ hr => cases hr <;> exact he
  | @perform t o next y u _ hr =>
    rcases o with o | o
    · obtain ⟨services, hserve, rfl⟩ := hr
      exact serve_ended hserve he ht
    · cases o with
      | claimInitialized =>
        obtain ⟨-, rfl⟩ := hr
        split <;> exact he
      | storeCapabilities c =>
        obtain rfl := hr
        exact he
  | finish _ hr =>
    obtain rfl := hr
    exact he
  | other hr =>
    obtain ⟨registry, rfl⟩ := hr
    exact he

/-- What the store holds of a task that has ended stays as it is. -/
theorem ended_run (hrun : (server jsonWhat cfg).Run Free s s')
    (he : s.shared.services.store.entries.lookup id = some e)
    (ht : e.task.status.isTerminal = true) :
    s'.shared.services.store.entries.lookup id = some e :=
  hrun.invariant (P := fun s => s.shared.services.store.entries.lookup id = some e)
    (fun _ _ _ he _ hs => ended_step hs he ht) he

/-- The task has been filed, and has neither ended nor been cancelled. -/
def OpenTask (store : TaskStore) (id : String) : Prop :=
  ∃ e, store.entries.lookup id = some e ∧ e.task.status.isTerminal = false ∧ e.cancelled = false

/-- The store has what the tool gave. -/
def Files (jsonWhat : JsonException → String) (e : Entry) : Except Exception CallToolResult → Prop
  | .ok result => e.task.status = .completed ∧ e.result = some (.of result)
  | .error ex => e.task.status = .failed ∧ e.error = some (failMessage jsonWhat ex)

theorem ended_of_files (h : Files jsonWhat e x) : e.task.status.isTerminal = true := by
  cases x <;> simp [h.1, TaskStatus.isTerminal]

/-- What tasks/result makes of it. -/
def taken (jsonWhat : JsonException → String) (id : String) :
    Except Exception CallToolResult → Except Exception Json
  | .ok result => .ok (tagResult (.of result) id)
  | .error ex => raise ErrorCode.internalError ("task failed: " ++ failMessage jsonWhat ex)

/-- The report of a worker finds its task open. -/
theorem files_report {initialized : Bool} {services services' : Services}
    {y : (report jsonWhat w x).Ans} (hopen : OpenTask services.store w.id)
    (h : serve initialized services (report jsonWhat w x) y services') :
    ∃ e, services'.store.entries.lookup w.id = some e ∧ Files jsonWhat e x := by
  obtain ⟨e, he, ht, hc⟩ := hopen
  cases x with
  | ok result =>
    obtain ⟨now, rfl⟩ := h
    refine ⟨Entry.complete (.of result) now e, ?_, ?_⟩
    · simp [TaskStore.complete, settle_open he ht]
    · simp [Files, Entry.complete, hc, Entry.touch]
  | error ex =>
    obtain ⟨now, rfl⟩ := h
    refine ⟨Entry.fail (failMessage jsonWhat ex) now e, ?_, ?_⟩
    · simp [TaskStore.fail, settle_open he ht]
    · simp [Files, Entry.fail, Entry.touch]

theorem serve_report (jsonWhat : JsonException → String) (w : TaskWork)
    (x : Except Exception CallToolResult) (initialized : Bool) (services : Services) :
    ∃ y services', serve initialized services (report jsonWhat w x) y services' := by
  cases x with
  | ok result => exact ⟨(), _, "", rfl⟩
  | error ex => exact ⟨(), _, "", rfl⟩

theorem waitResult_of_files {store : TaskStore} {shuttingDown : Bool}
    (he : store.entries.lookup id = some e) (hf : Files jsonWhat e x) :
    store.waitResult id shuttingDown = match x with
      | .ok result => .ok (some (.of result))
      | .error ex =>
        raise ErrorCode.internalError ("task failed: " ++ failMessage jsonWhat ex) := by
  cases x with
  | ok result => simp [TaskStore.waitResult, he, hf.1, hf.2]
  | error ex => simp [TaskStore.waitResult, he, hf.1, hf.2]

end Stored

end Mcp.Server
