import Mcp.Server.TaskWork

/-! What tasks/result gives for a task, against what the plain call gives. -/
namespace Mcp.Server

open Tasks Threads Transition

variable {jsonWhat : JsonException → String} {cfg : Settings} {req : JsonRpcRequest}

section Runs

variable (jsonWhat : JsonException → String) (cfg : Settings)

/-- A plain tools/call whose tool gives `x` is about to be answered with `r`. -/
def PlainAnswer (x : Except Exception CallToolResult) (r : JsonRpcResponse) : Prop :=
  ∃ s s' t req name arguments, (server jsonWhat cfg).Reachable Free s ∧
    s.shared.jobs t = some (.request req) ∧ req.method = methodCallTool ∧
    Answers s s' t (.inl (.callTool name arguments)) x ∧ Responds s' t r

/-- The worker of the task `id` has been given `x` by its tool, and its next step, which found the
task open, led to `s`. -/
def Ran (x : Except Exception CallToolResult) (id : String)
    (s : Pool State ServerOp ServerOp.Ans Unit) : Prop :=
  ∃ s₀ s₁ s₂ t w o y, (server jsonWhat cfg).Reachable Free s₀ ∧
    s₀.shared.jobs t = some (.task w) ∧ w.id = id ∧
    Answers s₀ s₁ t (.inl (.callTool w.tool w.arguments)) x ∧
    (server jsonWhat cfg).Run Free s₁ s₂ ∧ s₂.thread t = s₁.thread t ∧
    OpenTask s₂.shared.services.store id ∧ Answers s₂ s t o y

/-- After `s`, some tasks/result request for the task `id` is about to be answered with `r`. -/
def ResultAnswer (s : Pool State ServerOp ServerOp.Ans Unit) (id : String) (r : JsonRpcResponse) :
    Prop :=
  ∃ s₁ s₂ u req x, (server jsonWhat cfg).Run Free s s₁ ∧
    s₁.shared.jobs u = some (.request req) ∧ req.method = methodTaskResult ∧
    Answers s₁ s₂ u (.inl (.waitResult id)) x ∧ Responds s₂ u r

end Runs

section Results

variable {s : Pool State ServerOp ServerOp.Ans Unit} {id : String} {r : JsonRpcResponse}
  {x : Except Exception CallToolResult}

theorem outcome_of_plainAnswer (h : PlainAnswer jsonWhat cfg x r) :
    r.outcome = outcomeOf jsonWhat (x.map Json.of) := by
  obtain ⟨s, s', t, req, name, arguments, hs, hjob, hm, hstep, hr⟩ := h
  rw [responds_replying (plain_step hs hjob hm hstep) hr]
  rfl

theorem reachable_of_ran (h : Ran jsonWhat cfg x id s) :
    (server jsonWhat cfg).Reachable Free s := by
  obtain ⟨s₀, s₁, s₂, t, w, o, y, hs, -, -, hcall, hrun, -, -, hreport⟩ := h
  exact ((hs.step trivial hcall.step).run hrun).step trivial hreport.step

theorem files_of_ran (h : Ran jsonWhat cfg x id s) :
    ∃ e, s.shared.services.store.entries.lookup id = some e ∧ Files jsonWhat e x := by
  obtain ⟨s₀, s₁, s₂, t, w, o, y, hs, hjob, rfl, hcall, -, hsame, hopen, hreport⟩ := h
  obtain ⟨rest, hrest⟩ := worker_step hs hjob hcall
  obtain ⟨next, u, ht, hp, rfl⟩ := hreport
  cases (hsame.symm.trans ht).symm.trans hrest
  obtain ⟨services, hserve, rfl⟩ := hp
  exact files_report hopen hserve

/-- What the store has of an ended task is what tasks/result responds with. -/
theorem result_of_files {s' : Pool State ServerOp ServerOp.Ans Unit} {t : ℕ} {e : Entry}
    {y : Except Exception (Option Json)} (hs : (server jsonWhat cfg).Reachable Free s)
    (hjob : s.shared.jobs t = some (.request req)) (hm : req.method = methodTaskResult)
    (h : Answers s s' t (.inl (.waitResult id)) y)
    (he : s.shared.services.store.entries.lookup id = some e) (hf : Files jsonWhat e x) :
    s'.thread t = some (replying jsonWhat req (taken jsonWhat id x)) := by
  obtain ⟨hok, herror⟩ := result_step hs hjob hm h
  obtain ⟨next, v, -, ⟨services, ⟨⟨shuttingDown, hy⟩, -⟩, -⟩, -⟩ := h
  rw [waitResult_of_files he hf] at hy
  cases x with
  | ok result => exact hok _ hy
  | error ex => exact herror _ hy

theorem outcome_of_resultAnswer (hran : Ran jsonWhat cfg x id s)
    (h : ResultAnswer jsonWhat cfg s id r) :
    r.outcome = outcomeOf jsonWhat (taken jsonWhat id x) := by
  obtain ⟨s₁, s₂, u, req, y, hrun, hjob, hm, hstep, hr⟩ := h
  obtain ⟨e, he, hf⟩ := files_of_ran hran
  have he' := ended_run hrun he (ended_of_files hf)
  have hs := (reachable_of_ran hran).run hrun
  rw [responds_replying (result_of_files hs hjob hm hstep he' hf) hr]
  rfl

end Results

section Echo

/-- A tool with no policy of its own. -/
def echo : Tool where
  name := "t"
  title := none
  description := none
  inputSchema := .emptyObject
  outputSchema := none
  annotations := none
  icons := none
  execution := none
  «meta» := none

def taskServer : Settings := { bare with tasks := true }

def withEcho : State where
  __ := atStart
  services := {
    __ := atStart.services
    registry := {
      __ := atStart.services.registry
      tools := ⟨(∅ : Dict String ToolEntry).insert "t" ⟨echo⟩, by decide⟩ } }

def callPlain : JsonRpcRequest where
  id := .integer 2
  method := methodCallTool
  params := some (.object [("name", .string "t")])

def callAsTask : JsonRpcRequest where
  id := .integer 3
  method := methodCallTool
  params := some (.object [("name", .string "t"), ("task", .object [])])

def getResult : JsonRpcRequest where
  id := .integer 4
  method := methodTaskResult
  params := some (.object [("taskId", .string "a")])

def echoWork : TaskWork where
  tool := "t"
  arguments := .emptyObject
  id := "a"

def opened : State where
  __ := withEcho
  initialized := true
  jobs := Function.update (fun _ => none) 0 (some (.request hello))
  history := [.accepted 0]

def tracedResult : CallToolResult where
  content := []
  structuredContent := none
  isError := none
  «meta» := some (.object [("trace", .string "t1")])

variable {s : Pool State ServerOp ServerOp.Ans Unit} {t : ℕ}

theorem request_next (hs : (server (fun _ => "") taskServer).Reachable Free s)
    (req : JsonRpcRequest) (ht : s.thread t = none) (hjob : s.shared.jobs t = none) :
    (server (fun _ => "") taskServer).Step s (.start t)
      ⟨{ s.shared with jobs := Function.update s.shared.jobs t (some (.request req)) },
        Function.update s.thread t (some (serveRequest (fun _ => "") taskServer req))⟩ ∧
    (server (fun _ => "") taskServer).Reachable Free
      ⟨{ s.shared with jobs := Function.update s.shared.jobs t (some (.request req)) },
        Function.update s.thread t (some (serveRequest (fun _ => "") taskServer req))⟩ := by
  have hstep := Step.start (R := rules (fun _ => "") taskServer) ht (.request req hjob)
  exact ⟨hstep, hs.step trivial hstep⟩

theorem op_next (hs : (server (fun _ => "") taskServer).Reachable Free s) (o : ServerOp)
    (x : ServerOp.Ans o) {u : State} {next : ServerOp.Ans o → Program ServerOp ServerOp.Ans Unit}
    (ht : s.thread t = some (.perform o next)) (h : performs s.shared t o x u) :
    Answers s ⟨u, Function.update s.thread t (some (next x))⟩ t o x ∧
      (server (fun _ => "") taskServer).Reachable Free
        ⟨u, Function.update s.thread t (some (next x))⟩ :=
  ⟨⟨_, _, ht, h, rfl⟩, hs.step (a := .perform t) trivial (.perform ht h)⟩

theorem opened_reachable : ∃ p, (server (fun _ => "") taskServer).Reachable Free
    ⟨opened, Function.update (fun _ => none) 0 (some p)⟩ := by
  have h₀ : (server (fun _ => "") taskServer).Reachable Free ⟨withEcho, fun _ => none⟩ :=
    .initial ⟨⟨rfl, rfl, fun _ => rfl, rfl⟩, fun _ => rfl⟩
  have h₁ := (request_next (t := 0) h₀ hello rfl rfl).2
  have h₂ := (op_next (t := 0) h₁ (.inr .claimInitialized) true rfl ⟨rfl, rfl⟩).2
  rw [Function.update_idem] at h₂
  exact ⟨_, h₂⟩

/-- Whatever the tool does, a plain call of it is answered. -/
theorem echo_plain (x : Except Exception CallToolResult) :
    ∃ r, PlainAnswer (fun _ => "") taskServer x r := by
  obtain ⟨p, h₀⟩ := opened_reachable
  have h₁ := (request_next (t := 1) h₀ callPlain rfl rfl).2
  have h₂ := (op_next (t := 1) h₁ (.inl .loadInitialized) true rfl ⟨_, ⟨rfl, rfl⟩, rfl⟩).2
  have h₃ := (op_next (t := 1) h₂ (.inl .read) withEcho.services.registry rfl
    ⟨_, ⟨rfl, rfl⟩, rfl⟩).2
  obtain ⟨hcall, -⟩ := op_next (t := 1) h₃ (.inl (.callTool "t" .emptyObject)) x rfl ⟨_, rfl, rfl⟩
  have hreply := plain_step h₃ rfl rfl hcall
  exact ⟨_, _, _, 1, callPlain, "t", .emptyObject, h₃, rfl, rfl, hcall, _, hreply⟩

/-- Whatever the tool does, a call of it as a task is answered. -/
theorem echo_as_task (x : Except Exception CallToolResult) :
    ∃ s r, Ran (fun _ => "") taskServer x "a" s ∧
      ResultAnswer (fun _ => "") taskServer s "a" r := by
  obtain ⟨p, h₀⟩ := opened_reachable
  have h₁ := (request_next (t := 1) h₀ callAsTask rfl rfl).2
  have h₂ := (op_next (t := 1) h₁ (.inl .loadInitialized) true rfl ⟨_, ⟨rfl, rfl⟩, rfl⟩).2
  have h₃ := (op_next (t := 1) h₂ (.inl .read) withEcho.services.registry rfl
    ⟨_, ⟨rfl, rfl⟩, rfl⟩).2
  have h₄ := (op_next (t := 1) h₃ (.inl (.createTask none)) (Entry.mint "a" "" 0 none).task rfl
    ⟨_, ⟨"a", "", 0, (by decide : "a" ∉ withEcho.services.store.entries), rfl, rfl⟩, rfl⟩).2
  have h₅ := (op_next (t := 1) h₄ (.inl .workerStarted) () rfl ⟨_, rfl, rfl⟩).2
  have h₆ := (op_next (t := 1) h₅ (.inl (.spawn echoWork)) (.ok ()) rfl
    ⟨_, .inl ⟨rfl, rfl⟩, rfl⟩).2
  have h₇ : (server (fun _ => "") taskServer).Reachable Free _ :=
    h₆.step (a := .start 2) trivial (.start rfl (@Starts.task _ _ _ 2 [] echoWork [] rfl rfl))
  obtain ⟨hcall, h₈⟩ := op_next (t := 2) h₇ (.inl (.callTool "t" .emptyObject)) x rfl
    ⟨_, rfl, rfl⟩
  obtain ⟨rest, hrest⟩ := worker_step h₇ rfl hcall
  obtain ⟨y, services, hserve⟩ := serve_report (fun _ => "") echoWork x true _
  obtain ⟨hreport, h₉⟩ := op_next (t := 2) h₈ (.inl (report (fun _ => "") echoWork x)) y hrest
    ⟨_, hserve, rfl⟩
  have hran : Ran (fun _ => "") taskServer x "a" _ :=
    ⟨_, _, _, 2, echoWork, _, _, h₇, rfl, rfl, hcall, .refl, rfl, ⟨_, rfl, rfl, rfl⟩, hreport⟩
  obtain ⟨hask, h₁₀⟩ := request_next (t := 3) h₉ getResult rfl rfl
  obtain ⟨hload, h₁₁⟩ := op_next (t := 3) h₁₀ (.inl .loadInitialized) true rfl
    ⟨_, ⟨rfl, rfl⟩, rfl⟩
  obtain ⟨hget, -⟩ := op_next (t := 3) h₁₁ (.inl (.waitResult "a"))
    (services.store.waitResult "a" false) rfl ⟨_, ⟨⟨false, rfl⟩, rfl⟩, rfl⟩
  have hrun : (server (fun _ => "") taskServer).Run Free _ _ :=
    (System.Run.refl.step trivial hask).step trivial hload.step
  obtain ⟨e, he, hf⟩ := files_of_ran hran
  have hreply := result_of_files (t := 3) h₁₁
    (show _ = some (Job.request getResult) from rfl) rfl hget he hf
  exact ⟨_, _, hran, _, _, 3, getResult, _, hrun, rfl, rfl, hget, _, hreply⟩

end Echo

/-- Both are errors, of one code and with one payload. -/
def SameError (p r : JsonRpcResponse) : Prop :=
  ∃ a b, p.outcome = .error a ∧ r.outcome = .error b ∧ a.code = b.code ∧ a.data = b.data

/-- A plain call reports it as an internal error without data. -/
def Internal : Exception → Prop
  | .error e => e.code = ErrorCode.internalError ∧ e.data = .null
  | .json _ => False
  | .std _ | .other => True

theorem sameError_iff {p r : JsonRpcResponse} {e : Exception} {message : String}
    (hp : p.outcome = outcomeOf jsonWhat (.error e))
    (hr : r.outcome = .error { code := ErrorCode.internalError, message }) :
    SameError p r ↔ Internal e := by
  constructor
  · rintro ⟨a, b, ha, hb, hcode, hdata⟩
    cases hr.symm.trans hb
    cases e with
    | error e =>
      cases hp.symm.trans ha
      exact ⟨hcode, hdata⟩
    | json e =>
      cases hp.symm.trans ha
      have hne : ErrorCode.invalidParams ≠ ErrorCode.internalError := by decide
      exact absurd hcode hne
    | std what | other => trivial
  · intro h
    cases e with
    | error e => exact ⟨_, _, hp, hr, h.1, h.2⟩
    | json e => exact h.elim
    | std what | other => exact ⟨_, _, hp, hr, rfl, rfl⟩

/-- The task of a tool that throws is reported with the code and the data of the plain call if and
only if the plain call reports an internal error without data. -/
theorem task_error_eq_plain_iff (jsonWhat : JsonException → String) (cfg : Settings)
    (e : Exception) (id : String) (s : Pool State ServerOp ServerOp.Ans Unit)
    (p r : JsonRpcResponse) (hplain : PlainAnswer jsonWhat cfg (.error e) p)
    (hran : Ran jsonWhat cfg (.error e) id s) (hresult : ResultAnswer jsonWhat cfg s id r) :
    SameError p r ↔ Internal e :=
  sameError_iff (outcome_of_plainAnswer hplain) (outcome_of_resultAnswer hran hresult)

/-- A tool that throws a string is reported alike both ways. -/
theorem thrown_std_same_error : ∃ s p r,
    PlainAnswer (fun _ => "") taskServer (.error (.std "boom")) p ∧
    Ran (fun _ => "") taskServer (.error (.std "boom")) "a" s ∧
    ResultAnswer (fun _ => "") taskServer s "a" r ∧ SameError p r := by
  obtain ⟨p, hplain⟩ := echo_plain (.error (.std "boom"))
  obtain ⟨s, r, hran, hresult⟩ := echo_as_task (.error (.std "boom"))
  exact ⟨s, p, r, hplain, hran, hresult,
    (task_error_eq_plain_iff _ _ _ _ _ _ _ hplain hran hresult).mpr trivial⟩

/-- A tool that asks for a URL: the plain call says so, and the task reports an internal error. -/
def needsUrl : Exception :=
  .error { code := ErrorCode.urlElicitationRequired, message := "", data := .object [] }

/-- What a client would act on is lost when the call runs as a task. -/
theorem task_loses_error : ∃ s p r, PlainAnswer (fun _ => "") taskServer (.error needsUrl) p ∧
    Ran (fun _ => "") taskServer (.error needsUrl) "a" s ∧
    ResultAnswer (fun _ => "") taskServer s "a" r ∧ ¬SameError p r := by
  obtain ⟨p, hplain⟩ := echo_plain (.error needsUrl)
  obtain ⟨s, r, hran, hresult⟩ := echo_as_task (.error needsUrl)
  refine ⟨s, p, r, hplain, hran, hresult, ?_⟩
  rw [sameError_iff (outcome_of_plainAnswer hplain) (outcome_of_resultAnswer hran hresult)]
  rintro ⟨hcode, -⟩
  have hne : ErrorCode.urlElicitationRequired ≠ ErrorCode.internalError := by decide
  exact hne hcode

/-- The members of `_meta`, when it is an object. -/
def metaMember (result : CallToolResult) (key : String) : Option Json :=
  match result.meta with
  | some (.object kvs) => kvs.lookup key
  | _ => none

theorem find_meta (result : CallToolResult) : (Json.of result).find "_meta" = result.meta := by
  change result.toJson.find "_meta" = _
  cases hm : result.meta <;> simp [CallToolResult.toJson, find_putOptional, Json.find_set, hm]

theorem isObject_of_result (result : CallToolResult) : (Json.of result).isObject = true := by
  change result.toJson.isObject = true
  cases hs : result.structuredContent <;> cases he : result.isError <;>
    cases hm : result.meta <;> simp [CallToolResult.toJson, putOptional, hs, he, hm]

theorem tagResult_eq (result : CallToolResult) (id : String) :
    ∃ kvs, tagResult (.of result) id = (Json.of result).set "_meta"
        ((Json.object kvs).set tasksRelatedTaskMetaKey (.object [("taskId", .string id)])) ∧
      ∀ key, kvs.lookup key = metaMember result key := by
  unfold tagResult metaMember
  rw [if_pos (isObject_of_result result), find_meta]
  cases result.meta with
  | none => exact ⟨[], rfl, fun _ => rfl⟩
  | some j => cases j <;> exact ⟨_, rfl, fun _ => rfl⟩

/-- What tagging changes: one member of `_meta`. -/
theorem find_tagResult (result : CallToolResult) (id : String) :
    (tagResult (.of result) id).isObject = true ∧
    (∀ key ≠ "_meta", (tagResult (.of result) id).find key = (Json.of result).find key) ∧
    ∃ m, (tagResult (.of result) id).find "_meta" = some m ∧ m.isObject = true ∧
      m.find tasksRelatedTaskMetaKey = some (.object [("taskId", .string id)]) ∧
      ∀ key ≠ tasksRelatedTaskMetaKey, m.find key = metaMember result key := by
  obtain ⟨kvs, htag, hmember⟩ := tagResult_eq result id
  have hassign : (Json.of result).isAssignable = true := by
    simp [Json.isAssignable, isObject_of_result]
  have hkvs : (Json.object kvs).isAssignable = true := rfl
  rw [htag]
  refine ⟨by simp [hassign], ?_, _, (Json.find_set hassign _ _ _).trans (if_pos rfl), rfl, ?_, ?_⟩
  · intro key hkey
    rw [Json.find_set hassign, if_neg hkey]
  · rw [Json.find_set hkvs, if_pos rfl]
  · intro key hkey
    rw [Json.find_set hkvs, if_neg hkey]
    exact hmember key

/-- Whatever else goes on, and however often it is asked for, the result of a completed task is
what the plain call gives, with the task's id in `_meta`; and the store keeps it. -/
theorem completed_task_returns_plain_result (jsonWhat : JsonException → String) (cfg : Settings)
    (result : CallToolResult) (id : String) (s : Pool State ServerOp ServerOp.Ans Unit)
    (p : JsonRpcResponse) (hplain : PlainAnswer jsonWhat cfg (.ok result) p)
    (hran : Ran jsonWhat cfg (.ok result) id s) :
    ∃ j tagged, p.outcome = .result j ∧
      (∀ r, ResultAnswer jsonWhat cfg s id r → r.outcome = .result tagged) ∧
      (∃ e, e.result = some j ∧ ∀ s', (server jsonWhat cfg).Run Free s s' →
        s'.shared.services.store.entries.lookup id = some e) ∧
      tagged.isObject = true ∧ (∀ key ≠ "_meta", tagged.find key = j.find key) ∧
      ∃ m, tagged.find "_meta" = some m ∧ m.isObject = true ∧
        m.find tasksRelatedTaskMetaKey = some (.object [("taskId", .string id)]) ∧
        ∀ key ≠ tasksRelatedTaskMetaKey, m.find key = metaMember result key := by
  obtain ⟨e, he, hf⟩ := files_of_ran hran
  refine ⟨.of result, tagResult (.of result) id, outcome_of_plainAnswer hplain,
    fun r hr => outcome_of_resultAnswer hran hr, ⟨e, hf.2, ?_⟩, find_tagResult result id⟩
  intro s' hrun
  exact ended_run hrun he (ended_of_files hf)

/-- A task of a tool whose result has a `_meta` of its own is asked for. -/
theorem traced_result_returned : ∃ s p r j tagged m,
    PlainAnswer (fun _ => "") taskServer (.ok tracedResult) p ∧
    Ran (fun _ => "") taskServer (.ok tracedResult) "a" s ∧
    ResultAnswer (fun _ => "") taskServer s "a" r ∧ p.outcome = .result j ∧
    r.outcome = .result tagged ∧ (∀ key ≠ "_meta", tagged.find key = j.find key) ∧
    tagged.find "_meta" = some m ∧ m.find "trace" = some (.string "t1") ∧
    m.find tasksRelatedTaskMetaKey = some (.object [("taskId", .string "a")]) := by
  obtain ⟨p, hplain⟩ := echo_plain (.ok tracedResult)
  obtain ⟨s, r, hran, hresult⟩ := echo_as_task (.ok tracedResult)
  obtain ⟨j, tagged, hp, hr, -, -, hsame, m, hm, -, htask, hmembers⟩ :=
    completed_task_returns_plain_result _ _ _ _ _ _ hplain hran
  exact ⟨s, p, r, j, tagged, m, hplain, hran, hresult, hp, hr r hresult, hsame, hm,
    hmembers "trace" (by decide), htask⟩

end Mcp.Server
