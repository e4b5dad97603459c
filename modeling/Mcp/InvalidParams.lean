import Mcp.Client.Requests
import Mcp.Protocol.Decoders
import Mcp.Server.Listing
import Mcp.Server.TaskResults

/-! The error code of a request whose params its handler cannot decode. -/
namespace Mcp

open Client Server Threads

/-- The requests whose built-in handlers decode their params into a struct. -/
inductive TypedRequest where
  | initializeRequest
  | listTools
  | callTool
  | listResources
  | listResourceTemplates
  | readResource
  | listPrompts
  | getPrompt
  | setLevel
  | complete
  | getTask
  | getTaskResult
  | listTasks
  | cancelTask
  -- the client's
  | createMessage
  | elicit

/-- A server that has been initialized, and a client, with everything that they can be asked for
enabled. -/
structure Parties where
  cfg : Settings
  registry : Registry
  samplingHandler : CreateMessageRequestParams → Except Exception CreateMessageResult
  elicitationHandler : ElicitRequestParams → Except Exception Json
  tasks : cfg.tasks = true
  logging : registry.loggingEnabled = true
  completion : registry.completionHandler = true

/-- What the handlers are answered until they come to do what they are asked for. -/
def Parties.answers (P : Parties) : (o : ServerOp) → Option (ServerOp.Ans o)
  | .inl o => frozen P.registry o
  | .inr _ => none

namespace TypedRequest

def method : TypedRequest → String
  | initializeRequest => methodInitialize
  | listTools => "tools/list"
  | callTool => "tools/call"
  | listResources => "resources/list"
  | listResourceTemplates => "resources/templates/list"
  | readResource => "resources/read"
  | listPrompts => "prompts/list"
  | getPrompt => "prompts/get"
  | setLevel => "logging/setLevel"
  | complete => "completion/complete"
  | getTask => "tasks/get"
  | getTaskResult => "tasks/result"
  | listTasks => "tasks/list"
  | cancelTask => "tasks/cancel"
  | createMessage => "sampling/createMessage"
  | elicit => "elicitation/create"

/-- Decoding the params throws `e`. -/
def Fails (m : TypedRequest) (params : Json) (e : Exception) : Prop :=
  match m with
  | initializeRequest => params.get InitializeRequestParams = .error e
  | listTools => params.get ListToolsRequestParams = .error e
  | callTool => params.get CallToolRequestParams = .error e
  | listResources => params.get ListResourcesRequestParams = .error e
  | listResourceTemplates => params.get ListResourceTemplatesRequestParams = .error e
  | readResource => params.get ReadResourceRequestParams = .error e
  | listPrompts => params.get ListPromptsRequestParams = .error e
  | getPrompt => params.get GetPromptRequestParams = .error e
  | setLevel => params.get SetLevelRequestParams = .error e
  | complete => params.get CompleteRequestParams = .error e
  | getTask => params.get GetTaskRequestParams = .error e
  | getTaskResult => params.get GetTaskResultRequestParams = .error e
  | listTasks => params.get ListTasksRequestParams = .error e
  | cancelTask => params.get CancelTaskRequestParams = .error e
  | createMessage => params.get CreateMessageRequestParams = .error e
  | elicit => params.get ElicitRequestParams = .error e

section Run

variable (jsonWhat : JsonException → String) (P : Parties)

/-- What the registered handler makes of the params; none where there is no handler, or where it
comes to do what it is asked for. -/
def run (m : TypedRequest) (params : Json) : Option (Except Exception Json) :=
  match m with
  | createMessage => some (samplingRequestHandler jsonWhat P.samplingHandler params)
  | elicit => some (elicitationRequestHandler jsonWhat P.elicitationHandler params)
  | m => (requestHandler jsonWhat P.cfg m.method).bind fun handler =>
      (handler params).run.eval P.answers

/-- What the Session answers with. -/
def response (m : TypedRequest) (id : RequestId) (params : Option Json) : JsonRpcResponse :=
  respondTo jsonWhat { id, method := m.method, params } (m.run jsonWhat P (params.getD .null))

end Run

end TypedRequest

/-- The response says that the params are invalid. -/
def JsonRpcResponse.IsInvalidParams (r : JsonRpcResponse) : Prop :=
  ∃ e, r.outcome = .error e ∧ e.code = ErrorCode.invalidParams

section Refusals

variable (jsonWhat : JsonException → String) {P : Parties} {params : Json} {e : Exception}

/-- What the Session makes of an exception says that the params are invalid. -/
def Exception.IsInvalidParams (e : Exception) : Prop :=
  match e with
  | .error o => o.code = ErrorCode.invalidParams
  | .json _ => True
  | .std _ | .other => False

theorem isInvalidParams_iff (req : JsonRpcRequest) (e : Exception) :
    (respondTo jsonWhat req (some (.error e))).IsInvalidParams ↔ e.IsInvalidParams := by
  have hne : ErrorCode.internalError ≠ ErrorCode.invalidParams := by decide
  cases e <;> simp [JsonRpcResponse.IsInvalidParams, Exception.IsInvalidParams, respondTo,
    outcomeOf, hne]

/-- What a decoder throws has a text. -/
theorem what_of_error {α : Type} [FromJson α] [StandardDecoder α]
    (h : params.get α = .error e) : ∃ what, e.what jsonWhat = some what := by
  cases e with
  | other => exact absurd h (StandardDecoder.standard params)
  | _ => exact ⟨_, rfl⟩

/-- The handlers that decode inside a `try` throw invalid params. -/
theorem decodeParams_of_error {α : Type} [FromJson α] [StandardDecoder α]
    (h : params.get α = .error e) : ∃ invalid : String → Exception,
      (∀ text, decodeParams jsonWhat α text params = .error (invalid text)) ∧
      ∀ text, (invalid text).IsInvalidParams := by
  obtain ⟨what, hwhat⟩ := what_of_error jsonWhat h
  refine ⟨fun text => .error { code := ErrorCode.invalidParams, message := text ++ what }, ?_,
    fun _ => rfl⟩
  intro text
  simp only [decodeParams, h, hwhat]
  rfl

/-- The service handler of a request to the server. -/
def TypedRequest.service (cfg : Settings) :
    TypedRequest → Option (Json → Server.Handler Json)
  | initializeRequest => none
  | listTools => some (handleListTools cfg)
  | callTool => some (handleCallTool jsonWhat cfg)
  | listResources => some (handleListResources cfg)
  | listResourceTemplates => some (handleListResourceTemplates cfg)
  | readResource => some (handleReadResource jsonWhat)
  | listPrompts => some (handleListPrompts cfg)
  | getPrompt => some (handleGetPrompt jsonWhat)
  | setLevel => some (handleSetLevel jsonWhat)
  | complete => some (handleComplete jsonWhat)
  | getTask => some (handleGetTask jsonWhat cfg)
  | getTaskResult => some (handleGetTaskResult jsonWhat cfg)
  | listTasks => some (handleListTasks jsonWhat cfg)
  | cancelTask => some (handleCancelTask jsonWhat cfg)
  | createMessage => none
  | elicit => none

/-- The table of `run` has it. -/
theorem run_of_service {m : TypedRequest} {handler : Json → Server.Handler Json}
    (h : m.service jsonWhat P.cfg = some handler) :
    m.run jsonWhat P params = (handler params).run.eval (frozen P.registry) := by
  have htable : requestHandler jsonWhat P.cfg m.method =
      some fun params => ExceptT.mk (handler params).run.embed := by
    cases m <;> cases h <;>
      simp [requestHandler, serviceHandlers, TypedRequest.method, methodInitialize, P.tasks]
  have hrun : m.run jsonWhat P params = (requestHandler jsonWhat P.cfg m.method).bind
      fun handler => (handler params).run.eval P.answers := by
    cases m <;> cases h <;> rfl
  rw [hrun, htable]
  exact Program.eval_embed P.answers _

variable {cfg : Settings} {registry : Registry}

/-- The params of a list request may be left out. -/
theorem not_null_of_list (h : params.get ListRequestParams = .error e) :
    params.isNull = false := by
  cases params with
  | null => cases h
  | _ => rfl

theorem eval_handleList_of_error {α : Type} {collect : Registry → StdVector α}
    {result : List α → Option String → Json}
    (h : params.get ListRequestParams = .error e) :
    (handleList cfg collect result params).run.eval (frozen registry) = some (.error e) := by
  simp only [handleList, not_null_of_list h, h]
  rfl

theorem list_error (h : params.get ListRequestParams = .error e) : e.IsInvalidParams := by
  change (takeOptional String params "cursor" >>= fun cursor => pure _) = .error e at h
  unfold takeOptional engaged at h
  split at h
  · cases h
  · cases h
  · next v _ _ =>
    cases v <;> cases h
    all_goals trivial

theorem service_refuses {m : TypedRequest} {handler : Json → Server.Handler Json}
    (h : m.service jsonWhat P.cfg = some handler) (hfails : m.Fails params e) :
    ∃ e', (handler params).run.eval (frozen P.registry) = some (.error e') ∧
      e'.IsInvalidParams := by
  cases m with
  | initializeRequest | createMessage | elicit => cases h
  | listTools | listResources | listResourceTemplates | listPrompts =>
    cases h
    exact ⟨e, eval_handleList_of_error hfails, list_error hfails⟩
  | listTasks =>
    cases h
    have hnull : params.isNull = false := not_null_of_list hfails
    obtain ⟨invalid, hd, hinvalid⟩ := decodeParams_of_error jsonWhat hfails
    simp only [handleListTasks, requireTasks, P.tasks, hnull, hd]
    exact ⟨_, rfl, hinvalid _⟩
  | callTool | readResource | getPrompt =>
    cases h
    obtain ⟨invalid, hd, hinvalid⟩ := decodeParams_of_error jsonWhat hfails
    simp only [handleCallTool, handleReadResource, handleGetPrompt, hd]
    exact ⟨_, rfl, hinvalid _⟩
  | getTask | getTaskResult | cancelTask =>
    cases h
    obtain ⟨invalid, hd, hinvalid⟩ := decodeParams_of_error jsonWhat hfails
    simp only [handleGetTask, handleGetTaskResult, handleCancelTask, requireTasks, P.tasks, hd]
    exact ⟨_, rfl, hinvalid _⟩
  | setLevel | complete =>
    obtain ⟨cfg, ⟨_, _, _, _, _, logging, completion⟩, _, _, _, hlogging, hcompletion⟩ := P
    obtain rfl : logging = true := hlogging
    obtain rfl : completion = true := hcompletion
    cases h
    obtain ⟨invalid, hd, hinvalid⟩ := decodeParams_of_error jsonWhat hfails
    simp only [handleSetLevel, handleComplete, hd]
    exact ⟨_, rfl, hinvalid _⟩

theorem run_invalid {m : TypedRequest} (hfails : m.Fails params e) (hm : m ≠ .elicit) :
    ∃ e', m.run jsonWhat P params = some (.error e') ∧ e'.IsInvalidParams := by
  cases hservice : m.service jsonWhat P.cfg with
  | some handler =>
    rw [run_of_service jsonWhat hservice]
    exact service_refuses jsonWhat hservice hfails
  | none =>
    cases m with
    | initializeRequest =>
      obtain ⟨invalid, hd, hinvalid⟩ := decodeParams_of_error jsonWhat hfails
      have htable : requestHandler jsonWhat P.cfg TypedRequest.initializeRequest.method =
          some (handleInitialize jsonWhat P.cfg) := by
        simp [requestHandler, TypedRequest.method]
      simp only [TypedRequest.run, htable, Option.bind_some, handleInitialize_of_error (hd _)]
      exact ⟨_, rfl, hinvalid _⟩
    | createMessage =>
      obtain ⟨what, hwhat⟩ := what_of_error jsonWhat hfails
      simp only [TypedRequest.run, samplingRequestHandler]
      split
      · exact ⟨_, rfl, rfl⟩
      · change params.get CreateMessageRequestParams = .error e at hfails
        simp only [hfails, hwhat]
        exact ⟨_, rfl, rfl⟩
    | elicit => exact absurd rfl hm
    | _ => cases hservice

/-- elicitation/create passes an `Error` of its decoder on. -/
theorem run_elicit (hfails : TypedRequest.elicit.Fails params e) :
    ∃ e', TypedRequest.elicit.run jsonWhat P params = some (.error e') ∧
      (e'.IsInvalidParams ↔
        params.isNull = true ∨ firstMissing params (elicitMembers params) = false) := by
  change params.get ElicitRequestParams = .error e at hfails
  simp only [TypedRequest.run, elicitationRequestHandler]
  split
  · next hnull => exact ⟨_, rfl, by simp [Exception.IsInvalidParams, hnull]⟩
  · next hnull =>
    have herror := elicit_error hfails
    generalize firstMissing params (elicitMembers params) = missing at herror ⊢
    simp only [hfails]
    cases herror with
    | missing message =>
      have hne : ErrorCode.parseError ≠ ErrorCode.invalidParams := by decide
      exact ⟨_, rfl, by simp [Exception.IsInvalidParams, hnull, hne]⟩
    | invalid message => exact ⟨_, rfl, by simp [Exception.IsInvalidParams]⟩
    | mistyped => exact ⟨_, rfl, by simp [Exception.IsInvalidParams]⟩

end Refusals

/-- Params that cannot be decoded are answered with invalid_params, except those of
elicitation/create that lack a member: these are so only if they are null. -/
theorem malformed_params_invalid_iff (jsonWhat : JsonException → String) (P : Parties)
    (m : TypedRequest) (id : RequestId) (params : Option Json) (e : Exception)
    (hfails : m.Fails (params.getD .null) e) :
    (m.response jsonWhat P id params).IsInvalidParams ↔
      (m = .elicit → (params.getD .null).isNull = true ∨
        firstMissing (params.getD .null) (elicitMembers (params.getD .null)) = false) := by
  unfold TypedRequest.response
  by_cases hm : m = .elicit
  · subst m
    obtain ⟨e', hrun, hiff⟩ := run_elicit jsonWhat (P := P) hfails
    rw [hrun, isInvalidParams_iff, hiff]
    simp
  · obtain ⟨e', hrun, hinvalid⟩ := run_invalid jsonWhat (P := P) hfails hm
    rw [hrun, isInvalidParams_iff]
    simp [hm, hinvalid]

/-- The parties with one tool, and no use for what they are asked. -/
def willing : Parties where
  cfg := taskServer
  registry := {
    __ := withEcho.services.registry
    loggingEnabled := true
    completionHandler := true }
  samplingHandler _ := .error .other
  elicitationHandler _ := .error .other
  tasks := rfl
  logging := rfl
  completion := rfl

/-- A url that is a number. -/
def mistypedUrl : Json := .object [("message", .string "m"), ("mode", .string "url"),
  ("url", .unsigned 1)]

theorem mistyped_url_invalid :
    (TypedRequest.elicit.response (fun _ => "") willing (.integer 1)
      (some mistypedUrl)).IsInvalidParams :=
  (malformed_params_invalid_iff _ willing .elicit (.integer 1) (some mistypedUrl)
    (.json .typeError) rfl).mpr fun _ => .inr rfl

/-- An elicitation/create without its message is answered with a parse error. -/
theorem missing_message_parse_error :
    TypedRequest.elicit.Fails .emptyObject (.error {
      code := ErrorCode.parseError
      message := "missing required field: message" }) ∧
    (TypedRequest.elicit.response (fun _ => "") willing (.integer 1) (some .emptyObject)).outcome =
      .error {
        code := ErrorCode.parseError
        message := "missing required field: message" } ∧
    ¬ (TypedRequest.elicit.response (fun _ => "") willing (.integer 1)
      (some .emptyObject)).IsInvalidParams := by
  refine ⟨rfl, rfl, ?_⟩
  rintro ⟨e, he, hcode⟩
  cases he
  exact absurd hcode (by decide)

end Mcp
