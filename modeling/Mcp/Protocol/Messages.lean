import Mcp.Protocol.CatalogueRoundTrip
import Mcp.Protocol.Integers

/-! The params of notifications, and the directions of the other codecs that only one of the two
parties uses. Each decodes what it has encoded. -/
namespace Mcp

open Tasks

def ReadResourceRequestParams.toJson (p : ReadResourceRequestParams) : Json :=
  Json.emptyObject.set "uri" (.of p.uri)

instance : ToJson ReadResourceRequestParams := ⟨ReadResourceRequestParams.toJson⟩

def ReadResourceResult.fromJson (j : Json) : Except Exception ReadResourceResult := do
  let contents ← getAt (List ResourceContents) j "contents"
  return { contents, «meta» := takeOptionalJson j "_meta" }

instance : FromJson ReadResourceResult := ⟨ReadResourceResult.fromJson⟩

/-- The params of resources/subscribe and resources/unsubscribe, and of the notification that a
resource has been updated. -/
structure UriParams where
  uri : String

def UriParams.toJson (p : UriParams) : Json := Json.emptyObject.set "uri" (.of p.uri)

instance : ToJson UriParams := ⟨UriParams.toJson⟩

def UriParams.fromJson (j : Json) : Except Exception UriParams := do
  let uri ← require String j "uri"
  return { uri }

instance : FromJson UriParams := ⟨UriParams.fromJson⟩

abbrev SubscribeRequestParams := UriParams
abbrev UnsubscribeRequestParams := UriParams
abbrev ResourceUpdatedNotificationParams := UriParams

def GetPromptRequestParams.toJson (p : GetPromptRequestParams) : Json :=
  let j := Json.emptyObject
  let j := j.set "name" (.of p.name)
  match p.arguments with
  | none => j
  | some args => j.set "arguments" (stringObject args)

instance : ToJson GetPromptRequestParams := ⟨GetPromptRequestParams.toJson⟩

structure CancelledNotificationParams where
  requestId : Option RequestId
  reason : Option String

def CancelledNotificationParams.toJson (p : CancelledNotificationParams) : Json :=
  let j := Json.emptyObject
  let j := putOptional j "requestId" p.requestId
  putOptional j "reason" p.reason

instance : ToJson CancelledNotificationParams := ⟨CancelledNotificationParams.toJson⟩

def CancelledNotificationParams.fromJson (j : Json) :
    Except Exception CancelledNotificationParams := do
  let requestId ← takeOptional RequestId j "requestId"
  let reason ← takeOptional String j "reason"
  return { requestId, reason }

instance : FromJson CancelledNotificationParams := ⟨CancelledNotificationParams.fromJson⟩

def ProgressToken.toJson : ProgressToken → Json
  | .string s => .string s
  | .integer i => .integer i

instance : ToJson ProgressToken := ⟨ProgressToken.toJson⟩

def ProgressNotificationParams.toJson (p : ProgressNotificationParams) : Json :=
  let j := Json.emptyObject
  let j := j.set "progressToken" (.of p.progressToken)
  let j := j.set "progress" (.of p.progress)
  let j := putOptional j "total" p.total
  putOptional j "message" p.message

instance : ToJson ProgressNotificationParams := ⟨ProgressNotificationParams.toJson⟩

def LoggingLevel.toString : LoggingLevel → String
  | .debug => "debug"
  | .info => "info"
  | .notice => "notice"
  | .warning => "warning"
  | .error => "error"
  | .critical => "critical"
  | .alert => "alert"
  | .emergency => "emergency"

instance : ToJson LoggingLevel := ⟨fun l => .of l.toString⟩

def SetLevelRequestParams.toJson (p : SetLevelRequestParams) : Json :=
  Json.emptyObject.set "level" (.of p.level)

instance : ToJson SetLevelRequestParams := ⟨SetLevelRequestParams.toJson⟩

structure LoggingMessageNotificationParams where
  level : LoggingLevel
  logger : Option String
  data : Json

def LoggingMessageNotificationParams.toJson (p : LoggingMessageNotificationParams) : Json :=
  let j := Json.emptyObject
  let j := j.set "level" (.of p.level)
  let j := j.set "data" p.data
  putOptional j "logger" p.logger

instance : ToJson LoggingMessageNotificationParams := ⟨LoggingMessageNotificationParams.toJson⟩

def LoggingMessageNotificationParams.fromJson (j : Json) :
    Except Exception LoggingMessageNotificationParams := do
  let level ← getAt LoggingLevel j "level"
  let data ← getAt Json j "data"
  let logger ← takeOptional String j "logger"
  return { level, logger, data }

instance : FromJson LoggingMessageNotificationParams :=
  ⟨LoggingMessageNotificationParams.fromJson⟩

structure Root where
  uri : String
  name : Option String

def Root.toJson (r : Root) : Json :=
  putOptional (Json.emptyObject.set "uri" (.of r.uri)) "name" r.name

instance : ToJson Root := ⟨Root.toJson⟩

def Root.fromJson (j : Json) : Except Exception Root := do
  let uri ← require String j "uri"
  let name ← takeOptional String j "name"
  return { uri, name }

instance : FromJson Root := ⟨Root.fromJson⟩

structure ListRootsResult where
  roots : List Root

def ListRootsResult.toJson (r : ListRootsResult) : Json :=
  Json.emptyObject.set "roots" (.of r.roots)

instance : ToJson ListRootsResult := ⟨ListRootsResult.toJson⟩

def ListRootsResult.fromJson (j : Json) : Except Exception ListRootsResult := do
  let roots ← getAt (List Root) j "roots"
  return { roots }

instance : FromJson ListRootsResult := ⟨ListRootsResult.fromJson⟩

def CompleteResult.fromJson (j : Json) : Except Exception CompleteResult := do
  let completion ← getAt CompletionValues j "completion"
  return { completion }

instance : FromJson CompleteResult := ⟨CompleteResult.fromJson⟩

inductive ElicitAction where
  | accept
  | decline
  | cancel
  deriving DecidableEq, Repr

def ElicitAction.toJson : ElicitAction → Json
  | .accept => .of "accept"
  | .decline => .of "decline"
  | .cancel => .of "cancel"

instance : ToJson ElicitAction := ⟨ElicitAction.toJson⟩

def elicitActionFromString (s : String) : Except Exception ElicitAction :=
  if s = "accept" then .ok .accept
  else if s = "decline" then .ok .decline
  else if s = "cancel" then .ok .cancel
  else raise ErrorCode.invalidParams ("elicitation result: unknown action \"" ++ s ++ "\"")

instance : FromJson ElicitAction := ⟨fun j => do elicitActionFromString (← j.get String)⟩

structure ElicitResult where
  action : ElicitAction
  content : Option Json

def ElicitResult.toJson (r : ElicitResult) : Json :=
  putOptional (Json.emptyObject.set "action" (.of r.action)) "content" r.content

instance : ToJson ElicitResult := ⟨ElicitResult.toJson⟩

def ElicitResult.fromJson (j : Json) : Except Exception ElicitResult := do
  let action ← getAt ElicitAction j "action"
  return { action, content := takeOptionalJson j "content" }

instance : FromJson ElicitResult := ⟨ElicitResult.fromJson⟩

structure ElicitationCompleteNotificationParams where
  elicitationId : String

def ElicitationCompleteNotificationParams.toJson (p : ElicitationCompleteNotificationParams) :
    Json := Json.emptyObject.set "elicitationId" (.of p.elicitationId)

instance : ToJson ElicitationCompleteNotificationParams :=
  ⟨ElicitationCompleteNotificationParams.toJson⟩

def ElicitationCompleteNotificationParams.fromJson (j : Json) :
    Except Exception ElicitationCompleteNotificationParams := do
  let elicitationId ← require String j "elicitationId"
  return { elicitationId }

instance : FromJson ElicitationCompleteNotificationParams :=
  ⟨ElicitationCompleteNotificationParams.fromJson⟩

/-- The data of the error that asks the client for elicitations by url. -/
structure UrlElicitationRequiredErrorData where
  elicitations : List ElicitUrlRequestParams

def UrlElicitationRequiredErrorData.toJson (d : UrlElicitationRequiredErrorData) : Json :=
  Json.emptyObject.set "elicitations" (.of d.elicitations)

instance : ToJson UrlElicitationRequiredErrorData := ⟨UrlElicitationRequiredErrorData.toJson⟩

def UrlElicitationRequiredErrorData.fromJson (j : Json) :
    Except Exception UrlElicitationRequiredErrorData := do
  let elicitations ← getAt (List ElicitUrlRequestParams) j "elicitations"
  return { elicitations }

instance : FromJson UrlElicitationRequiredErrorData :=
  ⟨UrlElicitationRequiredErrorData.fromJson⟩

def TaskIdRequestParams.toJson (p : TaskIdRequestParams) : Json :=
  Json.emptyObject.set "taskId" (.of p.taskId)

instance : ToJson TaskIdRequestParams := ⟨TaskIdRequestParams.toJson⟩

def CreateTaskResult.fromJson (j : Json) : Except Exception CreateTaskResult := do
  let task ← getAt Task j "task"
  return { task }

instance : FromJson CreateTaskResult := ⟨CreateTaskResult.fromJson⟩

/-- The notification carries the task itself, without an object around it. -/
structure TaskStatusNotificationParams where
  task : Task

def TaskStatusNotificationParams.toJson (p : TaskStatusNotificationParams) : Json := .of p.task

instance : ToJson TaskStatusNotificationParams := ⟨TaskStatusNotificationParams.toJson⟩

def TaskStatusNotificationParams.fromJson (j : Json) :
    Except Exception TaskStatusNotificationParams := do
  let task ← j.get Task
  return { task }

instance : FromJson TaskStatusNotificationParams := ⟨TaskStatusNotificationParams.fromJson⟩

def ReadResourceResult.NullFree (r : ReadResourceResult) : Prop := r.meta ≠ some .null

def ElicitResult.NullFree (r : ElicitResult) : Prop := r.content ≠ some .null

/-- The arguments are a map: no key is there twice. -/
def GetPromptRequestParams.KeysNodup (p : GetPromptRequestParams) : Prop :=
  ∀ args ∈ p.arguments, (args.map Prod.fst).Nodup

section Messages

attribute [local simp] require getAt takeOptional find_putOptional Json.find_set bind Except.bind
  pure Except.pure

instance : RoundTrips ReadResourceRequestParams := ⟨fun _ => ⟨rfl, rfl⟩⟩
instance : RoundTrips UriParams := ⟨fun _ => ⟨rfl, rfl⟩⟩
instance : RoundTrips TaskIdRequestParams := ⟨fun _ => ⟨rfl, rfl⟩⟩
instance : RoundTrips ElicitationCompleteNotificationParams := ⟨fun _ => ⟨rfl, rfl⟩⟩
instance : RoundTrips RequestId := ⟨fun id => by cases id <;> exact ⟨rfl, rfl⟩⟩
instance : RoundTrips ProgressToken := ⟨fun t => by cases t <;> exact ⟨rfl, rfl⟩⟩
instance : RoundTrips LoggingLevel := ⟨fun l => by cases l <;> exact ⟨rfl, rfl⟩⟩
instance : RoundTrips ElicitAction := ⟨fun a => by cases a <;> exact ⟨rfl, rfl⟩⟩

instance : RoundTrips CancelledNotificationParams where
  restores p := by
    constructor
    · change CancelledNotificationParams.fromJson p.toJson = _
      simp [CancelledNotificationParams.fromJson, CancelledNotificationParams.toJson]
    · change p.toJson.isNull = false
      simp [CancelledNotificationParams.toJson]

instance : RoundTrips ProgressNotificationParams where
  restores p := by
    constructor
    · change ProgressNotificationParams.fromJson p.toJson = _
      simp [ProgressNotificationParams.fromJson, ProgressNotificationParams.toJson]
    · change p.toJson.isNull = false
      simp [ProgressNotificationParams.toJson]

instance : RoundTrips SetLevelRequestParams where
  restores p := by
    constructor
    · change SetLevelRequestParams.fromJson p.toJson = _
      simp [SetLevelRequestParams.fromJson, SetLevelRequestParams.toJson]
    · rfl

/-- The data may be any value, null among them: it is not an optional member. -/
instance : RoundTrips LoggingMessageNotificationParams where
  restores p := by
    constructor
    · change LoggingMessageNotificationParams.fromJson p.toJson = _
      simp [LoggingMessageNotificationParams.fromJson, LoggingMessageNotificationParams.toJson]
    · change p.toJson.isNull = false
      simp [LoggingMessageNotificationParams.toJson]

instance : RoundTrips Root where
  restores r := by
    constructor
    · change Root.fromJson r.toJson = _
      simp [Root.fromJson, Root.toJson]
    · change r.toJson.isNull = false
      simp [Root.toJson]

instance : RoundTrips ListRootsResult where
  restores r := by
    constructor
    · change ListRootsResult.fromJson r.toJson = _
      simp [ListRootsResult.fromJson, ListRootsResult.toJson]
    · rfl

instance : RoundTrips CompletionValues where
  restores v := by
    constructor
    · change CompletionValues.fromJson v.toJson = _
      simp [CompletionValues.fromJson, CompletionValues.toJson]
    · change v.toJson.isNull = false
      simp [CompletionValues.toJson]

instance : RoundTrips CompleteResult where
  restores r := by
    constructor
    · change CompleteResult.fromJson r.toJson = _
      simp [CompleteResult.fromJson, CompleteResult.toJson]
    · rfl

instance : RoundTrips ElicitUrlRequestParams where
  restores p := by
    constructor
    · change ElicitUrlRequestParams.fromJson p.toJson = _
      simp [ElicitUrlRequestParams.fromJson, ElicitUrlRequestParams.toJson]
    · rfl

instance : RoundTrips UrlElicitationRequiredErrorData where
  restores d := by
    constructor
    · change UrlElicitationRequiredErrorData.fromJson d.toJson = _
      simp [UrlElicitationRequiredErrorData.fromJson, UrlElicitationRequiredErrorData.toJson]
    · rfl

instance : RoundTrips CreateTaskResult where
  restores r := by
    constructor
    · change CreateTaskResult.fromJson r.toJson = _
      simp [CreateTaskResult.fromJson, CreateTaskResult.toJson]
    · rfl

instance : RoundTrips TaskStatusNotificationParams where
  restores p := by
    have htask := RoundTrips.restores p.task
    constructor
    · change TaskStatusNotificationParams.fromJson p.toJson = _
      simp [TaskStatusNotificationParams.fromJson, TaskStatusNotificationParams.toJson]
    · exact htask.isNull_of

theorem restores_readResourceResult {r : ReadResourceResult} (hr : r.NullFree) : Restores r := by
  constructor
  · change ReadResourceResult.fromJson r.toJson = _
    have hmeta : takeOptionalJson r.toJson "_meta" = r.meta :=
      takeOptionalJson_of_find (by simp [ReadResourceResult.toJson]) hr
    simp only [ReadResourceResult.fromJson, hmeta]
    simp [ReadResourceResult.toJson]
  · change r.toJson.isNull = false
    simp [ReadResourceResult.toJson]

theorem restores_elicitResult {r : ElicitResult} (hr : r.NullFree) : Restores r := by
  constructor
  · change ElicitResult.fromJson r.toJson = _
    have hcontent : takeOptionalJson r.toJson "content" = r.content :=
      takeOptionalJson_of_find (by simp [ElicitResult.toJson]) hr
    simp only [ElicitResult.fromJson, hcontent]
    simp [ElicitResult.toJson]
  · change r.toJson.isNull = false
    simp [ElicitResult.toJson]

/-- The arguments are read back as a map, in the order of the object's members. -/
theorem get_of_getPromptRequestParams {p : GetPromptRequestParams} (hp : p.KeysNodup) :
    ∃ arguments, (Json.of p).get GetPromptRequestParams = .ok ⟨p.name, arguments⟩ ∧
      Option.Rel List.Perm p.arguments arguments := by
  obtain ⟨name, arguments⟩ := p
  cases arguments with
  | none => exact ⟨none, rfl, .none⟩
  | some args =>
    obtain ⟨kvs, hobject, hperm⟩ := stringObject_spec (hp args rfl)
    refine ⟨some (stringMembers kvs), ?_, .some hperm⟩
    change GetPromptRequestParams.fromJson (GetPromptRequestParams.toJson ⟨name, some args⟩) = _
    simp [GetPromptRequestParams.fromJson, GetPromptRequestParams.toJson, hobject]

end Messages

end Mcp
