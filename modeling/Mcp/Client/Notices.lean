import Mathlib.Data.List.Induction
import Mcp.Client.Handlers
import Mcp.Protocol.Messages

/-! The notifications that a Server sends, and the handlers that Client has for them. -/
namespace Mcp

open Tasks

/-- The notifications that Client has a setter for. -/
inductive Notice where
  | taskStatus
  | resourceUpdated
  | resourcesListChanged
  | promptsListChanged
  | logMessage
  | progress
  | elicitationComplete
  deriving DecidableEq

def Notice.method : Notice → String
  | taskStatus => "notifications/tasks/status"
  | resourceUpdated => "notifications/resources/updated"
  | resourcesListChanged => "notifications/resources/list_changed"
  | promptsListChanged => "notifications/prompts/list_changed"
  | logMessage => "notifications/message"
  | progress => "notifications/progress"
  | elicitationComplete => "notifications/elicitation/complete"

/-- What a user's handler is called with. -/
inductive Payload where
  | task (t : Task)
  | resource (p : ResourceUpdatedNotificationParams)
  | nothing
  | log (p : LoggingMessageNotificationParams)
  | progress (p : ProgressNotificationParams)
  | elicitation (id : String)

/-- What is decoded, if it can be; an exception does not get past `handle_notification`. -/
def decoded {α : Type} [FromJson α] (payload : α → Payload) (params : Json) : Option Payload :=
  match params.get α with
  | .ok a => some (payload a)
  | .error _ => none

/-- What the lambda that a setter registers calls the user's handler with; none if it does not. -/
def Notice.read (params : Json) : Notice → Option Payload
  | taskStatus => if params.isNull then none else decoded .task params
  | resourceUpdated => if params.isNull then none else decoded .resource params
  | resourcesListChanged | promptsListChanged => some .nothing
  | logMessage => if params.isNull then none else decoded .log params
  | progress => if params.isNull then none else decoded .progress params
  | elicitationComplete =>
    if !params.isObject then none
    else decoded (fun p : ElicitationCompleteNotificationParams => .elicitation p.elicitationId)
      params

/-- A call of a user's handler, which a number stands for. -/
structure Invocation where
  handler : ℕ
  payload : Payload

/-- `note_handlers_`, with the lambdas that Client has put there; it sets no fallback. -/
structure NoteHandlers where
  handlers : Dict String (Json → Option Invocation) := ∅

namespace NoteHandlers

def setNotificationHandler (n : NoteHandlers) (method : String) (h : Json → Option Invocation) :
    NoteHandlers where
  handlers := n.handlers.insert method h

def clearNotificationHandler (n : NoteHandlers) (method : String) : NoteHandlers where
  handlers := n.handlers.erase method

/-- What the seven setters have in common. -/
def setHandler (n : NoteHandlers) (k : Notice) : Option ℕ → NoteHandlers
  | some handler => n.setNotificationHandler k.method fun params =>
    (k.read params).map fun payload => ⟨handler, payload⟩
  | none => n.clearNotificationHandler k.method

/-- The table after a sequence of calls of the setters. -/
def after (calls : List (Notice × Option ℕ)) : NoteHandlers :=
  calls.foldl (fun n call => n.setHandler call.1 call.2) {}

def handleNotification (n : NoteHandlers) (note : JsonRpcNotification) : Option Invocation :=
  (n.handlers.lookup note.method).bind fun h => h (note.params.getD .null)

/-- What an inbound frame makes the Session call. -/
def handleFrame (n : NoteHandlers) (j : Json) : Option Invocation :=
  match parseMessage j with
  | .ok (.notification note) => n.handleNotification note
  | .ok (.request _) | .ok (.response _) | .error _ => none

end NoteHandlers

/-- The handler that the latest of the calls about a notification has set. -/
def latest (k : Notice) (calls : List (Notice × Option ℕ)) : Option ℕ :=
  (calls.reverse.find? fun call => call.1 = k).bind Prod.snd

/-- `send_notification`. -/
def notification (method : String) (params : Json) : JsonRpcNotification where
  method
  params := if params.isNull then none else some params

/-- What a Server announces on its own. -/
inductive Announcement where
  | log (p : LoggingMessageNotificationParams)
  | progress (p : ProgressNotificationParams)
  | elicitationComplete (id : String)
  | taskStatus (t : Task)

namespace Announcement

def notice : Announcement → Notice
  | log _ => .logMessage
  | progress _ => .progress
  | elicitationComplete _ => .elicitationComplete
  | taskStatus _ => .taskStatus

def payload : Announcement → Payload
  | log p => .log p
  | progress p => .progress p
  | elicitationComplete id => .elicitation id
  | taskStatus t => .task t

def sent : Announcement → JsonRpcNotification
  | log p => notification "notifications/message" (.of p)
  | progress p => notification "notifications/progress" (.of p)
  | elicitationComplete id =>
    notification "notifications/elicitation/complete"
      (.of { elicitationId := id : ElicitationCompleteNotificationParams })
  | taskStatus t =>
    notification "notifications/tasks/status" (.of { task := t : TaskStatusNotificationParams })

/-- What `Server::log` compares. -/
structure Logging where
  enabled : Bool
  level : LoggingLevel

/-- The levels in the order of the enumeration. -/
def severity : LoggingLevel → ℕ
  | .debug => 0
  | .info => 1
  | .notice => 2
  | .warning => 3
  | .error => 4
  | .critical => 5
  | .alert => 6
  | .emergency => 7

/-- What goes out; only log messages are held back. -/
def emit (l : Logging) : Announcement → Option JsonRpcNotification
  | log p =>
    if !l.enabled then none
    else if severity p.level < severity l.level then none
    else some (log p).sent
  | a => some a.sent

/-- A log message while logging is not enabled, or below its level. -/
def heldBack (l : Logging) : Announcement → Bool
  | log p => !l.enabled || decide (severity p.level < severity l.level)
  | _ => false

end Announcement

variable {k k' : Notice} {n : NoteHandlers} {calls : List (Notice × Option ℕ)} {a : Announcement}
  {l : Announcement.Logging}

theorem notice_method_injective : Function.Injective Notice.method := by
  intro k k' h
  cases k <;> cases k' <;> first | rfl | exact absurd h (by decide)

/-- A handler's lambda, for a handler that is there. -/
def Notice.lambda (k : Notice) (h : Option ℕ) : Option (Json → Option Invocation) :=
  h.map fun handler params => (k.read params).map (Invocation.mk handler)

/-- A setter replaces or removes the handler of its own notification. -/
theorem lookup_setHandler (h : Option ℕ) : (n.setHandler k h).handlers.lookup k'.method =
    if k = k' then k'.lambda h else n.handlers.lookup k'.method := by
  by_cases hk : k = k'
  · subst k'
    cases h <;> simp [NoteHandlers.setHandler, NoteHandlers.setNotificationHandler,
      NoteHandlers.clearNotificationHandler, Notice.lambda]
  · have hne : k'.method ≠ k.method := notice_method_injective.ne (Ne.symm hk)
    cases h <;> simp [NoteHandlers.setHandler, NoteHandlers.setNotificationHandler,
      NoteHandlers.clearNotificationHandler, hk, hne]

/-- The table holds what the latest calls have set. -/
theorem lookup_after (k : Notice) (calls : List (Notice × Option ℕ)) :
    (NoteHandlers.after calls).handlers.lookup k.method = k.lambda (latest k calls) := by
  induction calls using List.reverseRecOn with
  | nil => simp [NoteHandlers.after, latest, Notice.lambda]
  | append_singleton calls call ih =>
    have hafter : NoteHandlers.after (calls ++ [call]) =
        (NoteHandlers.after calls).setHandler call.1 call.2 := by
      simp [NoteHandlers.after]
    rw [hafter, lookup_setHandler]
    by_cases hk : call.1 = k
    · simp [latest, hk]
    · simpa [latest, hk] using ih

section Sent

variable {α : Type} [ToJson α] [FromJson α] [RoundTrips α]

theorem params_notification (method : String) (p : α) :
    (notification method (.of p)).params = some (.of p) := by
  simp [notification, (RoundTrips.restores p).isNull_of]

theorem decoded_of (payload : α → Payload) (p : α) :
    decoded payload (.of p) = some (payload p) := by
  simp [decoded]

end Sent

/-- The lambda reads the payload that was sent. -/
theorem read_sent (a : Announcement) : a.sent.method = a.notice.method ∧
    ∃ params : Json, a.sent.params = some params ∧ params.isNull = false ∧
      a.notice.read params = some a.payload := by
  refine ⟨by cases a <;> rfl, ?_⟩
  cases a with
  | log p =>
    have hnull := (RoundTrips.restores p).isNull_of
    refine ⟨.of p, params_notification _ p, hnull, ?_⟩
    simp [Notice.read, Announcement.notice, hnull, decoded_of, Announcement.payload]
  | progress p =>
    have hnull := (RoundTrips.restores p).isNull_of
    refine ⟨.of p, params_notification _ p, hnull, ?_⟩
    simp [Notice.read, Announcement.notice, hnull, decoded_of, Announcement.payload]
  | elicitationComplete id => exact ⟨_, rfl, rfl, rfl⟩
  | taskStatus t =>
    have hnull := (RoundTrips.restores t).isNull_of
    refine ⟨.of t, params_notification _ (TaskStatusNotificationParams.mk t), hnull, ?_⟩
    simp [Notice.read, Announcement.notice, hnull, decoded_of, Announcement.payload]

theorem emit_eq (a : Announcement) (l : Announcement.Logging) :
    a.emit l = if a.heldBack l then none else some a.sent := by
  cases a with
  | log p =>
    cases h : l.enabled <;>
      by_cases hlt : Announcement.severity p.level < Announcement.severity l.level <;>
      simp [Announcement.emit, Announcement.heldBack, h, hlt]
  | _ => rfl

/-- What a Server announces makes the Client call the handler that was last set for it, once and
with what was announced. Nobody is called once it has been cleared, nor for a log message that the
Server holds back. -/
theorem announcement_reaches_latest (calls : List (Notice × Option ℕ)) (a : Announcement)
    (l : Announcement.Logging) :
    ((a.emit l).bind fun note =>
        (NoteHandlers.after calls).handleFrame (serializeMessage (.notification note))) =
      if a.heldBack l then none
      else (latest a.notice calls).map fun handler => ⟨handler, a.payload⟩ := by
  rw [emit_eq]
  cases a.heldBack l with
  | true => rfl
  | false =>
    obtain ⟨hmethod, params, hsent, hnull, hread⟩ := read_sent a
    have hplain : a.sent.params ≠ some .null := by
      rw [hsent]
      rintro ⟨⟩
      cases hnull
    have hparse := parseMessage_of_notification hplain
    change (match parseMessage (Json.of a.sent) with
      | .ok (.notification note) => (NoteHandlers.after calls).handleNotification note
      | .ok (.request _) | .ok (.response _) | .error _ => none) = _
    have hlookup : (NoteHandlers.after calls).handlers.lookup a.sent.method =
        a.notice.lambda (latest a.notice calls) := hmethod ▸ lookup_after a.notice calls
    rw [hparse]
    change ((NoteHandlers.after calls).handlers.lookup a.sent.method).bind _ = _
    rw [hlookup, hsent]
    cases latest a.notice calls <;> simp [Notice.lambda, hread]

end Mcp
