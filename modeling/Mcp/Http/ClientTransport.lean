import Mcp.Http.Gates
import Mcp.Http.Sse
import Mcp.Library.Transition

/-! The HttpClientTransport: callers of send() and close(), the worker that takes frames off the
queue, a thread for each POST, and the thread of the GET stream. One step is one section of a
mutex, one access of an atomic, one response, or one event of a stream. -/
namespace Mcp.Http.ClientTransport

open Transition

/-- `res->headers.find(name)`. -/
def header (res : Response) (name : String) : Option String :=
  (res.headers.find? (fun h => sameName h.1 name)).map Prod.snd

/-- `ct.find(needle) != npos`. -/
def mentions (text needle : String) : Bool := decide (needle.toList <:+: text.toList)

/-- `onUnauthorized` says whether the `std::function` is engaged. -/
structure Settings where
  sessionId : Option String := none
  openGetStream : Bool := true
  onUnauthorized : Bool := false

/-- How far the one call of start() that gets past its compare_exchange has come. -/
inductive Start where
  | before
  | claimed
  | opened
  | rearmed
  | working
  | done
  deriving DecidableEq

inductive PC where
  | idle
  -- send()
  | checking (frame : String)
  | pushing (frame : String)
  -- process_send(), on the thread of one frame
  | entered (frame : String)
  | sending (frame : String) (sid : Option String)
  | capturing (res : Response)
  | judging (res : Response)
  | notifying (res : Response)
  | receiving (events : List SseEvent)
  | handing (frame : Bytes)
  | leaving
  -- close(); `first` says whether the exchange read false
  | closing
  | deleting (sid : Option String)
  | joiningWorker (first : Bool)
  | joiningGet (first : Bool)
  | draining
  | firing

inductive Worker where
  | absent
  | looping
  | popped (frame : String)
  | exited

inductive Get where
  | absent
  | looping
  | waiting
  | requesting (sid : String) (buf : Bytes)
  | receiving (sid : String) (events : List SseEvent) (buf : Bytes)
  | notifying (res : Response)
  | resetting (sid : String)
  | checking
  | sleeping
  | exited

/-- What happens to the session id, and the calls of `on_unauthorized`. -/
inductive Event where
  -- a POST or a GET is made, with or without an id
  | request (sid : Option String)
  -- a request that carried the id is answered 404
  | gone (sid : String)
  -- a response to a POST sets the id
  | installed (sid : String)
  -- the GET worker, answered 404 for `sid`, resets what is there
  | forgot (sid : String) (old : Option String)
  | unauthorized (status : ℕ) (challenge : String)

structure State where
  start : Start
  closed : Bool
  closeFired : Bool
  sessionId : Option String
  /-- `auth_callback_armed_`. -/
  armed : Bool
  lastEventId : Bytes
  nextRetryMs : Option Int32
  out : List String
  inflight : ℕ
  worker : Worker
  get : Get
  pc : ℕ → PC
  /-- Frames for which send() has returned success, or an error. -/
  accepted : List String
  refused : List String
  /-- Frames that process_send() has been called with. -/
  processed : List String
  /-- Frames that `on_message_` has been called with. -/
  delivered : List Bytes
  /-- Calls of `on_close_`. -/
  closes : ℕ
  /-- The latest event first. -/
  history : List Event

def State.started (s : State) : Bool := s.start ≠ .before

def State.setPC (s : State) (t : ℕ) (pc : PC) : State := { s with pc := Function.update s.pc t pc }

def fresh (settings : Settings) : State where
  start := .before
  closed := false
  closeFired := false
  sessionId := settings.sessionId
  armed := true
  lastEventId := []
  nextRetryMs := none
  out := []
  inflight := 0
  worker := .absent
  get := .absent
  pc _ := .idle
  accepted := []
  refused := []
  processed := []
  delivered := []
  closes := 0
  history := []

/-- The callback of `drain_sse` on the POST path. -/
def State.noteEvent (s : State) (se : SseEvent) : State :=
  { s with
    lastEventId := match se.id with
      | some id => if id = [] then s.lastEventId else id
      | none => s.lastEventId
    delivered := if se.data = [] then s.delivered else s.delivered ++ [se.data] }

/-- The callback of `drain_sse` on the GET stream. -/
def State.noteStreamEvent (s : State) (se : SseEvent) : State :=
  { s.noteEvent se with nextRetryMs := se.retryMs.or s.nextRetryMs }

/-- What is done with the body of a response that is not 202. -/
def bodyPC (res : Response) : PC :=
  if mentions ((header res "Content-Type").getD "") "text/event-stream" then
    .receiving (drainSse res.content.toList).1
  else .handing res.content.toList

def isUnauthorized (res : Response) : Bool := res.status == 401 || res.status == 403

def isSuccess (res : Response) : Bool := decide (200 ≤ res.status ∧ res.status < 300)

/-- What a response tells about the id that its request carried. -/
def goneEvents (sid : Option String) (res : Response) : List Event :=
  match sid with
  | some sid => if res.status = 404 then [.gone sid] else []
  | none => []

/-- Where the GET worker goes with the response to a GET that carried `sid`. -/
def afterGet (settings : Settings) (sid : String) : Option Response → Get
  | none => .checking
  | some res =>
    if res.status = 405 then .exited
    else if isUnauthorized res then
      if settings.onUnauthorized then .notifying res else .exited
    else if res.status = 404 then .resetting sid
    else .checking

def notice (res : Response) : Event :=
  .unauthorized res.status ((header res "WWW-Authenticate").getD "")

def Worker.joinable : Worker → Prop
  | .absent | .exited => True
  | _ => False

def Get.joinable : Get → Prop
  | .absent | .exited => True
  | _ => False

inductive Action where
  | startClaim | startOpen | startRearm | startWorker | startGet
  | send (t : ℕ) (frame : String) | sendCheck (t : ℕ) | sendPush (t : ℕ)
  | workerTake | workerSpawn (t : ℕ) | workerExit
  | postRead (t : ℕ) | postFail (t : ℕ) | postResponse (t : ℕ) (res : Response)
  | postCapture (t : ℕ) | postArm (t : ℕ) | postDisarm (t : ℕ) | postNotify (t : ℕ)
  | postError (t : ℕ) | postEvent (t : ℕ) | postHand (t : ℕ) | postLeave (t : ℕ)
  | getLoop | getRead | getWake | getChunk (chunk : Bytes) | getEvent | getMore
  | getAbort | getResponse (res : Option Response) | getNotify | getReset | getCheck | getSleep
  | close (t : ℕ) | closeRead (t : ℕ) | closeDelete (t : ℕ) | closeJoinWorker (t : ℕ)
  | closeJoinGet (t : ℕ) | closeDrain (t : ℕ) | closeFire (t : ℕ)

section Steps

variable (settings : Settings)

/-- Threads that call nothing are idle; a thread may take the part of a sender, a closer, or the
POST of a frame. -/
inductive Step : State → Action → State → Prop where
  -- start(); a second call finds `started_` set and does nothing
  | startClaim {s} : s.start = .before → Step s .startClaim { s with start := .claimed }
  | startOpen {s} : s.start = .claimed →
      Step s .startOpen { s with start := .opened, closed := false }
  | startRearm {s} : s.start = .opened →
      Step s .startRearm { s with start := .rearmed, closeFired := false }
  | startWorker {s} : s.start = .rearmed →
      Step s .startWorker { s with start := .working, worker := .looping }
  | startGet {s} : s.start = .working →
      Step s .startGet { s with
        start := .done
        get := if settings.openGetStream then .looping else s.get }
  | send {s t frame} : s.pc t = .idle →
      Step s (.send t frame) (if s.started then s.setPC t (.checking frame)
        else { s with refused := s.refused ++ [frame] })
  | sendCheck {s t frame} : s.pc t = .checking frame →
      Step s (.sendCheck t) (if s.closed then
          { s with refused := s.refused ++ [frame] }.setPC t .idle
        else s.setPC t (.pushing frame))
  | sendPush {s t frame} : s.pc t = .pushing frame →
      Step s (.sendPush t)
        ({ s with out := s.out ++ [frame], accepted := s.accepted ++ [frame] }.setPC t .idle)
  | workerTake {s frame rest} : s.worker = .looping → s.out = frame :: rest →
      Step s .workerTake { s with out := rest, worker := .popped frame }
  -- the section of inflight_mu_, and the start of the frame's thread
  | workerSpawn {s t frame} : s.worker = .popped frame → s.pc t = .idle →
      Step s (.workerSpawn t) ({ s with
        worker := .looping
        inflight := s.inflight + 1
        processed := s.processed ++ [frame] }.setPC t (.entered frame))
  | workerExit {s} : s.worker = .looping → s.closed = true → s.out = [] →
      Step s .workerExit { s with worker := .exited }
  | postRead {s t frame} : s.pc t = .entered frame →
      Step s (.postRead t) ({ s with history := .request s.sessionId :: s.history }.setPC t
        (.sending frame s.sessionId))
  | postFail {s t frame sid} : s.pc t = .sending frame sid →
      Step s (.postFail t) (s.setPC t .leaving)
  | postResponse {s t frame sid res} : s.pc t = .sending frame sid →
      Step s (.postResponse t res) ({ s with history := goneEvents sid res ++ s.history }.setPC t
        (match header res "Mcp-Session-Id" with
          | none => .judging res
          | some id => if id = "" then .judging res else .capturing res))
  | postCapture {s t res id} : s.pc t = .capturing res → header res "Mcp-Session-Id" = some id →
      Step s (.postCapture t) ({ s with
        sessionId := some id
        history := .installed id :: s.history }.setPC t (.judging res))
  | postArm {s t res} : s.pc t = .judging res → isSuccess res = true →
      Step s (.postArm t) ({ s with armed := true }.setPC t
        (if res.status = 202 then .leaving else bodyPC res))
  -- without a callback the flag is not touched
  | postDisarm {s t res} : s.pc t = .judging res → isUnauthorized res = true →
      Step s (.postDisarm t) (if settings.onUnauthorized && s.armed then
          { s with armed := false }.setPC t (.notifying res)
        else s.setPC t .leaving)
  | postNotify {s t res} : s.pc t = .notifying res →
      Step s (.postNotify t) ({ s with history := notice res :: s.history }.setPC t .leaving)
  | postError {s t res} : s.pc t = .judging res → isSuccess res = false →
      isUnauthorized res = false → Step s (.postError t) (s.setPC t .leaving)
  | postEvent {s t se events} : s.pc t = .receiving (se :: events) →
      Step s (.postEvent t) ((s.noteEvent se).setPC t (.receiving events))
  | postHand {s t frame} : s.pc t = .handing frame →
      Step s (.postHand t) ({ s with delivered := s.delivered ++ [frame] }.setPC t .leaving)
  | postLeave {s t} : s.pc t = .leaving ∨ s.pc t = .receiving [] →
      Step s (.postLeave t) ({ s with inflight := s.inflight - 1 }.setPC t .idle)
  | getLoop {s} : s.get = .looping →
      Step s .getLoop { s with get := if s.closed then .exited else .waiting }
  | getRead {s sid} : s.get = .waiting → s.sessionId = some sid → s.closed = false →
      Step s .getRead { s with
        get := .requesting sid []
        history := .request (some sid) :: s.history }
  | getWake {s} : s.get = .waiting → s.closed = true → Step s .getWake { s with get := .exited }
  | getChunk {s sid buf chunk} : s.get = .requesting sid buf → s.closed = false →
      Step s (.getChunk chunk) { s with
        get := .receiving sid (drainSse (buf ++ chunk)).1 (drainSse (buf ++ chunk)).2 }
  | getEvent {s sid se events buf} : s.get = .receiving sid (se :: events) buf →
      Step s .getEvent { s.noteStreamEvent se with get := .receiving sid events buf }
  | getMore {s sid buf} : s.get = .receiving sid [] buf →
      Step s .getMore { s with get := .requesting sid buf }
  -- the receiver returns false for a chunk, and the request ends without a response
  | getAbort {s sid buf} : s.get = .requesting sid buf → s.closed = true →
      Step s .getAbort { s with get := .checking }
  | getResponse {s sid buf res} : s.get = .requesting sid buf →
      Step s (.getResponse res) { s with
        get := afterGet settings sid res
        history := (match res with
          | none => []
          | some res => goneEvents (some sid) res) ++ s.history }
  | getNotify {s res} : s.get = .notifying res →
      Step s .getNotify { s with get := .exited, history := notice res :: s.history }
  | getReset {s sid} : s.get = .resetting sid →
      Step s .getReset { s with
        get := .exited
        sessionId := none
        history := .forgot sid s.sessionId :: s.history }
  | getCheck {s} : s.get = .checking →
      Step s .getCheck { s with get := if s.closed then .exited else .sleeping }
  | getSleep {s} : s.get = .sleeping → Step s .getSleep { s with get := .looping }
  | close {s t} : s.pc t = .idle → Step s (.close t)
      ({ s with closed := true }.setPC t (if s.closed then .joiningWorker false else .closing))
  | closeRead {s t} : s.pc t = .closing → Step s (.closeRead t) (s.setPC t (.deleting s.sessionId))
  -- the DELETE, and the two notifications
  | closeDelete {s t sid} : s.pc t = .deleting sid →
      Step s (.closeDelete t) (s.setPC t (.joiningWorker true))
  | closeJoinWorker {s t first} : s.pc t = .joiningWorker first → s.worker.joinable →
      Step s (.closeJoinWorker t) (s.setPC t (.joiningGet first))
  | closeJoinGet {s t first} : s.pc t = .joiningGet first → s.get.joinable →
      Step s (.closeJoinGet t) (s.setPC t (if first then .draining else .idle))
  | closeDrain {s t} : s.pc t = .draining → s.inflight = 0 →
      Step s (.closeDrain t) (s.setPC t .firing)
  | closeFire {s t} : s.pc t = .firing → Step s (.closeFire t) ({ s with
      closeFired := true
      closes := if s.closeFired then s.closes else s.closes + 1 }.setPC t .idle)

def machine : System State Action where
  Initial s := s = fresh settings
  Step := Step settings

end Steps

theorem reachable_step {settings : Settings} {ok : State → Action → Prop} {s s' : State}
    {a : Action} (h : (machine settings).Reachable ok s) (ha : ok s a)
    (hs : Step settings s a s') : (machine settings).Reachable ok s' := h.step ha hs

/-- start() has returned, and nothing else has happened. -/
def ready (settings : Settings) : State :=
  { fresh settings with
    start := .done
    worker := .looping
    get := if settings.openGetStream then .looping else .absent }

theorem ready_reachable {settings : Settings} {ok : State → Action → Prop}
    (hclaim : ∀ s, ok s .startClaim) (hopen : ∀ s, ok s .startOpen)
    (hrearm : ∀ s, ok s .startRearm) (hworker : ∀ s, ok s .startWorker)
    (hget : ∀ s, ok s .startGet) : (machine settings).Reachable ok (ready settings) := by
  have h₀ : (machine settings).Reachable ok (fresh settings) := .initial rfl
  have h₁ := reachable_step h₀ (hclaim _) (.startClaim rfl)
  have h₂ := reachable_step h₁ (hopen _) (.startOpen rfl)
  have h₃ := reachable_step h₂ (hrearm _) (.startRearm rfl)
  have h₄ := reachable_step h₃ (hworker _) (.startWorker rfl)
  exact reachable_step h₄ (hget _) (.startGet rfl)

end Mcp.Http.ClientTransport
