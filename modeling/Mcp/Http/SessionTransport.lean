import Mcp.Http.Gates
import Mcp.Library.Dict
import Mcp.Library.Transition
import Mcp.Protocol.Envelope

/-! The HttpSessionTransport of one session, between the POSTs that wait for answers and the
Session that gives them. One step is one section of a mutex, or one read of `closed_`. -/
namespace Mcp.Http.SessionTransport

open Transition

/-- The id a message answers. -/
def answers : JsonRpcMessage → Option RequestId
  | .response r => r.id
  | _ => none

/-- A message the Session sends, with its text. -/
structure Outgoing (codec : Codec) (id : Option RequestId) where
  msg : JsonRpcMessage
  frame : String
  dumped : codec.dump (serializeMessage msg) = some frame
  answers : answers msg = id

/-- A frame of the peer's, and the promise of the POST that brought it. -/
structure Frame where
  raw : String
  reply : Option ℕ

inductive PC (codec : Codec) where
  | idle
  -- a POST
  | handing (f : Frame)
  | waiting (p : ℕ)
  | responding (res : Response)
  -- a worker of the Session, past the check of `closed_` in send()
  | answering (p : ℕ) (id : RequestId) (m : Outgoing codec (some id))
  | emitting (m : Outgoing codec none)

structure State (codec : Codec) where
  closed : Bool
  /-- close() has not yet drained `pending`. -/
  draining : Bool
  started : Bool
  /-- `on_message_` is set. -/
  listening : Bool
  buffered : List Frame
  /-- What start() has taken from `buffered` and not yet handed over. -/
  starting : List Frame
  /-- Promises by routing key. A promise is named by its number. -/
  pending : Dict String ℕ
  promises : ℕ
  settled : List (ℕ × Except Exception String)
  /-- Requests the Session has taken and may still answer. -/
  owed : ℕ → Option RequestId
  getQueue : List String
  getActive : Bool
  pc : ℕ → PC codec

variable {codec : Codec}

def fresh : State codec where
  closed := false
  draining := false
  started := false
  listening := false
  buffered := []
  starting := []
  pending := ∅
  promises := 0
  settled := []
  owed _ := none
  getQueue := []
  getActive := false
  pc _ := .idle

def State.setPC (s : State codec) (t : ℕ) (pc : PC codec) : State codec :=
  { s with pc := Function.update s.pc t pc }

/-- `j.contains("id") && !j["id"].is_null()`. -/
def hasId (j : Json) : Bool := (j.find "id").any (fun id => !id.isNull)

/-- The routing key of an id. -/
def canonicalId : Json → String
  | .string s => "s:" ++ s
  | .integer i => "i:" ++ toString i.toInt
  | .unsigned u => "i:" ++ toString u.toInt64.toInt
  | _ => ""

/-- The key a JSON value is filed under. -/
def keyOf (j : Json) : String := canonicalId ((j.find "id").getD .null)

def sessionClosed : Exception :=
  .error { code := ErrorCode.internalError, message := "session closed" }

/-- What a future holds whose promise has been destroyed. -/
def brokenPromise : Exception := .std "std::future_error: Broken promise"

/-- A slot for a new promise. A slot already under the key is left alone, and the new promise is
destroyed. -/
def State.register (s : State codec) (key : String) : State codec :=
  { s with
    pending := Dict.tryEmplace key s.promises s.pending
    promises := s.promises + 1
    settled := if key ∈ s.pending then s.settled ++ [(s.promises, .error brokenPromise)]
      else s.settled }

def accepted : Response := { status := 202 }

/-- `deliver_request_or_notification`, up to the section that hands the frame over. -/
def State.deliver (s : State codec) (t : ℕ) (raw : String) : State codec :=
  match codec.parse raw with
  | none => s.setPC t (.responding accepted)
  | some j =>
    if hasId j && j.contains "method" then
      (s.register (keyOf j)).setPC t (.handing { raw, reply := some s.promises })
    else s.setPC t (.handing { raw, reply := none })

/-- The Session reads a frame: from now on it owes an answer to a request. -/
def State.take (s : State codec) (f : Frame) : State codec :=
  match f.reply, (codec.parse f.raw).map parseMessage with
  | some p, some (.ok (.request r)) => { s with owed := Function.update s.owed p (some r.id) }
  | _, _ => s

def State.handOver (s : State codec) (f : Frame) : State codec :=
  if s.started && s.listening then s.take f else { s with buffered := s.buffered ++ [f] }

/-- send(), after its check of `closed_`. -/
def State.send (s : State codec) (frame : String) : State codec :=
  match codec.parse frame with
  | none => s
  | some j =>
    if hasId j && !j.contains "method" then
      match s.pending.lookup (keyOf j) with
      | none => s
      | some p =>
        { s with pending := s.pending.erase (keyOf j), settled := s.settled ++ [(p, .ok frame)] }
    else { s with getQueue := s.getQueue ++ [frame] }

def what : Exception → String
  | .error e => e.message
  | .std what => what
  | _ => ""

/-- The response of a POST whose future is ready. -/
def response : Except Exception String → Response
  | .ok body => { status := 200, content := body }
  | .error e => { status := 500, content := "handler error: " ++ what e }

inductive Action (codec : Codec) where
  | onMessage
  | start
  | startHand
  | post (t : ℕ) (raw : String)
  | handOver (t : ℕ)
  | reply (t : ℕ)
  | timeOut (t : ℕ)
  | respond (t : ℕ)
  | answer (t p : ℕ) (id : RequestId) (m : Outgoing codec (some id))
  | drop (p : ℕ)
  | emit (t : ℕ) (m : Outgoing codec none)
  | route (t : ℕ)
  | push (t : ℕ)
  | close
  | drain
  | enterGet
  | leaveGet
  | takeGet

inductive Step (codec : Codec) : State codec → Action codec → State codec → Prop where
  | onMessage {s} : Step codec s .onMessage { s with listening := true }
  | start {s} : Step codec s .start { s with
      started := true
      buffered := []
      starting := if s.listening then s.starting ++ s.buffered else s.starting }
  | startHand {s f fs} : s.starting = f :: fs →
      Step codec s .startHand ({ s with starting := fs }.take f)
  | post {s t raw} : s.pc t = .idle → Step codec s (.post t raw) (s.deliver t raw)
  | handOver {s t f} : s.pc t = .handing f →
      Step codec s (.handOver t) ((s.handOver f).setPC t (match f.reply with
        | some p => .waiting p
        | none => .responding accepted))
  | reply {s t p r} : s.pc t = .waiting p → (p, r) ∈ s.settled →
      Step codec s (.reply t) (s.setPC t (.responding (response r)))
  -- the slot stays
  | timeOut {s t p} : s.pc t = .waiting p →
      Step codec s (.timeOut t)
        (s.setPC t (.responding { status := 504, content := "handler timed out" }))
  | respond {s t res} : s.pc t = .responding res → Step codec s (.respond t) (s.setPC t .idle)
  | answer {s t p id m} : s.pc t = .idle → s.owed p = some id →
      Step codec s (.answer t p id m) ({ s with owed := Function.update s.owed p none }.setPC t
        (if s.closed then .idle else .answering p id m))
  -- a request that is cancelled, or whose answer cannot be dumped, is never answered
  | drop {s p} : Step codec s (.drop p) { s with owed := Function.update s.owed p none }
  | emit {s t m} : s.pc t = .idle →
      Step codec s (.emit t m) (s.setPC t (if s.closed then .idle else .emitting m))
  | route {s t p id m} : s.pc t = .answering p id m →
      Step codec s (.route t) ((s.send m.frame).setPC t .idle)
  | push {s t m} : s.pc t = .emitting m →
      Step codec s (.push t) ((s.send m.frame).setPC t .idle)
  | close {s} : s.closed = false → Step codec s .close { s with closed := true, draining := true }
  | drain {s} : s.draining = true → Step codec s .drain { s with
      draining := false
      pending := ∅
      settled := s.settled ++ (Dict.list s.pending).map (fun p => (p, .error sessionClosed)) }
  | enterGet {s} : Step codec s .enterGet { s with getActive := true }
  | leaveGet {s} : Step codec s .leaveGet { s with getActive := false }
  | takeGet {s frame frames} : s.getQueue = frame :: frames →
      Step codec s .takeGet { s with getQueue := frames }

def machine (codec : Codec) : System (State codec) (Action codec) where
  Initial s := s = fresh
  Step := Step codec

theorem reachable_step {ok : State codec → Action codec → Prop} {s s' : State codec}
    {a : Action codec} (h : (machine codec).Reachable ok s) (ha : ok s a)
    (hs : Step codec s a s') : (machine codec).Reachable ok s' := h.step ha hs

end Mcp.Http.SessionTransport
