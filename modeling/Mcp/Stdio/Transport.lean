import Mcp.Library.Lines
import Mcp.Library.Transition
import Mathlib.Data.Nat.Notation
import Mathlib.Logic.Function.Basic

/-! StdioTransport: the read loop, and the senders that share the write descriptor. -/
namespace Mcp.Stdio

open Transition

/-- What one round of the loop finds. `idle` stands for an interrupted or empty-handed call, and
for stale bytes in the wake-up pipe. -/
inductive Poll where
  | idle
  | chunk (bytes : Bytes)

structure ReadState where
  buffer : Bytes := []
  /-- What has been handed to `on_message`. -/
  delivered : List Bytes := []
  /-- The loop has reported `message_size` and returned. -/
  oversized : Bool := false

/-- The line in the buffer has ended. -/
def ReadState.endLine (s : ReadState) : ReadState where
  buffer := []
  delivered := if s.buffer.stripCr = [] then s.delivered else s.delivered ++ [s.buffer.stripCr]
  oversized := s.oversized

/-- The loop over a chunk. -/
def readBytes (maxFrameBytes : ℕ) (s : ReadState) : Bytes → ReadState
  | [] => s
  | c :: cs =>
    if c = '\n' then readBytes maxFrameBytes s.endLine cs
    else if maxFrameBytes ≤ s.buffer.length then { s with oversized := true }
    else readBytes maxFrameBytes { s with buffer := s.buffer ++ [c] } cs

/-- `read_loop`, from `running_` on up to the end of the input. -/
def readLoop (maxFrameBytes : ℕ) (s : ReadState) : List Poll → ReadState
  | [] => s
  | .idle :: polls => readLoop maxFrameBytes s polls
  | .chunk bytes :: polls =>
    let s := readBytes maxFrameBytes s bytes
    if s.oversized then s else readLoop maxFrameBytes s polls

/-- The `std::error_code` that send() returns. -/
inductive SendResult where
  | ok
  | notConnected
  | invalidArgument
  | failed (errno : ℕ)
  deriving DecidableEq

/-- A call of send() that has returned. -/
structure Sent where
  frame : Bytes
  /-- What it has put on the descriptor. -/
  written : Bytes
  result : SendResult

inductive PC where
  | idle
  -- about to take `write_mutex_`
  | locking (frame : Bytes)
  -- with the mutex; the newline comes when nothing is left
  | writing (written left : Bytes)

structure State where
  running : Bool
  writeMutex : Option ℕ
  /-- All bytes that have gone through the write descriptor. -/
  out : Bytes
  pc : ℕ → PC
  /-- The frames in the order in which the mutex was taken for them. -/
  taken : List Bytes
  returned : List Sent

def fresh : State where
  running := false
  writeMutex := none
  out := []
  pc _ := .idle
  taken := []
  returned := []

def State.setPC (s : State) (t : ℕ) (pc : PC) : State :=
  { s with pc := Function.update s.pc t pc }

/-- The call of thread `t` returns and releases the mutex. -/
def State.leave (s : State) (t : ℕ) (sent : Sent) : State :=
  { s with
    writeMutex := none
    pc := Function.update s.pc t .idle
    returned := s.returned ++ [sent] }

/-- A call that is turned away before it takes the mutex. -/
def State.reject (s : State) (frame : Bytes) (result : SendResult) : State :=
  { s with returned := s.returned ++ [{ frame, written := [], result }] }

/-- send() up to the mutex. -/
def State.call (s : State) (t : ℕ) (frame : Bytes) : State :=
  if !s.running then s.reject frame .notConnected
  else if '\n' ∈ frame then s.reject frame .invalidArgument
  else s.setPC t (.locking frame)

inductive Action where
  | run (running : Bool)
  | call (t : ℕ) (frame : Bytes)
  | lock (t : ℕ)
  | write (t n : ℕ)
  | interrupt (t : ℕ)
  | fail (t errno : ℕ)
  | newline (t : ℕ)

/-- One step is the load of `running_` with the checks that follow it, the mutex, or one `::write`
that takes some of the bytes, is interrupted, or fails. -/
inductive Step : State → Action → State → Prop where
  | run {s} (running : Bool) : Step s (.run running) { s with running }
  | call {s t frame} : s.pc t = .idle → Step s (.call t frame) (s.call t frame)
  | lock {s t frame} : s.pc t = .locking frame → s.writeMutex = none →
      Step s (.lock t) { s with
        writeMutex := some t
        pc := Function.update s.pc t (.writing [] frame)
        taken := s.taken ++ [frame] }
  | write {s t written left n} : s.pc t = .writing written left → 0 < n → n ≤ left.length →
      Step s (.write t n) { s with
        out := s.out ++ left.take n
        pc := Function.update s.pc t (.writing (written ++ left.take n) (left.drop n)) }
  | interrupt {s t written left} : s.pc t = .writing written left → Step s (.interrupt t) s
  | fail {s t written left errno} : s.pc t = .writing written left →
      Step s (.fail t errno)
        (s.leave t { frame := written ++ left, written, result := .failed errno })
  | newline {s t written} : s.pc t = .writing written [] →
      Step s (.newline t) ({ s with out := s.out ++ ['\n'] }.leave t
        { frame := written, written := written ++ ['\n'], result := .ok })

def senders : System State Action where
  Initial s := s = fresh
  Step := Step

end Mcp.Stdio
