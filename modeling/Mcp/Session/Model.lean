import Mcp.Library.Dict
import Mcp.Library.Transition
import Mcp.Protocol.Envelope

/-! The Session as a machine of threads. One step is one critical section, one atomic access to
`closed_`, one callback, or one call into the transport. -/
namespace Mcp.Session

open Transition

/-- The thread of `timeout_loop`, and all others. -/
inductive Thread where
  | timer
  | app (n : ℕ)
  deriving DecidableEq, Repr

structure Options where
  /-- Milliseconds. -/
  defaultRequestTimeout : Int64 := 30000

/-- One call of `send_request_for`: `convert` fills its promise from the result, and a zero
timeout asks for the default. -/
structure Call (V : Type) where
  method : String
  params : Json
  convert : Json → Except Exception V
  timeout : Int64

/-- `send_request("ping")`. -/
def ping : Call Json where
  method := "ping"
  params := .null
  convert := .ok
  timeout := 0

/-- A parked request. Both callbacks capture the promise of one call, named by its number. -/
structure Pending where
  promise : ℕ
  deadline : Int64

/-- What a promise was given. -/
inductive Settlement (V : Type) where
  | value (v : V)
  | exception (e : Exception)

/-- Where a thread goes on once the entries it took out are rejected. -/
inductive After where
  | idle
  | storingClosed
  | draining (first : Bool)
  | locking
  deriving DecidableEq

/-- What a thread does next. -/
inductive PC where
  | idle
  -- start()
  | starting
  | spawningTimer
  | startingTransport
  -- register_pending
  | registering (k : ℕ) (deadline : Int64)
  | sending (k : ℕ)
  | pulling (k : ℕ) (e : Exception)
  -- entries taken out of pending_, callbacks not yet run
  | resolving (k : ℕ) (outcome : Outcome)
  | rejecting (ks : List ℕ) (e : Exception) (next : After)
  -- the on_close callback, after its cancel_all_pending
  | storingClosed
  | firingClosed
  | callingClosed (cb : Bool)
  -- close()
  | cancelling (first : Bool)
  | draining (first : Bool)
  | closingTransport (first : Bool)
  | notifying
  | joining
  -- handle_frame, between counting a worker and starting it
  | spawningWorker
  -- timeout_loop
  | unborn
  | locking
  | waiting (until? : Option Int64)
  | exited

def After.pc : After → PC
  | .idle => .idle
  | .storingClosed => .storingClosed
  | .draining first => .draining first
  | .locking => .locking

structure State (V : Type) where
  started : Bool
  closed : Bool
  /-- How many ids `next_id` has handed out. -/
  issued : ℕ
  pending : Dict RequestId Pending
  /-- `timeout_cv_` has been notified since the timer began to wait. -/
  notified : Bool
  onClosed : Bool
  closedCbFired : Bool
  workersRunning : ℕ
  /-- Request workers that have started and not yet counted themselves out. -/
  live : ℕ
  transportClosed : Bool
  pc : Thread → PC
  /-- Every use of a promise, in order. -/
  settled : List (ℕ × Settlement V)
  /-- Requests the transport accepted. -/
  written : List JsonRpcRequest
  /-- Response frames seen so far. -/
  received : List JsonRpcResponse

/-- A session fresh from its constructor. -/
def fresh (V : Type) : State V where
  started := false
  closed := false
  issued := 0
  pending := ∅
  notified := false
  onClosed := false
  closedCbFired := false
  workersRunning := 0
  live := 0
  transportClosed := false
  pc
    | .timer => .unborn
    | .app _ => .idle
  settled := []
  written := []
  received := []

variable {V : Type}

def State.setPC (s : State V) (t : Thread) (pc : PC) : State V :=
  { s with pc := Function.update s.pc t pc }

/-- `timeout_cv_.notify_all()`. -/
def State.notifyTimer (s : State V) : State V := { s with notified := true }

/-- Ids count up from 1 in an `int64_t` that wraps. -/
def requestId (k : ℕ) : RequestId := .integer (Int64.ofNat (k + 1))

def sessionClosed : Exception :=
  .error { code := ErrorCode.internalError, message := "session closed" }

def transportClosed : Exception :=
  .error { code := ErrorCode.internalError, message := "transport closed" }

def timedOut : Exception :=
  .error { code := ErrorCode.internalError, message := "request timed out" }

def duplicateId (id : RequestId) : Exception :=
  .error { code := ErrorCode.internalError
           message := "internal: duplicate request id " ++ id.canonical }

/-- Steady-clock nanoseconds plus milliseconds, in `int64_t` arithmetic. -/
def deadlineOf (opts : Options) (now timeout : Int64) : Int64 :=
  now + (if timeout = 0 then opts.defaultRequestTimeout else timeout) * 1000000

/-- The frame that `register_pending` sends. -/
def requestOf (k : ℕ) (call : Call V) : JsonRpcRequest where
  id := requestId k
  method := call.method
  params := if call.params.isNull then none else some call.params

/-- What the resolve callback makes of a response, and the reject callback of an error. -/
def settlementOf (call : Call V) : Outcome → Settlement V
  | .result j =>
    match call.convert j with
    | .ok v => .value v
    | .error e => .exception e
  | .error e => .exception (.error e)

/-- The section of `register_pending` that parks. -/
def State.park (s : State V) (t : Thread) (k : ℕ) (deadline : Int64) : State V :=
  if s.closed then s.setPC t (.rejecting [k] sessionClosed .idle)
  else if requestId k ∈ s.pending then
    s.setPC t (.rejecting [k] (duplicateId (requestId k)) .idle)
  else
    ({ s with pending := s.pending.insert (requestId k) ⟨k, deadline⟩ }.notifyTimer).setPC t
      (.sending k)

/-- The section of `register_pending` that pulls an entry back after a failed send. -/
def State.pull (s : State V) (t : Thread) (k : ℕ) (e : Exception) : State V :=
  match s.pending.lookup (requestId k) with
  | none => s.setPC t .idle
  | some p =>
    { s with pending := s.pending.erase (requestId k) }.setPC t (.rejecting [p.promise] e .idle)

/-- The section of `handle_response`; a response without an id settles nothing. -/
def State.takeResponse (s : State V) (t : Thread) (resp : JsonRpcResponse) : State V :=
  let s := { s with received := s.received ++ [resp] }
  match resp.id with
  | none => s
  | some id =>
    match s.pending.lookup id with
    | none => s
    | some p =>
      ({ s with pending := s.pending.erase id }.notifyTimer).setPC t
        (.resolving p.promise resp.outcome)

/-- The section of `cancel_all_pending`. -/
def State.cancelAllPending (s : State V) (t : Thread) (e : Exception) (next : After) : State V :=
  ({ s with pending := ∅ }.notifyTimer).setPC t
    (.rejecting ((Dict.list s.pending).map Pending.promise) e next)

/-- The earliest deadline, as `timeout_loop` folds it. -/
def soonest (pending : Dict RequestId Pending) : Int64 :=
  (Dict.list pending).foldl (fun t p => if p.deadline < t then p.deadline else t) Int64.maxValue

/-- `timeout_loop` from the loop test to its next wait. -/
def State.timeoutSection (s : State V) : State V :=
  if s.closed then s.setPC .timer .exited
  else if s.pending.entries.isEmpty then { s with notified := false }.setPC .timer (.waiting none)
  else { s with notified := false }.setPC .timer (.waiting (some (soonest s.pending)))

/-- The entries whose deadline has passed. -/
def expired (now : Int64) (_ : RequestId) (p : Pending) : Bool := decide (p.deadline ≤ now)

/-- `timeout_loop` after a wait that timed out: expired entries leave the map. -/
def State.sweep (s : State V) (now : Int64) : State V :=
  { s with pending := Dict.filter (fun id p => !expired now id p) s.pending }.setPC .timer
    (.rejecting ((Dict.list (Dict.filter (expired now) s.pending)).map Pending.promise) timedOut
      .locking)

inductive Action where
  | startClaim (t : Thread)
  | startClear (t : Thread)
  | startTimer (t : Thread)
  | startTransport (t : Thread)
  | nextId (t : Thread) (now : Int64)
  | park (t : Thread)
  | sendOk (t : Thread)
  | sendThrow (t : Thread) (e : Exception)
  | pull (t : Thread)
  | response (t : Thread) (resp : JsonRpcResponse)
  | resolve (t : Thread)
  | reject (t : Thread)
  | rejected (t : Thread)
  | timerSection
  | timerWake
  | timerExpire (now : Int64)
  | setOnClosed
  | onClose (t : Thread)
  | onCloseStore (t : Thread)
  | onCloseFire (t : Thread)
  | onCloseReturn (t : Thread)
  | closeCall (t : Thread)
  | closeCancel (t : Thread)
  | closeDrained (t : Thread)
  | closeTransport (t : Thread)
  | closeNotify (t : Thread)
  | closeReturn (t : Thread)
  | dispatch (t : Thread)
  | spawn (t : Thread)
  | spawnThrow (t : Thread)
  | workerDone

/-- The machine. `calls k` is the call that got the `k`-th id. -/
inductive Step (opts : Options) (calls : ℕ → Call V) : State V → Action → State V → Prop where
  | startClaim {s t} : s.pc t = .idle → s.started = false →
      Step opts calls s (.startClaim t) ({ s with started := true }.setPC t .starting)
  | startClear {s t} : s.pc t = .starting →
      Step opts calls s (.startClear t) ({ s with closed := false }.setPC t .spawningTimer)
  -- assigning over a running thread would terminate the process
  | startTimer {s t} : s.pc t = .spawningTimer → s.pc .timer = .unborn →
      Step opts calls s (.startTimer t) ((s.setPC .timer .locking).setPC t .startingTransport)
  | startTransport {s t} : s.pc t = .startingTransport →
      Step opts calls s (.startTransport t) (s.setPC t .idle)
  | nextId {s t now} : s.pc t = .idle →
      Step opts calls s (.nextId t now)
        ({ s with issued := s.issued + 1 }.setPC t
          (.registering s.issued (deadlineOf opts now (calls s.issued).timeout)))
  | park {s t k deadline} : s.pc t = .registering k deadline →
      Step opts calls s (.park t) (s.park t k deadline)
  | sendOk {s t k} : s.pc t = .sending k →
      Step opts calls s (.sendOk t)
        ({ s with written := s.written ++ [requestOf k (calls k)] }.setPC t .idle)
  | sendThrow {s t k e} : s.pc t = .sending k →
      Step opts calls s (.sendThrow t e) (s.setPC t (.pulling k e))
  | pull {s t k e} : s.pc t = .pulling k e → Step opts calls s (.pull t) (s.pull t k e)
  | response {s t resp} : s.pc t = .idle →
      Step opts calls s (.response t resp) (s.takeResponse t resp)
  | resolve {s t k outcome} : s.pc t = .resolving k outcome →
      Step opts calls s (.resolve t)
        ({ s with settled := s.settled ++ [(k, settlementOf (calls k) outcome)] }.setPC t .idle)
  | reject {s t k ks e next} : s.pc t = .rejecting (k :: ks) e next →
      Step opts calls s (.reject t)
        ({ s with settled := s.settled ++ [(k, Settlement.exception e)] }.setPC t
          (.rejecting ks e next))
  | rejected {s t e next} : s.pc t = .rejecting [] e next →
      Step opts calls s (.rejected t) (s.setPC t next.pc)
  | timerSection {s} : s.pc .timer = .locking → Step opts calls s .timerSection s.timeoutSection
  -- notified, or spurious
  | timerWake {s until?} : s.pc .timer = .waiting until? →
      Step opts calls s .timerWake s.timeoutSection
  | timerExpire {s t now} : s.pc .timer = .waiting (some t) → t ≤ now →
      Step opts calls s (.timerExpire now) (s.sweep now)
  | setOnClosed {s} : Step opts calls s .setOnClosed { s with onClosed := true }
  | onClose {s t} : s.pc t = .idle →
      Step opts calls s (.onClose t) (s.cancelAllPending t transportClosed .storingClosed)
  | onCloseStore {s t} : s.pc t = .storingClosed →
      Step opts calls s (.onCloseStore t) ({ s with closed := true }.setPC t .firingClosed)
  | onCloseFire {s t} : s.pc t = .firingClosed →
      Step opts calls s (.onCloseFire t)
        ({ s with closedCbFired := true }.setPC t (.callingClosed (!s.closedCbFired && s.onClosed)))
  | onCloseReturn {s t cb} : s.pc t = .callingClosed cb →
      Step opts calls s (.onCloseReturn t) (s.setPC t .idle)
  | closeCall {s t} : s.pc t = .idle →
      Step opts calls s (.closeCall t) ({ s with closed := true }.setPC t (.cancelling !s.closed))
  | closeCancel {s t first} : s.pc t = .cancelling first →
      Step opts calls s (.closeCancel t) (s.cancelAllPending t sessionClosed (.draining first))
  | closeDrained {s t first} : s.pc t = .draining first → s.workersRunning = 0 →
      Step opts calls s (.closeDrained t) (s.setPC t (.closingTransport first))
  | closeTransport {s t first} : s.pc t = .closingTransport first →
      Step opts calls s (.closeTransport t)
        ({ s with transportClosed := s.transportClosed || first }.setPC t .notifying)
  | closeNotify {s t} : s.pc t = .notifying →
      Step opts calls s (.closeNotify t) (s.notifyTimer.setPC t .joining)
  | closeReturn {s t} : s.pc t = .joining → s.pc .timer = .unborn ∨ s.pc .timer = .exited →
      Step opts calls s (.closeReturn t) (s.setPC t .idle)
  | dispatch {s t} : s.pc t = .idle →
      Step opts calls s (.dispatch t)
        ({ s with workersRunning := s.workersRunning + 1 }.setPC t .spawningWorker)
  | spawn {s t} : s.pc t = .spawningWorker →
      Step opts calls s (.spawn t) ({ s with live := s.live + 1 }.setPC t .idle)
  -- std::thread may throw; the count stays as it is
  | spawnThrow {s t} : s.pc t = .spawningWorker →
      Step opts calls s (.spawnThrow t) (s.setPC t .idle)
  | workerDone {s} : 0 < s.live →
      Step opts calls s .workerDone
        { s with live := s.live - 1, workersRunning := s.workersRunning - 1 }

def machine (opts : Options) (calls : ℕ → Call V) : System (State V) Action where
  Initial s := s = fresh V
  Step := Step opts calls

theorem reachable_step {opts : Options} {calls : ℕ → Call V} {ok : State V → Action → Prop}
    {s s' : State V} {a : Action} (h : (machine opts calls).Reachable ok s) (ha : ok s a)
    (hs : Step opts calls s a s') : (machine opts calls).Reachable ok s' := h.step ha hs

@[simp] theorem setPC_pc (s : State V) (t : Thread) (pc : PC) :
    (s.setPC t pc).pc = Function.update s.pc t pc := rfl

@[simp] theorem notifyTimer_pc (s : State V) : s.notifyTimer.pc = s.pc := rfl

/-- What the sections of `pending_mu_` leave alone. -/
structure Untouched (s s' : State V) : Prop where
  started : s'.started = s.started
  closed : s'.closed = s.closed
  issued : s'.issued = s.issued
  workersRunning : s'.workersRunning = s.workersRunning
  live : s'.live = s.live
  transportClosed : s'.transportClosed = s.transportClosed
  settled : s'.settled = s.settled

section Sections

variable (s : State V) (t : Thread) (k : ℕ)

/-- Where the park section sends its thread. -/
theorem park_pc (deadline : Int64) : ∃ pc, (s.park t k deadline).pc = Function.update s.pc t pc ∧
    (pc = .sending k ∨ ∃ e, pc = .rejecting [k] e .idle) := by
  unfold State.park
  split
  · exact ⟨_, rfl, .inr ⟨_, rfl⟩⟩
  · split
    · exact ⟨_, rfl, .inr ⟨_, rfl⟩⟩
    · exact ⟨_, rfl, .inl rfl⟩

theorem pull_pc (e : Exception) : ∃ pc, (s.pull t k e).pc = Function.update s.pc t pc ∧
    (pc = .idle ∨ ∃ p, pc = .rejecting [p] e .idle) := by
  unfold State.pull
  split
  · exact ⟨_, rfl, .inl rfl⟩
  · exact ⟨_, rfl, .inr ⟨_, rfl⟩⟩

theorem takeResponse_pc (resp : JsonRpcResponse) (hpc : s.pc t = .idle) :
    ∃ pc, (s.takeResponse t resp).pc = Function.update s.pc t pc ∧
      (pc = .idle ∨ ∃ p, pc = .resolving p resp.outcome) := by
  have hsame : s.pc = Function.update s.pc t .idle := by simp [← hpc]
  unfold State.takeResponse
  dsimp only
  split
  · exact ⟨_, hsame, .inl rfl⟩
  · split
    · exact ⟨_, hsame, .inl rfl⟩
    · exact ⟨_, rfl, .inr ⟨_, rfl⟩⟩

theorem timeoutSection_pc : ∃ pc, s.timeoutSection.pc = Function.update s.pc .timer pc ∧
    (pc = .exited ∨ ∃ until?, pc = .waiting until?) := by
  unfold State.timeoutSection
  split
  · exact ⟨_, rfl, .inl rfl⟩
  · split
    · exact ⟨_, rfl, .inr ⟨_, rfl⟩⟩
    · exact ⟨_, rfl, .inr ⟨_, rfl⟩⟩

theorem park_untouched (deadline : Int64) : Untouched s (s.park t k deadline) := by
  unfold State.park
  split
  · constructor <;> rfl
  · split <;> constructor <;> rfl

theorem pull_untouched (e : Exception) : Untouched s (s.pull t k e) := by
  unfold State.pull
  split <;> constructor <;> rfl

theorem takeResponse_untouched (resp : JsonRpcResponse) : Untouched s (s.takeResponse t resp) := by
  unfold State.takeResponse
  dsimp only
  split
  · constructor <;> rfl
  · split <;> constructor <;> rfl

theorem timeoutSection_untouched : Untouched s s.timeoutSection := by
  unfold State.timeoutSection
  split
  · constructor <;> rfl
  · split <;> constructor <;> rfl

end Sections

/-- The control flow of one thread, by the action that moves it. -/
inductive Flow : Action → Thread → PC → PC → Prop where
  | startClaim {t} : Flow (.startClaim t) t .idle .starting
  | startClear {t} : Flow (.startClear t) t .starting .spawningTimer
  | startTimer {t} : Flow (.startTimer t) t .spawningTimer .startingTransport
  | timerBorn {t} : Flow (.startTimer t) .timer .unborn .locking
  | startTransport {t} : Flow (.startTransport t) t .startingTransport .idle
  | nextId {t now k deadline} : Flow (.nextId t now) t .idle (.registering k deadline)
  | parked {t k deadline} : Flow (.park t) t (.registering k deadline) (.sending k)
  | refused {t k deadline e} : Flow (.park t) t (.registering k deadline) (.rejecting [k] e .idle)
  | sendOk {t k} : Flow (.sendOk t) t (.sending k) .idle
  | sendThrow {t k e} : Flow (.sendThrow t e) t (.sending k) (.pulling k e)
  | pullMissed {t k e} : Flow (.pull t) t (.pulling k e) .idle
  | pulled {t k e p} : Flow (.pull t) t (.pulling k e) (.rejecting [p] e .idle)
  | responseMissed {t resp} : Flow (.response t resp) t .idle .idle
  | response {t resp p} : Flow (.response t resp) t .idle (.resolving p resp.outcome)
  | resolve {t k outcome} : Flow (.resolve t) t (.resolving k outcome) .idle
  | reject {t k ks e next} : Flow (.reject t) t (.rejecting (k :: ks) e next) (.rejecting ks e next)
  | rejected {t e next} : Flow (.rejected t) t (.rejecting [] e next) next.pc
  | lockedExit : Flow .timerSection .timer .locking .exited
  | lockedWait {until?} : Flow .timerSection .timer .locking (.waiting until?)
  | wokenExit {until?} : Flow .timerWake .timer (.waiting until?) .exited
  | wokenWait {until? until?'} : Flow .timerWake .timer (.waiting until?) (.waiting until?')
  | expire {t now ks} :
      Flow (.timerExpire now) .timer (.waiting (some t)) (.rejecting ks timedOut .locking)
  | onClose {t ks} : Flow (.onClose t) t .idle (.rejecting ks transportClosed .storingClosed)
  | onCloseStore {t} : Flow (.onCloseStore t) t .storingClosed .firingClosed
  | onCloseFire {t cb} : Flow (.onCloseFire t) t .firingClosed (.callingClosed cb)
  | onCloseReturn {t cb} : Flow (.onCloseReturn t) t (.callingClosed cb) .idle
  | closeCall {t first} : Flow (.closeCall t) t .idle (.cancelling first)
  | closeCancel {t first ks} :
      Flow (.closeCancel t) t (.cancelling first) (.rejecting ks sessionClosed (.draining first))
  | closeDrained {t first} : Flow (.closeDrained t) t (.draining first) (.closingTransport first)
  | closeTransport {t first} : Flow (.closeTransport t) t (.closingTransport first) .notifying
  | closeNotify {t} : Flow (.closeNotify t) t .notifying .joining
  | closeReturn {t} : Flow (.closeReturn t) t .joining .idle
  | dispatch {t} : Flow (.dispatch t) t .idle .spawningWorker
  | spawn {t} : Flow (.spawn t) t .spawningWorker .idle
  | spawnThrow {t} : Flow (.spawnThrow t) t .spawningWorker .idle

/-- A step leaves a thread where it is, or moves it along the control flow. -/
theorem pc_step {opts : Options} {calls : ℕ → Call V} {s s' : State V} {a : Action}
    (hs : Step opts calls s a s') (u : Thread) :
    s'.pc u = s.pc u ∨ Flow a u (s.pc u) (s'.pc u) := by
  have hmove : ∀ {t pc}, s'.pc = Function.update s.pc t pc → Flow a t (s.pc t) pc →
      s'.pc u = s.pc u ∨ Flow a u (s.pc u) (s'.pc u) := by
    intro t pc hpc hf
    rcases eq_or_ne u t with rfl | hne
    · right
      simpa [hpc] using hf
    · left
      simp [hpc, hne]
  cases hs with
  | @startTimer t hpc htimer =>
    by_cases hut : u = t
    · subst u
      right
      simp only [setPC_pc, Function.update_self, hpc]
      exact .startTimer
    · by_cases hu : u = .timer
      · subst u
        right
        simp only [setPC_pc, Function.update_of_ne hut, Function.update_self, htimer]
        exact .timerBorn
      · left
        simp [hut, hu]
  | @park t k deadline hpc =>
    obtain ⟨pc, he, hc⟩ := park_pc s t k deadline
    apply hmove he
    rcases hc with rfl | ⟨e, rfl⟩ <;> rw [hpc] <;> constructor
  | @pull t k e hpc =>
    obtain ⟨pc, he, hc⟩ := pull_pc s t k e
    apply hmove he
    rcases hc with rfl | ⟨e, rfl⟩ <;> rw [hpc] <;> constructor
  | @response t resp hpc =>
    obtain ⟨pc, he, hc⟩ := takeResponse_pc s t resp hpc
    apply hmove he
    rcases hc with rfl | ⟨e, rfl⟩ <;> rw [hpc] <;> constructor
  | timerSection hpc | timerWake hpc =>
    obtain ⟨pc, he, hc⟩ := timeoutSection_pc s
    apply hmove he
    rcases hc with rfl | ⟨e, rfl⟩ <;> rw [hpc] <;> constructor
  | setOnClosed | workerDone _ => exact .inl rfl
  | startClaim hpc _ | closeDrained hpc _ | closeReturn hpc _ | timerExpire hpc _ =>
    apply hmove rfl
    rw [hpc]
    constructor
  | startClear hpc | startTransport hpc | nextId hpc | sendOk hpc | sendThrow hpc | resolve hpc
  | reject hpc | rejected hpc | onClose hpc | onCloseStore hpc | onCloseFire hpc
  | onCloseReturn hpc | closeCall hpc | closeCancel hpc | closeTransport hpc | closeNotify hpc
  | dispatch hpc | spawn hpc | spawnThrow hpc =>
    apply hmove rfl
    rw [hpc]
    constructor

/-- A thread that is at a stage was there before, or has moved there. -/
theorem pc_enter {opts : Options} {calls : ℕ → Call V} {s s' : State V} {a : Action} {u : Thread}
    {P : PC → Prop} (hs : Step opts calls s a s') (hu : P (s'.pc u)) :
    P (s.pc u) ∨ Flow a u (s.pc u) (s'.pc u) := by
  rcases pc_step hs u with he | hf
  · rw [he] at hu
    exact .inl hu
  · exact .inr hf

end Mcp.Session
