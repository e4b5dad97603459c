import Mcp.Server.Handlers

/-! One call of `run`: the requests of its Session on their workers, and the task workers that
they start. -/
namespace Mcp.Server

open Tasks Threads

/-- What the handlers' operations work on. -/
structure Services where
  registry : Registry
  logLevel : LoggingLevel
  store : TaskStore
  workersInflight : ℕ
  /-- Task workers created and not yet running. -/
  spawned : List TaskWork

/-- What a thread has been started for. -/
inductive Job where
  | request (req : JsonRpcRequest)
  | task (w : TaskWork)

/-- Calls of a user's handler and of the TaskStore, and the start of a worker that makes such
calls. -/
def Op.isInvocation : Op → Bool
  | .loadInitialized | .read | .storeLogLevel _ | .respond _ => false
  | _ => true

inductive Event where
  | accepted (t : ℕ)
  | invoked (t : ℕ) (o : Op)
  | answered (t : ℕ) (r : JsonRpcResponse)

def Op.events (t : ℕ) (o : Op) : List Event :=
  match o with
  | .respond r => [.answered t r]
  | o => if o.isInvocation then [.invoked t o] else []

structure State where
  initialized : Bool
  clientCapabilities : Option ClientCapabilities
  services : Services
  jobs : ℕ → Option Job
  /-- The latest event first. -/
  history : List Event

/-- What an operation answers, and what it leaves behind. A user's handler may do anything. -/
def serve (initialized : Bool) (s : Services) : (o : Op) → o.Ans → Services → Prop
  | .loadInitialized, x, u => x = initialized ∧ u = s
  | .read, x, u => x = s.registry ∧ u = s
  | .storeLogLevel level, _, u => u = { s with logLevel := level }
  | .callTool _ _, _, u => u = s
  | .readResource _, _, u => u = s
  | .getPrompt _ _, _, u => u = s
  | .complete _, _, u => u = s
  | .workersInflight, x, u => x = s.workersInflight ∧ u = s
  | .createTask ttl, x, u => ∃ id now steady, id ∉ s.store.entries ∧
      x = (s.store.create id now steady ttl).2 ∧
      u = { s with store := (s.store.create id now steady ttl).1 }
  | .workerStarted, _, u => u = { s with workersInflight := s.workersInflight + 1 }
  | .spawn w, x, u => (x = .ok () ∧ u = { s with spawned := s.spawned ++ [w] }) ∨
      ∃ what, x = .error (.std what) ∧ u = s
  | .getTask id, x, u => x = s.store.get id ∧ u = s
  | .waitResult id, x, u => (∃ shuttingDown, x = s.store.waitResult id shuttingDown) ∧ u = s
  | .listTasks cursor pageSize, x, u => x = s.store.list cursor pageSize ∧ u = s
  | .cancelTask id, x, u => ∃ now, x = s.store.cancelReturns id now ∧
      u = { s with store := (s.store.cancel id now).1 }
  | .completeTask id result, _, u => ∃ now,
      u = { s with store := (s.store.complete id result now).1 }
  | .failTask id message, _, u => ∃ now, u = { s with store := (s.store.fail id message now).1 }
  | .workerFinished, _, u => u = { s with workersInflight := s.workersInflight - 1 }
  | .respond _, _, u => u = s

def performs (s : State) (t : ℕ) : (o : ServerOp) → ServerOp.Ans o → State → Prop
  | .inl o, x, u => ∃ services, serve s.initialized s.services o x services ∧
      u = { s with services, history := o.events t ++ s.history }
  | .inr .claimInitialized, x, u => x = !s.initialized ∧
      u = if s.initialized then s
        else { s with initialized := true, history := .accepted t :: s.history }
  | .inr (.storeCapabilities c), _, u => u = { s with clientCapabilities := some c }

section Run

variable (jsonWhat : JsonException → String) (cfg : Settings)

/-- A request comes in, or a task worker begins. -/
inductive Starts : State → ℕ → Program ServerOp ServerOp.Ans Unit → State → Prop where
  | request {s : State} {t} (req : JsonRpcRequest) : s.jobs t = none →
      Starts s t (serveRequest jsonWhat cfg req)
        { s with jobs := Function.update s.jobs t (some (.request req)) }
  | task {s : State} {t pre w post} : s.jobs t = none → s.services.spawned = pre ++ w :: post →
      Starts s t (taskWorker jsonWhat w).embed
        { s with
          services := { s.services with spawned := pre ++ post }
          jobs := Function.update s.jobs t (some (.task w)) }

/-- From outside, anything may be registered at any time. -/
def rules : Rules State ServerOp ServerOp.Ans Unit where
  start := Starts jsonWhat cfg
  perform := performs
  finish s _ _ u := u = s
  other s u := ∃ registry, u = { s with services := { s.services with registry } }

/-- `run` has stored `initialized_ = false`; the client capabilities are what they were. -/
def AtStart (s : State) : Prop :=
  s.initialized = false ∧ s.services.spawned = [] ∧ (∀ t, s.jobs t = none) ∧ s.history = []

def server : Transition.System (Pool State ServerOp ServerOp.Ans Unit) Action :=
  machine (rules jsonWhat cfg) AtStart

end Run

end Mcp.Server
