import Mcp.Error
import Mcp.Library.Dict

/-! The TaskStore: each operation is one section of `mu_`. -/
namespace Mcp.Tasks

inductive TaskStatus where
  | working
  | inputRequired
  | completed
  | failed
  | cancelled
  deriving DecidableEq, Repr

/-- No transition leaves these. -/
def TaskStatus.isTerminal : TaskStatus → Bool
  | .completed | .failed | .cancelled => true
  | .working | .inputRequired => false

structure Task where
  taskId : String
  status : TaskStatus
  statusMessage : Option String
  createdAt : String
  lastUpdatedAt : String
  /-- Milliseconds; unlimited when absent. -/
  ttl : Option Int64
  pollInterval : Option Int64
  deriving DecidableEq, Repr

structure Entry where
  task : Task
  result : Option Json
  error : Option String
  cancelled : Bool
  /-- Steady-clock nanoseconds. -/
  createdSteady : Int64

structure TaskStore where
  entries : Dict String Entry := ∅
  order : List String := []

/-- The sections that put something on the wire hand the StatusListener a projection. -/
abbrev Projection := Option Task

def Entry.touch (e : Entry) (status : TaskStatus) (message : Option String) (now : String) :
    Entry :=
  { e with task := { e.task with
      status := status
      lastUpdatedAt := now
      statusMessage := message.or e.task.statusMessage } }

/-- The entry that `create` files under the minted id. -/
def Entry.mint (id now : String) (steady : Int64) (ttl : Option Int64) : Entry where
  task := {
    taskId := id
    status := .working
    statusMessage := none
    createdAt := now
    lastUpdatedAt := now
    ttl := ttl
    pollInterval := some 500 }
  result := none
  error := none
  cancelled := false
  createdSteady := steady

def Entry.complete (result : Json) (now : String) (e : Entry) : Entry :=
  if e.cancelled then e.touch .cancelled (some "cancelled") now
  else { e with result := some result }.touch .completed none now

def Entry.fail (message now : String) (e : Entry) : Entry :=
  { e with error := some message }.touch .failed (some message) now

def Entry.cancel (now : String) (e : Entry) : Entry :=
  { e with cancelled := true }.touch .cancelled (some "cancelled") now

namespace TaskStore

def get (s : TaskStore) (id : String) : Option Task := (s.entries.lookup id).map Entry.task

def create (s : TaskStore) (id now : String) (steady : Int64) (ttl : Option Int64) :
    TaskStore × Task :=
  ({ entries := Dict.tryEmplace id (Entry.mint id now steady ttl) s.entries
     order := s.order ++ [id] }, (Entry.mint id now steady ttl).task)

/-- The section that `complete`, `fail` and `cancel` share: what is terminal stays as it is. -/
def settle (s : TaskStore) (id : String) (f : Entry → Entry) : TaskStore × Projection :=
  match s.entries.lookup id with
  | none => (s, none)
  | some e =>
    if e.task.status.isTerminal then (s, none)
    else ({ s with entries := s.entries.insert id (f e) }, some (f e).task)

def complete (s : TaskStore) (id : String) (result : Json) (now : String) :
    TaskStore × Projection := s.settle id (Entry.complete result now)

def fail (s : TaskStore) (id message now : String) : TaskStore × Projection :=
  s.settle id (Entry.fail message now)

def cancel (s : TaskStore) (id now : String) : TaskStore × Projection :=
  s.settle id (Entry.cancel now)

/-- What `cancel` returns: the task as it is afterwards, cancelled or not. -/
def cancelReturns (s : TaskStore) (id now : String) : Option Task := (s.cancel id now).1.get id

/-- Terminal, with a ttl, and at least that old. -/
def expired (now : Int64) (e : Entry) : Bool :=
  e.task.status.isTerminal && e.task.ttl.any (fun ttl => ttl ≤ (now - e.createdSteady) / 1000000)

def gcExpired (s : TaskStore) (now : Int64) : TaskStore × ℕ :=
  ({ entries := Dict.filter (fun _ e => !expired now e) s.entries
     order := s.order.filter (fun id => !(s.entries.lookup id).any (expired now)) },
    (Dict.list (Dict.filter (fun _ e => expired now e) s.entries)).length)

structure ListTasksResult where
  tasks : List Task
  nextCursor : Option String

def isDigit (c : Char) : Bool := '0' ≤ c && c ≤ '9'

/-- The value of a string of digits. -/
def decimal (s : String) : ℕ := s.toList.foldl (fun n c => n * 10 + (c.toNat - '0'.toNat)) 0

def invalidCursor (s : String) : Except Exception ℕ :=
  raise ErrorCode.invalidParams ("invalid pagination cursor: " ++ s)

def decodeCursor : Option String → Except Exception ℕ
  | none => .ok 0
  | some s =>
    if s.isEmpty then .ok 0
    else if !s.toList.all isDigit then invalidCursor s
    -- std::stoull
    else if decimal s < 2 ^ 64 then .ok (decimal s)
    else invalidCursor s

def list (s : TaskStore) (cursor : Option String) (pageSize : UInt64) :
    Except Exception ListTasksResult := do
  let offset ← decodeCursor cursor
  if s.order.length ≤ offset then return ⟨[], none⟩
  let stop := if pageSize = 0 then s.order.length
    else min s.order.length ((offset + pageSize.toNat) % 2 ^ 64)
  -- reserve(end - offset) after the sum has wrapped
  if stop < offset then throw (.std "vector::reserve")
  return {
    tasks := ((s.order.drop offset).take (stop - offset)).filterMap s.get
    nextCursor := if stop < s.order.length then some (toString stop) else none }

/-- What `wait_result` gives once its wait is over; none when it ran out of time. -/
def waitResult (s : TaskStore) (id : String) (shuttingDown : Bool) :
    Except Exception (Option Json) :=
  match s.entries.lookup id with
  | none => raise ErrorCode.invalidRequest ("task not found: " ++ id)
  | some e =>
    match e.task.status with
    | .completed =>
      match e.result with
      | some result => .ok (some result)
      | none => raise ErrorCode.internalError "task completed without a result payload"
    | .failed =>
      raise ErrorCode.internalError ("task failed: " ++ e.error.getD "<no message>")
    | .cancelled => raise ErrorCode.invalidRequest ("task cancelled: " ++ id)
    | .working | .inputRequired =>
      if shuttingDown then
        raise ErrorCode.internalError "server shutting down before task completed"
      else .ok none

end TaskStore

def TaskStatus.toJson : TaskStatus → Json
  | .working => .of "working"
  | .inputRequired => .of "input_required"
  | .completed => .of "completed"
  | .failed => .of "failed"
  | .cancelled => .of "cancelled"

instance : ToJson TaskStatus := ⟨TaskStatus.toJson⟩

def taskStatusFromString (v : String) : Except Exception TaskStatus :=
  if v = "working" then .ok .working
  else if v = "input_required" then .ok .inputRequired
  else if v = "completed" then .ok .completed
  else if v = "failed" then .ok .failed
  else if v = "cancelled" then .ok .cancelled
  else raise ErrorCode.invalidParams ("task: unknown status \"" ++ v ++ "\"")

instance : FromJson TaskStatus := ⟨fun j => do taskStatusFromString (← j.get String)⟩

def Task.toJson (t : Task) : Json :=
  let j := Json.emptyObject
  let j := j.set "taskId" (.of t.taskId)
  let j := j.set "status" (.of t.status)
  let j := j.set "createdAt" (.of t.createdAt)
  let j := j.set "lastUpdatedAt" (.of t.lastUpdatedAt)
  let j := putOptional j "statusMessage" t.statusMessage
  let j := putOptional j "ttl" t.ttl
  putOptional j "pollInterval" t.pollInterval

instance : ToJson Task := ⟨Task.toJson⟩

def Task.fromJson (j : Json) : Except Exception Task := do
  let taskId ← require String j "taskId"
  let status ← getAt TaskStatus j "status"
  let createdAt ← require String j "createdAt"
  let lastUpdatedAt ← require String j "lastUpdatedAt"
  let statusMessage ← takeOptional String j "statusMessage"
  let ttl ← takeOptional Int64 j "ttl"
  let pollInterval ← takeOptional Int64 j "pollInterval"
  return { taskId, status, statusMessage, createdAt, lastUpdatedAt, ttl, pollInterval }

instance : FromJson Task := ⟨Task.fromJson⟩

/-- What a task-augmented call returns at once. -/
structure CreateTaskResult where
  task : Task

def CreateTaskResult.toJson (r : CreateTaskResult) : Json :=
  Json.emptyObject.set "task" (.of r.task)

instance : ToJson CreateTaskResult := ⟨CreateTaskResult.toJson⟩

def TaskStore.ListTasksResult.toJson (r : TaskStore.ListTasksResult) : Json :=
  let j := Json.emptyObject
  let j := j.set "tasks" (.of r.tasks)
  putOptional j "nextCursor" r.nextCursor

instance : ToJson TaskStore.ListTasksResult := ⟨TaskStore.ListTasksResult.toJson⟩

def TaskStore.ListTasksResult.fromJson (j : Json) :
    Except Exception TaskStore.ListTasksResult := do
  let tasks ← getAt (List Task) j "tasks"
  let nextCursor ← takeOptional String j "nextCursor"
  return { tasks, nextCursor }

instance : FromJson TaskStore.ListTasksResult := ⟨TaskStore.ListTasksResult.fromJson⟩

variable {s : TaskStore} {id : String} {e e' : Entry} {f : Entry → Entry}

theorem settle_open (h : s.entries.lookup id = some e) (ho : e.task.status.isTerminal = false) :
    s.settle id f = ({ s with entries := s.entries.insert id (f e) }, some (f e).task) := by
  simp [TaskStore.settle, h, ho]

theorem settle_terminal (h : s.entries.lookup id = some e)
    (ht : e.task.status.isTerminal = true) : s.settle id f = (s, none) := by
  simp [TaskStore.settle, h, ht]

theorem settle_lookup_ne {id' : String} (hne : id' ≠ id) :
    (s.settle id f).1.entries.lookup id' = s.entries.lookup id' := by
  unfold TaskStore.settle
  split
  · rfl
  · split
    · rfl
    · exact AList.lookup_insert_ne hne

theorem settle_lookup (h : (s.settle id f).1.entries.lookup id = some e') :
    s.entries.lookup id = some e' ∨
      ∃ e, s.entries.lookup id = some e ∧ e.task.status.isTerminal = false ∧ e' = f e := by
  cases hl : s.entries.lookup id with
  | none =>
    simp [TaskStore.settle, hl] at h
  | some e =>
    cases ht : e.task.status.isTerminal with
    | true =>
      rw [settle_terminal hl ht] at h
      exact .inl (hl.symm.trans h)
    | false =>
      rw [settle_open hl ht] at h
      right
      refine ⟨e, rfl, ht, ?_⟩
      simpa using h.symm

theorem order_settle (id : String) (f : Entry → Entry) : (s.settle id f).1.order = s.order := by
  unfold TaskStore.settle
  split
  · rfl
  · split <;> rfl

theorem mem_settle {i : String} (f : Entry → Entry) :
    id ∈ (s.settle i f).1.entries ↔ id ∈ s.entries := by
  unfold TaskStore.settle
  split
  · rfl
  · next e he =>
    split
    · rfl
    · rw [AList.mem_insert]
      constructor
      · rintro (rfl | h)
        · exact AList.lookup_isSome.mp (by rw [he]; rfl)
        · exact h
      · exact .inr

end Mcp.Tasks
