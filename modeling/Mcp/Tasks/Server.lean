import Mcp.Library.Transition
import Mcp.Tasks.Store

/-! Task-augmented calls and their workers over one TaskStore. One step is one section of a mutex,
one call of the StatusListener, or the start of a worker. -/
namespace Mcp.Tasks

open Transition

/-- Where a thread goes on once the listener has returned. -/
inductive After where
  | idle
  | starting (id : String)
  | finishing

/-- What a thread does next. -/
inductive PC where
  | idle
  -- handle_call_tool
  | checked
  | notifying (p : Task) (next : After)
  | starting (id : String)
  | spawning (id : String)
  -- the detached worker
  | working (id : String)
  | finishing

def After.pc : After → PC
  | .idle => .idle
  | .starting id => .starting id
  | .finishing => .finishing

structure State where
  store : TaskStore
  workersInflight : ℕ
  pc : ℕ → PC
  /-- What the StatusListener has been given, in order. -/
  sent : List Task

def fresh : State where
  store := {}
  workersInflight := 0
  pc _ := .idle
  sent := []

def State.setPC (s : State) (t : ℕ) (pc : PC) : State := { s with pc := Function.update s.pc t pc }

/-- The end of a section that may have a projection for the listener. -/
def State.commit (s : State) (t : ℕ) (r : TaskStore × Projection) (next : After) : State :=
  { s with store := r.1 }.setPC t (match r.2 with
    | none => next.pc
    | some p => .notifying p next)

/-- Who calls `complete`, `fail` or `cancel` on `id`: any thread, or the worker of the task. -/
inductive Calls (id : String) : PC → After → Prop where
  | client : Calls id .idle .idle
  | worker : Calls id (.working id) .finishing

inductive Action where
  | refuse (t : ℕ)
  | check (t : ℕ)
  | create (t : ℕ) (id now : String) (steady : Int64) (ttl : Option Int64)
  | notify (t : ℕ)
  | started (t : ℕ)
  | spawn (t u : ℕ)
  | spawnThrow (t : ℕ)
  | complete (t : ℕ) (id : String) (result : Json) (now : String)
  | fail (t : ℕ) (id message now : String)
  | cancel (t : ℕ) (id now : String)
  | get (t : ℕ) (id : String)
  | list (t : ℕ) (cursor : Option String) (pageSize : UInt64)
  | finished (t : ℕ)

/-- `cap` is `tasks_max_concurrent_`; 0 means no cap. -/
inductive Step (cap : ℕ) : State → Action → State → Prop where
  | refuse {s t} : s.pc t = .idle → 0 < cap → cap ≤ s.workersInflight →
      Step cap s (.refuse t) s
  | check {s t} : s.pc t = .idle → cap = 0 ∨ s.workersInflight < cap →
      Step cap s (.check t) (s.setPC t .checked)
  -- mint_task_id repeats no id
  | create {s t id now steady ttl} : s.pc t = .checked → id ∉ s.store.entries →
      Step cap s (.create t id now steady ttl)
        ({ s with store := (s.store.create id now steady ttl).1 }.setPC t
          (.notifying (s.store.create id now steady ttl).2 (.starting id)))
  | notify {s t p next} : s.pc t = .notifying p next →
      Step cap s (.notify t) ({ s with sent := s.sent ++ [p] }.setPC t next.pc)
  | started {s t id} : s.pc t = .starting id →
      Step cap s (.started t)
        ({ s with workersInflight := s.workersInflight + 1 }.setPC t (.spawning id))
  | spawn {s t u id} : s.pc t = .spawning id → s.pc u = .idle →
      Step cap s (.spawn t u) ((s.setPC u (.working id)).setPC t .idle)
  | spawnThrow {s t id} : s.pc t = .spawning id → Step cap s (.spawnThrow t) (s.setPC t .idle)
  | complete {s t id result now next} : Calls id (s.pc t) next →
      Step cap s (.complete t id result now) (s.commit t (s.store.complete id result now) next)
  | fail {s t id message now next} : Calls id (s.pc t) next →
      Step cap s (.fail t id message now) (s.commit t (s.store.fail id message now) next)
  | cancel {s t id now next} : Calls id (s.pc t) next →
      Step cap s (.cancel t id now) (s.commit t (s.store.cancel id now) next)
  | get {s t id} : s.pc t = .idle → Step cap s (.get t id) s
  | list {s t cursor pageSize} : s.pc t = .idle → Step cap s (.list t cursor pageSize) s
  | finished {s t} : s.pc t = .finishing →
      Step cap s (.finished t)
        ({ s with workersInflight := s.workersInflight - 1 }.setPC t .idle)

def machine (cap : ℕ) : System State Action where
  Initial s := s = fresh
  Step := Step cap

theorem reachable_step {cap : ℕ} {ok : State → Action → Prop} {s s' : State} {a : Action}
    (h : (machine cap).Reachable ok s) (ha : ok s a) (hs : Step cap s a s') :
    (machine cap).Reachable ok s' := h.step ha hs

@[simp] theorem setPC_pc (s : State) (t : ℕ) (pc : PC) :
    (s.setPC t pc).pc = Function.update s.pc t pc := rfl

/-- A step that moves one thread brings another thread nowhere. -/
theorem of_update {P : PC → Prop} {s s' : State} {t u : ℕ} {pc : PC}
    (hpc : s'.pc = Function.update s.pc t pc) (ht : P pc → P (s.pc t)) (hu : P (s'.pc u)) :
    P (s.pc u) := by
  rcases eq_or_ne u t with rfl | hne
  · apply ht
    simpa [hpc] using hu
  · simpa [hpc, hne] using hu

end Mcp.Tasks
