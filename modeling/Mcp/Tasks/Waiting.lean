import Mcp.Library.Monitor
import Mcp.Tasks.StateMachine

/-! Who blocks in `wait_result` or `shutdown`, and who notifies them. -/
namespace Mcp.Tasks

open Transition

/-- What `mu_` and `workers_mu_` guard. -/
structure Guarded where
  store : TaskStore := {}
  shuttingDown : Bool := false
  workersInflight : ℕ := 0

/-- `cv_` and `workers_cv_`. -/
inductive Cv where
  | tasks
  | workers
  deriving DecidableEq

/-- The predicates of the two waits. -/
inductive Awaited where
  /-- `wait_result` -/
  | settled (id : String)
  /-- `shutdown` -/
  | drained
  deriving DecidableEq

inductive Section where
  | store (op : Op)
  | workerStarted
  | workerFinished
  | shutDown

namespace Guarded

def run (s : Guarded) : Section → Guarded
  | .store op => { s with store := (op.run s.store).1 }
  | .workerStarted => { s with workersInflight := s.workersInflight + 1 }
  | .workerFinished => { s with workersInflight := s.workersInflight - 1 }
  | .shutDown => { s with shuttingDown := true }

/-- `worker_finished` notifies under the lock. -/
def notifiesInside (s : Guarded) : Section → Option Cv
  | .workerFinished => if s.workersInflight - 1 = 0 then some .workers else none
  | .store _ | .workerStarted | .shutDown => none

/-- A section that has settled a task is followed by `notify_all`; `create` and `gc_expired` are
not. -/
def notifiesAfter (s : Guarded) : Section → Option Cv
  | .store (.complete id result now) => (s.store.complete id result now).2.map fun _ => .tasks
  | .store (.fail id message now) => (s.store.fail id message now).2.map fun _ => .tasks
  | .store (.cancel id now) => (s.store.cancel id now).2.map fun _ => .tasks
  | .shutDown => some .tasks
  | .store (.create ..) | .store (.gcExpired _) | .store (.get _) | .store (.list ..)
  | .workerStarted | .workerFinished => none

def ready (s : Guarded) : Awaited → Bool
  | .settled id =>
    match s.store.entries.lookup id with
    | none => true
    | some e => e.task.status.isTerminal || s.shuttingDown
  | .drained => s.workersInflight == 0

end Guarded

/-- Threads that call the store, unboundedly many. -/
def storeMonitor : Monitor Guarded Section Cv Awaited where
  start := {}
  run := Guarded.run
  inside := Guarded.notifiesInside
  after := Guarded.notifiesAfter
  cv
    | .settled _ => .tasks
    | .drained => .workers
  ready w s := s.ready w
  timed
    | .settled _ => true
    | .drained => false

abbrev Threads := Monitor.State Guarded Cv Awaited

abbrev Move := Monitor.Action Section Awaited

variable {s : Guarded} {id : String} {e : Entry} {op : Op} {f : Entry → Entry}

theorem notifiesAfter_settler (h : op.settler id = some f) :
    s.notifiesAfter (.store op) = (op.run s.store).2.map fun _ => .tasks := by
  cases op with
  | complete _ _ _ | fail _ _ _ | cancel _ _ => rfl
  | create _ _ _ _ | gcExpired _ | get _ | list _ _ => cases h

theorem ready_settled_of_lookup (h : s.store.entries.lookup id = some e) :
    s.ready (.settled id) = (e.task.status.isTerminal || s.shuttingDown) := by
  simp [Guarded.ready, h]

theorem not_ready_settled (h : ¬s.ready (.settled id)) : s.shuttingDown = false ∧
    ∃ e, s.store.entries.lookup id = some e ∧ e.task.status.isTerminal = false := by
  cases hl : s.store.entries.lookup id with
  | none => simp [Guarded.ready, hl] at h
  | some e =>
    rw [ready_settled_of_lookup hl, Bool.or_eq_true, not_or] at h
    exact ⟨by simpa using h.2, e, rfl, by simpa using h.1⟩

/-- An open task is settled only by a section that notifies. -/
theorem store_announces (hnot : ¬s.ready (.settled id))
    (hready : (s.run (.store op)).ready (.settled id)) :
    s.notifiesAfter (.store op) = some .tasks := by
  obtain ⟨hshut, e, he, hopen⟩ := not_ready_settled hnot
  cases hf : op.settler id with
  | some f => rw [notifiesAfter_settler hf, run_of_settler hf, settle_open he hopen]; rfl
  | none =>
    have he' : (s.run (.store op)).store.entries.lookup id = some e := open_step he hopen hf
    rw [ready_settled_of_lookup he'] at hready
    simp [Guarded.run, hopen, hshut] at hready

theorem storeMonitor_announces : storeMonitor.Announces := by
  intro w s op hnot hready
  cases w with
  | settled id =>
    cases op with
    | store op => exact .inr (store_announces hnot hready)
    | shutDown => exact .inr rfl
    | workerStarted | workerFinished => exact absurd hready hnot
  | drained =>
    cases op with
    | workerFinished =>
      left
      have hzero : s.workersInflight - 1 = 0 := by
        simpa [storeMonitor, Guarded.ready, Guarded.run] using hready
      exact if_pos hzero
    | workerStarted =>
      simp [storeMonitor, Guarded.ready, Guarded.run] at hready
    | store _ | shutDown => exact absurd hready hnot

/-- What `wait_result` comes to with what it saw last. -/
def Guarded.answer (s : Guarded) (id : String) : Except Exception (Option Json) :=
  s.store.waitResult id s.shuttingDown

def Guarded.Settled (s : Guarded) (id : String) : Prop :=
  ∃ e, s.store.entries.lookup id = some e ∧ e.task.status.isTerminal = true

/-- No sweep takes the task with it. -/
def Keeps (id : String) (s : Threads) : Move → Prop
  | .run _ op => id ∈ s.shared.store.entries → id ∈ (s.shared.run op).store.entries
  | _ => True

variable {s' : Guarded} {S S' : Threads} {a : Move} {t n : ℕ} {w : Awaited}
  {E : Execution Threads Move}

/-- What a settled task is answered with does not depend on the shutdown. -/
theorem answer_eq (h : s.store.entries.lookup id = some e)
    (h' : s'.store.entries.lookup id = some e) (ht : e.task.status.isTerminal = true) :
    s'.answer id = s.answer id := by
  unfold Guarded.answer TaskStore.waitResult
  rw [h, h']
  cases hstatus : e.task.status with
  | completed | failed | cancelled => simp [hstatus]
  | working | inputRequired => simp [hstatus, TaskStatus.isTerminal] at ht

/-- Only who ran out of time is told nothing. -/
theorem answer_ne_none (h : s.shuttingDown = true) : s.answer id ≠ .ok none := by
  unfold Guarded.answer TaskStore.waitResult
  cases hl : s.store.entries.lookup id with
  | none => simp [raise]
  | some e =>
    cases hstatus : e.task.status with
    | completed => cases hr : e.result <;> simp [hstatus, hr, raise]
    | failed | cancelled => simp [hstatus, raise]
    | working | inputRequired => simp [hstatus, h, raise]

theorem ready_of_settled (h : s.Settled id) : s.ready (.settled id) = true := by
  obtain ⟨e, he, ht⟩ := h
  rw [ready_settled_of_lookup he, ht, Bool.true_or]

theorem ready_of_shuttingDown (h : s.shuttingDown = true) : s.ready (.settled id) = true := by
  cases hl : s.store.entries.lookup id with
  | none => simp [Guarded.ready, hl]
  | some e => rw [ready_settled_of_lookup hl, h, Bool.or_true]

theorem lookup_run {o : Section} (he : s.store.entries.lookup id = some e)
    (ht : e.task.status.isTerminal = true) (hin : id ∈ (s.run o).store.entries) :
    (s.run o).store.entries.lookup id = some e := by
  cases o with
  | store op => exact frozen_step he ht hin
  | workerStarted | workerFinished | shutDown => exact he

/-- A settled task is as it was after each step that keeps it. -/
theorem lookup_step (hs : storeMonitor.Step S a S') (he : S.shared.store.entries.lookup id = some e)
    (ht : e.task.status.isTerminal = true) (hin : id ∈ S'.shared.store.entries) :
    S'.shared.store.entries.lookup id = some e := by
  rcases Monitor.shared_step hs with h | ⟨t, o, -, h⟩ <;> rw [h] at hin ⊢
  · exact he
  · exact lookup_run he ht hin

theorem shuttingDown_step (hs : storeMonitor.Step S a S') (h : S.shared.shuttingDown = true) :
    S'.shared.shuttingDown = true := by
  rcases Monitor.shared_step hs with heq | ⟨t, o, -, heq⟩ <;> rw [heq]
  · exact h
  · cases o <;> first | exact h | rfl

/-- Answers about a settled task that are still held. -/
def Consistent (id : String) (S : Threads) : Prop :=
  ∀ t seen e, S.pc t = .returned (.settled id) seen → seen.store.entries.lookup id = some e →
    e.task.status.isTerminal = true → S.shared.store.entries.lookup id = some e

theorem consistent_step (hs : storeMonitor.Step S a S') (hok : Keeps id S a)
    (h : Consistent id S) : Consistent id S' := by
  intro t seen e hpc he ht
  rcases Monitor.seen_step hs hpc with hold | ⟨rfl, hsame⟩
  · have hl := h t seen e hold he ht
    rcases Monitor.shared_step hs with heq | ⟨u, o, rfl, heq⟩ <;> rw [heq]
    · exact hl
    · exact lookup_run hl ht (hok (Dict.mem_iff_lookup.mpr ⟨e, hl⟩))
  · rwa [hsame]

/-- Nobody sleeps on in `wait_result` once its task is settled, or in `shutdown` once the workers
have finished, unless a `notify_all` is still to come. Who has been answered about a settled task
has the answer that any other gets who asks. -/
theorem waiters_agree (h : storeMonitor.system.Reachable Free S) :
    (∀ t w, S.pc t = .asleep w → S.shared.ready w = true →
      ∃ u, S.pc u = .owing (storeMonitor.cv w)) ∧
    (storeMonitor.system.Reachable (Keeps id) S →
      ∀ t seen, S.pc t = .returned (.settled id) seen → seen.Settled id →
        seen.answer id = S.shared.answer id ∧
        ∀ u seen', S.pc u = .returned (.settled id) seen' → seen'.Settled id →
          seen'.answer id = seen.answer id) := by
  refine ⟨Monitor.owed_reachable storeMonitor_announces h, fun hkeeps t seen ht hset => ?_⟩
  have hconsistent : Consistent id S := by
    refine hkeeps.invariant (P := Consistent id) ?_ fun _ _ _ _ hp hok hs =>
      consistent_step hs hok hp
    rintro s rfl t seen e ⟨⟩
  have hnow : ∀ t seen, S.pc t = .returned (.settled id) seen → seen.Settled id →
      seen.answer id = S.shared.answer id := by
    rintro t seen ht ⟨e, he, hterminal⟩
    exact answer_eq (hconsistent t seen e ht he hterminal) he hterminal
  refine ⟨hnow t seen ht hset, fun u seen' hu hset' => ?_⟩
  rw [hnow t seen ht hset, hnow u seen' hu hset']

theorem workersInflight_step (hs : storeMonitor.Step S a S')
    (ha : ∀ t, a ≠ .run t .workerStarted) :
    S'.shared.workersInflight ≤ S.shared.workersInflight := by
  rcases Monitor.shared_step hs with heq | ⟨t, o, rfl, heq⟩ <;> rw [heq]
  cases o with
  | workerStarted => exact absurd rfl (ha t)
  | workerFinished => exact Nat.sub_le _ _
  | store _ | shutDown => exact le_rfl

/-- An open task. -/
def working : Guarded := ({} : Guarded).run (.store (.create "a" "t0" 0 none))

/-- One thread is about to notify the other. -/
def unannounced (s : Guarded) : Threads where
  shared := s
  pc
    | 0 => .owing .tasks
    | 1 => .asleep (.settled "a")
    | _ => .idle

theorem unannounced_reachable {o : Section} (hafter : working.notifiesAfter o = some .tasks)
    (hinside : working.notifiesInside o = none) (hin : "a" ∈ (working.run o).store.entries) :
    storeMonitor.system.Reachable (Keeps "a") (unannounced (working.run o)) := by
  have h₀ : storeMonitor.system.Reachable (Keeps "a") ⟨{}, fun _ => .idle⟩ := .initial rfl
  have h₁ := Monitor.reachable_step (a := .run 0 (.store (.create "a" "t0" 0 none))) h₀ nofun
    (.run _ rfl)
  have h₂ := Monitor.reachable_step (a := .sleep 1 (.settled "a")) h₁ trivial
    (.sleep rfl (by decide))
  have h₃ := Monitor.reachable_step (a := .run 0 o) h₂ (fun _ => hin) (.run _ rfl)
  convert h₃ using 1
  refine congrArg₂ Monitor.State.mk rfl (funext fun t => ?_)
  rcases t with _ | _ | t
  · exact (congrArg Monitor.PC.afterwards hafter).symm
  · change _ = Monitor.PC.notified storeMonitor.cv (working.notifiesInside o) (.asleep _)
    rw [hinside]
    rfl
  · rfl

/-- The first thread to ask has slept until the task was settled, the second has not. -/
theorem two_ask : ∃ S : Threads, ∃ seen, S.pc 1 = .returned (.settled "a") seen ∧
    ∀ u seen', S.pc u = .returned (.settled "a") seen' → seen'.Settled "a" →
      seen'.answer "a" = seen.answer "a" := by
  have h₀ := unannounced_reachable (o := .store (.complete "a" .null "t1")) rfl rfl (by decide)
  have h₁ := Monitor.reachable_step (a := .notify 0) h₀ trivial (.notify rfl)
  have h₂ := Monitor.reachable_step (a := .leave 1) h₁ trivial (.leave rfl (by decide))
  have h₃ := Monitor.reachable_step (a := .pass 2 (.settled "a")) h₂ trivial
    (.pass rfl (by decide))
  exact ⟨_, _, rfl, ((waiters_agree h₃.free).2 h₃ 1 _ rfl ⟨_, rfl, rfl⟩).2⟩

/-- The notification, the return of the other thread, and nothing more. -/
def announcing (s : Guarded) : Execution Threads Move :=
  let S := ((unannounced s).notifyAll storeMonitor.cv (some .tasks)).setPC 0 .idle
  .cons (unannounced s) (.notify 0)
    (.cons S (.leave 1) (.still (S.setPC 1 (.returned (.settled "a") s))))

theorem announcing_valid (h : s.ready (.settled "a") = true) :
    (announcing s).Valid storeMonitor.system Free := by
  have hlast : (Execution.still ((((unannounced s).notifyAll storeMonitor.cv
      (some .tasks)).setPC 0 .idle).setPC 1 (.returned (.settled "a") s))).Valid
      storeMonitor.system Free := Execution.valid_still _
  exact (hlast.cons trivial (Monitor.Step.leave rfl h)).cons trivial (Monitor.Step.notify rfl)

theorem announcing_fair (t : ℕ) (w : Awaited) :
    (announcing s).Fair storeMonitor.system Free (storeMonitor.Due t w) := by
  refine (Execution.fair_still fun a hdue => ?_).cons.cons
  rcases hdue with ⟨ht, -⟩ | ⟨ht, -⟩ <;> rcases t with _ | _ | t <;> cases ht

section Fair

variable (hE : E.Valid storeMonitor.system Free)
  (h0 : storeMonitor.system.Reachable Free (E.state 0))

include hE h0

/-- Once a task is settled, whoever waits for it gets its answer, if it is not swept and the
scheduler does not starve him. -/
theorem settled_task_answers
    (hfair : E.Fair storeMonitor.system Free (storeMonitor.Due t (.settled id)))
    (hset : (E.state n).shared.Settled id)
    (hstay : ∀ m, n ≤ m → id ∈ (E.state m).shared.store.entries)
    (hw : ((E.state n).pc t).waits (.settled id)) :
    ∃ m seen, n ≤ m ∧ (E.state m).pc t = .returned (.settled id) seen ∧
      seen.answer id = (E.state n).shared.answer id := by
  obtain ⟨e, he, ht⟩ := hset
  have hfrozen : ∀ m, n ≤ m → (E.state m).shared.store.entries.lookup id = some e := by
    intro m hm
    induction m, hm using Nat.le_induction with
    | base => exact he
    | succ m hm ih =>
      rcases hE.next m with heq | ⟨a, -, hs⟩
      · rwa [heq]
      · exact lookup_step hs ih ht (hstay (m + 1) (Nat.le_succ_of_le hm))
  have howed := Monitor.owed_reachable storeMonitor_announces h0
  obtain ⟨m, hm, hpc, -⟩ := Monitor.returns storeMonitor_announces hE howed hfair hw
    fun m hm => ready_of_settled ⟨e, hfrozen m hm, ht⟩
  exact ⟨m + 1, _, Nat.le_succ_of_le hm, hpc, answer_eq he (hfrozen m hm) ht⟩

/-- A shutdown releases everybody who waits for a task, none of them as if his time had run out; and
it comes to its end itself once the workers have finished and no more are started. -/
theorem shutdown_ends_waits
    (hfair : ∀ t w, E.Fair storeMonitor.system Free (storeMonitor.Due t w))
    (hshut : (E.state n).shared.shuttingDown = true) :
    (∀ t id, ((E.state n).pc t).waits (.settled id) → ∃ m seen, n ≤ m ∧
      (E.state m).pc t = .returned (.settled id) seen ∧ seen.answer id ≠ .ok none) ∧
    ((∀ m t, n ≤ m → E.event m ≠ some (.run t .workerStarted)) →
      (∃ m, n ≤ m ∧ (E.state m).shared.workersInflight = 0) →
      ∀ t k, ((E.state k).pc t).waits .drained → ∃ m seen, k ≤ m ∧
        (E.state m).pc t = .returned .drained seen ∧ seen.workersInflight = 0) := by
  have howed := Monitor.owed_reachable storeMonitor_announces h0
  constructor
  · intro t id hw
    have hshut' : ∀ m, n ≤ m → (E.state m).shared.shuttingDown = true := fun m hm =>
      (hE.run hm).invariant (fun _ _ _ hp _ hs => shuttingDown_step hs hp) hshut
    obtain ⟨m, hm, hpc, -⟩ := Monitor.returns storeMonitor_announces hE howed (hfair t _) hw
      fun m hm => ready_of_shuttingDown (hshut' m hm)
    exact ⟨m + 1, _, Nat.le_succ_of_le hm, hpc, answer_ne_none (hshut' m hm)⟩
  · rintro hstart ⟨m₀, hm₀, hzero⟩ t k hw
    have hdrained : ∀ m, m₀ ≤ m → (E.state m).shared.workersInflight = 0 := by
      intro m hm
      induction m, hm using Nat.le_induction with
      | base => exact hzero
      | succ m hm ih =>
        cases he : E.event m with
        | none => rwa [hE.idle he]
        | some a =>
          have hle := workersInflight_step (hE.step he).2 fun t ha =>
            hstart m t (hm₀.trans hm) (by rw [he, ha])
          omega
    obtain ⟨m, hm, hpc, hready⟩ := Monitor.returns storeMonitor_announces hE howed (hfair t _) hw
      fun m hm => beq_iff_eq.mpr (hdrained m hm)
    exact ⟨m + 1, _, Nat.le_succ_of_le hm, hpc, beq_iff_eq.mp (hready Bool.false_ne_true)⟩

end Fair

theorem sleeper_is_answered : ∃ m seen,
    ((announcing (working.run (.store (.complete "a" .null "t1")))).state m).pc 1 =
      .returned (.settled "a") seen ∧ seen.answer "a" = .ok (some .null) := by
  have hreach := unannounced_reachable (o := .store (.complete "a" .null "t1")) rfl rfl (by decide)
  obtain ⟨m, seen, -, hpc, hanswer⟩ := settled_task_answers (announcing_valid rfl) hreach.free
    (announcing_fair 1 (.settled "a")) (n := 0) ⟨_, rfl, rfl⟩
    (fun m _ => by rcases m with _ | _ | m <;> exact (by decide : "a" ∈ (working.run
      (.store (.complete "a" .null "t1"))).store.entries)) (.inl rfl)
  exact ⟨m, seen, hpc, hanswer⟩

theorem sleeper_is_released : ∃ m seen, ((announcing (working.run .shutDown)).state m).pc 1 =
    .returned (.settled "a") seen ∧ seen.answer "a" ≠ .ok none := by
  have hreach := unannounced_reachable (o := .shutDown) rfl rfl (by decide)
  obtain ⟨m, seen, -, hpc, hanswer⟩ := (shutdown_ends_waits (announcing_valid rfl) hreach.free
    announcing_fair (n := 0) rfl).1 1 "a" (.inl rfl)
  exact ⟨m, seen, hpc, hanswer⟩

end Mcp.Tasks
