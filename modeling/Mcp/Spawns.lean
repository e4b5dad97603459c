import Mcp.Session.Workers
import Mcp.Tasks.Concurrency
import Mcp.Server.TaskWork

/-! What is left behind when a thread cannot be made: a count in the Session, a count and a task in
the TaskStore, and a response. -/
namespace Mcp

open Transition Threads

namespace Session

variable {V : Type} {opts : Options} {calls : ℕ → Call V} {s s' : State V} {a : Action}
  {t u : Thread} {k n : ℕ}

/-- The steps in which no thread can be made. -/
def Action.failsSpawn : Action → Bool
  | .spawnThrow _ => true
  | _ => false

/-- A worker that is about to be started stays so until it is started or cannot be. -/
theorem spawning_keep (hs : Step opts calls s a s') (hp : ∀ t, a ≠ .spawn t)
    (ht : ∀ t, a ≠ .spawnThrow t) (hu : Spawning s u) : Spawning s' u := by
  unfold Spawning at hu ⊢
  rcases pc_step hs u with he | hf
  · rwa [he]
  · generalize s.pc u = p at hf hu
    generalize s'.pc u = q at hf ⊢
    cases hf with
    | spawn => exact absurd rfl (hp _)
    | spawnThrow => exact absurd rfl (ht _)
    | _ => exact hu.elim

theorem spawning_enter (hk : Crowd.Exactly (Spawning s) k) (hpc : s.pc t = .idle)
    (hs' : s'.pc = Function.update s.pc t .spawningWorker) :
    Crowd.Exactly (Spawning s') (k + 1) := by
  refine hk.enter (t := t) (by simp [Spawning, hpc, PC.spawning]) ?_
  intro u
  by_cases he : u = t
  · subst u
    simp [Spawning, hs', PC.spawning]
  · simp [Spawning, hs', he]

theorem spawning_leave (hk : Crowd.Exactly (Spawning s) k) (ht : Spawning s t)
    (hs' : s'.pc = Function.update s.pc t .idle) : Crowd.Exactly (Spawning s') (k - 1) := by
  refine hk.leave ht ?_
  intro u
  by_cases he : u = t
  · subst u
    simp [Spawning, hs', PC.spawning]
  · simp [Spawning, hs', he]

theorem failsSpawn_eq_false (h : ∀ t, a ≠ .spawnThrow t) : a.failsSpawn = false := by
  cases a with
  | spawnThrow t => exact absurd rfl (h t)
  | _ => rfl

/-- The count is that of the workers, running or about to be started, and of those that could not
be made. -/
theorem workersRunning_step (hs : Step opts calls s a s') (hk : Crowd.Exactly (Spawning s) k)
    (hn : s.workersRunning = s.live + k + n) : ∃ k', Crowd.Exactly (Spawning s') k' ∧
      s'.workersRunning = s'.live + k' + (n + a.failsSpawn.toNat) := by
  by_cases ha : (∀ t, a ≠ .dispatch t) ∧ (∀ t, a ≠ .spawn t) ∧ (∀ t, a ≠ .spawnThrow t) ∧
      a ≠ .workerDone
  · obtain ⟨hd, hp, ht, hw⟩ := ha
    obtain ⟨hr, hl⟩ := counts_step hs hd hp hw
    refine ⟨k, hk.congr fun u => ⟨spawning_step hs hd, spawning_keep hs hp ht⟩, ?_⟩
    rw [hr, hl, failsSpawn_eq_false ht]
    exact hn
  · cases hs with
    | dispatch hpc =>
      refine ⟨k + 1, spawning_enter hk hpc rfl, ?_⟩
      simp only [State.setPC, Action.failsSpawn, Bool.toNat_false]
      omega
    | @spawn t hpc =>
      have ht : Spawning s t := by simp [Spawning, hpc, PC.spawning]
      have hpos := hk.pos ht
      refine ⟨k - 1, spawning_leave hk ht rfl, ?_⟩
      simp only [State.setPC, Action.failsSpawn, Bool.toNat_false]
      omega
    | @spawnThrow t hpc =>
      have ht : Spawning s t := by simp [Spawning, hpc, PC.spawning]
      have hpos := hk.pos ht
      refine ⟨k - 1, spawning_leave hk ht rfl, ?_⟩
      simp only [State.setPC, Action.failsSpawn, Bool.toNat_true]
      omega
    | workerDone hlive =>
      refine ⟨k, hk, ?_⟩
      simp only [Action.failsSpawn, Bool.toNat_false]
      omega
    | _ => simp at ha

/-- The Session with a count of the threads that could not be made. -/
abbrev tallied (opts : Options) (calls : ℕ → Call V) : System (State V × ℕ) Action :=
  (machine opts calls).tally Action.failsSpawn

theorem tallied_step (h : (tallied opts calls).Reachable Free (s, n))
    (hs : Step opts calls s a s') :
    (tallied opts calls).Reachable Free (s', n + a.failsSpawn.toNat) :=
  h.step trivial ⟨hs, rfl⟩

/-- close() waits for `workers_running_` to be zero, and that counts the workers. -/
structure Traceless (s : State V) : Prop where
  counted : ∃ k, Crowd.Exactly (Spawning s) k ∧ s.workersRunning = s.live + k
  waits : 0 < s.workersRunning → 0 < s.live ∨ ∃ u, Spawning s u

theorem workersRunning_reachable (h : (tallied opts calls).Reachable Free (s, n)) :
    ∃ k, Crowd.Exactly (Spawning s) k ∧ s.workersRunning = s.live + k + n := by
  refine h.invariant (P := fun x => ∃ k, Crowd.Exactly (Spawning x.1) k ∧
    x.1.workersRunning = x.1.live + k + x.2) ?_ ?_
  · rintro ⟨s, n⟩ ⟨rfl, rfl⟩
    exact ⟨0, Crowd.Exactly.none (fun u => by cases u <;> exact id), rfl⟩
  · rintro ⟨s, n⟩ a ⟨s', n'⟩ - ⟨k, hk, hn⟩ - ⟨hst, rfl⟩
    exact workersRunning_step hst hk hn

theorem traceless_iff (h : (tallied opts calls).Reachable Free (s, n)) : Traceless s ↔ n = 0 := by
  obtain ⟨k, hk, hn⟩ := workersRunning_reachable h
  constructor
  · intro ht
    obtain ⟨k', hk', hn'⟩ := ht.counted
    have he := hk.unique hk'
    omega
  · rintro rfl
    refine ⟨⟨k, hk, hn⟩, ?_⟩
    intro hpos
    by_cases hlive : 0 < s.live
    · exact .inl hlive
    · exact .inr (hk.exists_of_pos (by omega))

/-- One thread that could not be made, and close() never gets past its wait. -/
theorem close_hangs (h : (tallied opts calls).Reachable Free (s, n)) (hn : n ≠ 0) :
    ¬ Step opts calls s (.closeDrained t) s' := by
  obtain ⟨k, -, hrunning⟩ := workersRunning_reachable h
  intro hst
  cases hst with
  | closeDrained _ hz => omega

end Session

namespace Tasks

variable {cap : ℕ} {s s' : State} {a : Action} {t u n : ℕ} {id : String} {e : Entry}

/-- A call that will start the worker of the task, or that worker before it has reported. -/
def PC.owns (id : String) : PC → Prop
  | .notifying _ (.starting i) => i = id
  | .starting i => i = id
  | .spawning i => i = id
  | .working i => i = id
  | _ => False

/-- An open task has somebody who will settle it. -/
def Owned (s : State) : Prop :=
  ∀ id e, s.store.entries.lookup id = some e → e.task.status.isTerminal = false →
    ∃ u, (s.pc u).owns id

theorem owned_fresh : Owned fresh := by
  intro id e he
  cases he

/-- A thread that owns no less than before, over the same tasks. -/
theorem owned_update {pc : PC} (hpc : s'.pc = Function.update s.pc t pc)
    (hs : s'.store = s.store) (ht : ∀ id, (s.pc t).owns id → pc.owns id) (h : Owned s) :
    Owned s' := by
  intro id e he hopen
  rw [hs] at he
  obtain ⟨u, hu⟩ := h id e he hopen
  refine ⟨u, ?_⟩
  by_cases hut : u = t
  · subst u
    simpa [hpc] using ht id hu
  · simpa [hpc, hut] using hu

/-- What is open after a task has been settled was open before, and is another. -/
theorem open_of_settle {store : TaskStore} {f : Entry → Entry} {i : String}
    (hf : ∀ e, (f e).task.status.isTerminal = true)
    (he : (store.settle id f).1.entries.lookup i = some e)
    (hopen : e.task.status.isTerminal = false) : i ≠ id ∧ store.entries.lookup i = some e := by
  have hne : i ≠ id := by
    rintro rfl
    cases hl : store.entries.lookup i with
    | none => simp [TaskStore.settle, hl] at he
    | some e₀ =>
      cases ho : e₀.task.status.isTerminal with
      | true =>
        rw [settle_terminal hl ho, hl] at he
        cases he
        simp [ho] at hopen
      | false =>
        rw [settle_open hl ho] at he
        rcases Dict.lookup_of_lookup_insert he with ⟨-, rfl⟩ | ⟨hne, -⟩
        · simp [hf] at hopen
        · exact hne rfl
  rw [settle_lookup_ne hne] at he
  exact ⟨hne, he⟩

/-- Whoever settles a task need not own it any more. -/
theorem owned_commit {f : Entry → Entry} {next : After}
    (hf : ∀ e, (f e).task.status.isTerminal = true) (hcall : Calls id (s.pc t) next)
    (h : Owned s) : Owned (s.commit t (s.store.settle id f) next) := by
  intro i e he hopen
  obtain ⟨hne, he⟩ := open_of_settle hf he hopen
  obtain ⟨u, hu⟩ := h i e he hopen
  refine ⟨u, ?_⟩
  have hut : u ≠ t := by
    rintro rfl
    generalize s.pc u = pc at hcall hu
    cases hcall with
    | client => exact hu
    | worker => exact hne hu.symm
  simpa [State.commit, hut] using hu

/-- A task that has been created is owned by its creator. -/
theorem owned_create {now : String} {steady : Int64} {ttl : Option Int64} {p : Task}
    (hpc : s.pc t = .checked) (h : Owned s) :
    Owned ({ s with store := (s.store.create id now steady ttl).1 }.setPC t
      (.notifying p (.starting id))) := by
  intro i e he hopen
  rcases Dict.lookup_of_lookup_tryEmplace he with ⟨rfl, -, -⟩ | he
  · exact ⟨t, by simp [PC.owns]⟩
  · obtain ⟨u, hu⟩ := h i e he hopen
    refine ⟨u, ?_⟩
    have hut : u ≠ t := by
      rintro rfl
      rw [hpc] at hu
      exact hu
    simpa [hut] using hu

/-- The worker that has been started takes the task over. -/
theorem owned_spawn (hpc : s.pc t = .spawning id) (hu : s.pc u = .idle) (h : Owned s) :
    Owned ((s.setPC u (.working id)).setPC t .idle) := by
  have hne : u ≠ t := by
    rintro rfl
    cases hpc.symm.trans hu
  intro i e he hopen
  obtain ⟨v, hv⟩ := h i e he hopen
  by_cases hvt : v = t
  · subst v
    rw [hpc] at hv
    exact ⟨u, by simpa [hne, PC.owns] using hv⟩
  · have hvu : v ≠ u := by
      rintro rfl
      rw [hu] at hv
      exact hv
    exact ⟨v, by simpa [hvt, hvu] using hv⟩

theorem owned_step (hs : Step cap s a s') (ha : a.failsSpawn = false) (h : Owned s) :
    Owned s' := by
  cases hs with
  | refuse _ _ _ | get _ | list _ => exact h
  | check hpc _ | finished hpc =>
    exact owned_update rfl rfl (fun id hid => by rw [hpc] at hid; exact hid.elim) h
  | create hpc _ => exact owned_create hpc h
  | @notify t p next hpc =>
    refine owned_update rfl rfl (fun id hid => ?_) h
    rw [hpc] at hid
    cases next with
    | starting i => exact hid
    | idle | finishing => exact hid.elim
  | started hpc =>
    exact owned_update rfl rfl (fun id hid => by rw [hpc] at hid; exact hid) h
  | spawn hpc hu => exact owned_spawn hpc hu h
  | spawnThrow _ => cases ha
  | complete hcall =>
    refine owned_commit (fun e => ?_) hcall h
    cases hc : e.cancelled <;> simp [Entry.complete, Entry.touch, hc, TaskStatus.isTerminal]
  | fail hcall | cancel hcall => exact owned_commit (fun e => rfl) hcall h

/-- The calls and their workers with a count of the threads that could not be made. -/
abbrev tallied (cap : ℕ) : System (State × ℕ) Action := (machine cap).tally Action.failsSpawn

theorem tallied_step (h : (tallied cap).Reachable Free (s, n)) (hs : Step cap s a s') :
    (tallied cap).Reachable Free (s', n + a.failsSpawn.toNat) :=
  h.step trivial ⟨hs, rfl⟩

/-- shutdown() waits for `workers_inflight_` to be zero, and that counts the workers. -/
structure Traceless (s : State) : Prop where
  counted : Crowd.Exactly (Counted s) s.workersInflight
  waits : 0 < s.workersInflight → ∃ u, Counted s u
  owned : Owned s

/-- Up to the first start that fails, every open task is owned. -/
structure Accounted (s : State) (n : ℕ) : Prop where
  counted : ∃ k, Crowd.Exactly (Counted s) k ∧ s.workersInflight = k + n
  owned : n = 0 → Owned s

theorem accounted_reachable (h : (tallied cap).Reachable Free (s, n)) : Accounted s n := by
  refine h.invariant (P := fun x => Accounted x.1 x.2) ?_ ?_
  · rintro ⟨s, n⟩ ⟨rfl, rfl⟩
    exact ⟨⟨0, Crowd.Exactly.none (fun _ => id), rfl⟩, fun _ => owned_fresh⟩
  · rintro ⟨s, n⟩ a ⟨s', n'⟩ - hacc - ⟨hst, rfl⟩
    obtain ⟨k, hk, hn⟩ := hacc.counted
    refine ⟨counted_step hst hk hn, ?_⟩
    intro hz
    have hfails : a.failsSpawn = false := by
      cases ha : a.failsSpawn with
      | false => rfl
      | true => simp [ha] at hz
    exact owned_step hst hfails (hacc.owned (by dsimp only at hz; omega))

theorem traceless_iff (h : (tallied cap).Reachable Free (s, n)) : Traceless s ↔ n = 0 := by
  have hacc := accounted_reachable h
  obtain ⟨k, hk, hn⟩ := hacc.counted
  constructor
  · intro ht
    have he := hk.unique ht.counted
    omega
  · rintro rfl
    obtain rfl : s.workersInflight = k := hn
    exact ⟨hk, hk.exists_of_pos, hacc.owned rfl⟩

end Tasks

namespace Server

variable {jsonWhat : JsonException → String} {cfg : Settings} {req : JsonRpcRequest}

/-- A handler that cannot start a task worker comes to an end with what the start has thrown. -/
def Throws : (o : Op) → (o.Ans → Program Op Op.Ans (Except Exception Json)) → Prop
  | .spawn _, next => ∀ e : Exception, next (.error e) = .done (.error e)
  | _, _ => True

/-- Then its request is answered with an error. -/
def RefusesSpawn (req : JsonRpcRequest) :
    (o : ServerOp) → (ServerOp.Ans o → Program ServerOp ServerOp.Ans Unit) → Prop
  | .inl (.spawn _), next => ∀ e : Exception, ∃ err : ErrorObject,
      next (.error e) =
        performServer (.inl (.respond { id := some req.id, outcome := .error err }))
  | _, _ => True

def NoSpawn : Op → Prop
  | .spawn _ => False
  | _ => True

theorem throws_of_noSpawn (o : Op) (next) (h : NoSpawn o) : Throws o next := by
  cases o <;> first | exact h.elim | trivial

theorem throws_of_prepares (o : Op) (next) (h : Prepares o) : Throws o next := by
  cases o <;> first | exact h.elim | trivial

theorem noSpawn_requireInitialized : requireInitialized.run.Only NoSpawn := by
  refine ⟨trivial, ?_⟩
  intro x
  cases x <;> trivial

theorem throws_handleCallTool (params : Json) :
    (handleCallTool jsonWhat cfg params).run.Always Throws := by
  unfold handleCallTool
  refine Program.always_bindExcept throws_of_noSpawn noSpawn_requireInitialized fun _ => ?_
  refine Program.always_bindExcept throws_of_noSpawn trivial fun parsed => ?_
  refine Program.always_bindExcept throws_of_noSpawn ⟨trivial, fun _ => trivial⟩ fun registry => ?_
  split
  · trivial
  · refine Program.always_bindExcept throws_of_noSpawn trivial fun _ => ?_
    split
    · exact always_callToolAsTask throws_of_prepares (fun _ _ e => rfl) _ _ _
    · refine Program.always_bindExcept throws_of_noSpawn ⟨trivial, fun _ => trivial⟩ ?_
      intro result
      cases result <;> trivial

theorem refusesSpawn_of_throws {o : Op} {next : o.Ans → Program Op Op.Ans (Except Exception Json)}
    (h : Throws o next) :
    RefusesSpawn req (.inl o) fun x => (next x).embed.bind (replying jsonWhat req) := by
  cases o with
  | spawn w =>
    intro e
    obtain ⟨err, herr⟩ : ∃ err, outcomeOf jsonWhat (.error e) = .error err := by
      cases e <;> exact ⟨_, rfl⟩
    have hnext := congrArg (fun p => p.embed.bind (replying jsonWhat req)) (h e)
    refine ⟨err, hnext.trans ?_⟩
    rw [← herr]
    rfl
  | _ => trivial

/-- A tools/call whose worker cannot be made is answered with an error. -/
theorem refusesSpawn_serveRequest (hm : req.method = methodCallTool) :
    (serveRequest jsonWhat cfg req).Always (RefusesSpawn req) := by
  have hh : requestHandler jsonWhat cfg req.method = some fun params =>
      ExceptT.mk (handleCallTool jsonWhat cfg params).run.embed := by
    rw [hm]
    rfl
  unfold serveRequest
  rw [hh]
  exact Program.always_embed (fun _ _ => refusesSpawn_of_throws)
    (fun r => ⟨trivial, fun _ => trivial⟩) (throws_handleCallTool _)

end Server

/-- Neither counter is off, and no task is left behind, exactly as long as every thread could be
made; a count that is too high is never waited out. The request is answered all the same. -/
theorem spawn_failures_traced_iff {V : Type} (opts : Session.Options) (calls : ℕ → Session.Call V)
    (cap : ℕ) :
    (∀ s n, (Session.tallied opts calls).Reachable Free (s, n) →
      (Session.Traceless s ↔ n = 0) ∧
      (n ≠ 0 → ∀ t s', ¬ Session.Step opts calls s (.closeDrained t) s')) ∧
    (∀ s n, (Tasks.tallied cap).Reachable Free (s, n) →
      (Tasks.Traceless s ↔ n = 0) ∧ (n ≠ 0 → s.workersInflight ≠ 0)) ∧
    (∀ (jsonWhat : JsonException → String) (cfg : Server.Settings) (req : JsonRpcRequest),
      req.method = Server.methodCallTool →
      (Server.serveRequest jsonWhat cfg req).Always (Server.RefusesSpawn req)) := by
  refine ⟨?_, ?_, ?_⟩
  · intro s n h
    exact ⟨Session.traceless_iff h, fun hn t s' => Session.close_hangs h hn⟩
  · intro s n h
    refine ⟨Tasks.traceless_iff h, ?_⟩
    obtain ⟨k, -, hcount⟩ := (Tasks.accounted_reachable h).counted
    omega
  · intro jsonWhat cfg req hm
    exact Server.refusesSpawn_serveRequest hm

/-- A request worker and a task worker are started: each is the one that is counted, and the task
is the worker's. -/
theorem started_workers_traceless :
    (∃ s : Session.State Json, s.workersRunning = 1 ∧ Session.Traceless s) ∧
    ∃ s : Tasks.State, s.workersInflight = 1 ∧ Tasks.Traceless s ∧
      (s.store.get "a").map (fun task => task.status) = some .working := by
  constructor
  · have h₀ : (Session.tallied {} (fun _ => Session.ping)).Reachable Free
        (Session.fresh Json, 0) := .initial ⟨rfl, rfl⟩
    have h₁ := Session.tallied_step (a := .dispatch (.app 0)) h₀ (.dispatch rfl)
    have h₂ := Session.tallied_step (a := .spawn (.app 0)) h₁ (.spawn rfl)
    exact ⟨_, rfl, ((spawn_failures_traced_iff {} _ 0).1 _ _ h₂).1.mpr rfl⟩
  · have h₀ : (Tasks.tallied 0).Reachable Free (Tasks.fresh, 0) := .initial ⟨rfl, rfl⟩
    have h₁ := Tasks.tallied_step (a := .check 0) h₀ (.check rfl (.inl rfl))
    have h₂ := Tasks.tallied_step (a := .create 0 "a" "t0" 0 none) h₁ (.create rfl (by decide))
    have h₃ := Tasks.tallied_step (a := .notify 0) h₂ (.notify rfl)
    have h₄ := Tasks.tallied_step (a := .started 0) h₃ (.started rfl)
    have h₅ := Tasks.tallied_step (a := .spawn 0 1) h₄ (.spawn rfl rfl)
    exact ⟨_, rfl, ((spawn_failures_traced_iff {} (fun _ => Session.ping) 0).2.1 _ _ h₅).1.mpr rfl,
      rfl⟩

/-- No request worker can be made, and no task worker: both are counted, and the task stays. -/
theorem failed_spawns_leave_traces :
    (∃ s : Session.State Json, (Session.machine {} (fun _ => Session.ping)).Reachable Free s ∧
      s.workersRunning = 1 ∧ s.live = 0 ∧ ∀ u, ¬ Session.Spawning s u) ∧
    (∃ s : Tasks.State, (Tasks.machine 0).Reachable Free s ∧ s.workersInflight = 1 ∧
      (∀ u, s.pc u = .idle) ∧ (s.store.get "a").map (fun task => task.status) = some .working) := by
  constructor
  · have h₀ : (Session.machine {} (fun _ => Session.ping)).Reachable Free (Session.fresh Json) :=
      .initial rfl
    have h₁ := Session.reachable_step (a := .dispatch (.app 0)) h₀ trivial (.dispatch rfl)
    have h₂ := Session.reachable_step (a := .spawnThrow (.app 0)) h₁ trivial (.spawnThrow rfl)
    exact ⟨_, h₂, rfl, rfl, fun u => by rcases u with _ | _ | n <;> exact id⟩
  · have h₀ : (Tasks.machine 0).Reachable Free Tasks.fresh := .initial rfl
    have h₁ := Tasks.reachable_step (a := .check 0) h₀ trivial (.check rfl (.inl rfl))
    have h₂ := Tasks.reachable_step (a := .create 0 "a" "t0" 0 none) h₁ trivial
      (.create rfl (by decide))
    have h₃ := Tasks.reachable_step (a := .notify 0) h₂ trivial (.notify rfl)
    have h₄ := Tasks.reachable_step (a := .started 0) h₃ trivial (.started rfl)
    have h₅ := Tasks.reachable_step (a := .spawnThrow 0) h₄ trivial (.spawnThrow rfl)
    exact ⟨_, h₅, rfl, fun u => by rcases u with _ | u <;> rfl, rfl⟩

end Mcp
