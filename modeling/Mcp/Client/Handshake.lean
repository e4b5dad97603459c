import Mcp.Library.Transition
import Mcp.Protocol.HandshakeRoundTrip

/-! What Client::server() shows, under any interleaving of connect(), disconnect() and the tasks of
initialize(). One step is one section of a mutex, one access of `connected_`, or one stage of a
task. -/
namespace Mcp.Client.Handshake

open Transition

/-- A thread in connect() or disconnect(); `connects` says that the disconnect() is the one inside
connect(). -/
inductive PC where
  | idle
  -- disconnect()
  | exchanging (connects : Bool)
  | taking (connects : Bool)
  | closing (connects : Bool) (taken : Option ℕ)
  | resetting (connects : Bool)
  | returning (connects : Bool)
  -- connect()
  | making
  | starting
  | setting

/-- The task of one initialize(), with the session that it holds. -/
inductive Task where
  | absent
  | awaiting (k : ℕ)
  | decoding (k : ℕ) (raw : Json)
  | storing (k : ℕ) (res : InitializeResult)
  | noting (k : ℕ) (res : InitializeResult)
  | resolved (k : ℕ) (res : InitializeResult)
  | failed

structure State where
  connected : Bool
  /-- The number of the session in `session_`. -/
  session : Option ℕ
  server : Option InitializeResult
  pc : ℕ → PC
  task : ℕ → Task
  /-- Sessions made so far. -/
  made : ℕ
  /-- Sessions made when a disconnect() last returned. -/
  floor : ℕ
  /-- The tasks that have stored their result, and the one whose result is there. -/
  stored : List ℕ
  setBy : Option ℕ

def fresh : State where
  connected := false
  session := none
  server := none
  pc _ := .idle
  task _ := .absent
  made := 0
  floor := 0
  stored := []
  setBy := none

def State.setPC (s : State) (t : ℕ) (pc : PC) : State := { s with pc := Function.update s.pc t pc }

def State.setTask (s : State) (i : ℕ) (task : Task) : State :=
  { s with task := Function.update s.task i task }

/-- disconnect() returns. -/
def State.leave (s : State) (t : ℕ) (connects : Bool) : State :=
  { s with floor := s.made }.setPC t (if connects then .making else .idle)

inductive Action where
  | connect (t : ℕ) | disconnect (t : ℕ) | exchange (t : ℕ) | take (t : ℕ) | close (t : ℕ)
  | reset (t : ℕ) | leave (t : ℕ) | make (t : ℕ) | start (t : ℕ) | startThrow (t : ℕ)
  | set (t : ℕ)
  | beginInitialize (i : ℕ) | respond (i : ℕ) (raw : Json) | respondFail (i : ℕ) | decode (i : ℕ)
  | store (i : ℕ) | note (i : ℕ) | noteFail (i : ℕ)

/-- A connect() without a transport throws, and so does an initialize() without a session: neither
does anything. -/
inductive Step : State → Action → State → Prop where
  | connect {s t} : s.pc t = .idle → Step s (.connect t) (s.setPC t (.exchanging true))
  | disconnect {s t} : s.pc t = .idle → Step s (.disconnect t) (s.setPC t (.exchanging false))
  | exchange {s t c} : s.pc t = .exchanging c →
      Step s (.exchange t) (if s.connected then { s with connected := false }.setPC t (.taking c)
        else s.leave t c)
  | take {s t c} : s.pc t = .taking c →
      Step s (.take t) ({ s with session := none }.setPC t (.closing c s.session))
  | close {s t c taken} : s.pc t = .closing c taken → Step s (.close t) (s.setPC t (.resetting c))
  | reset {s t c} : s.pc t = .resetting c →
      Step s (.reset t) ({ s with server := none, setBy := none }.setPC t (.returning c))
  | leave {s t c} : s.pc t = .returning c → Step s (.leave t) (s.leave t c)
  | make {s t} : s.pc t = .making →
      Step s (.make t) ({ s with session := some s.made, made := s.made + 1 }.setPC t .starting)
  | start {s t} : s.pc t = .starting → Step s (.start t) (s.setPC t .setting)
  -- the session stays in `session_`, and `connected_` is not set
  | startThrow {s t} : s.pc t = .starting → Step s (.startThrow t) (s.setPC t .idle)
  | set {s t} : s.pc t = .setting →
      Step s (.set t) ({ s with connected := true }.setPC t .idle)
  | beginInitialize {s i k} : s.task i = .absent → s.session = some k →
      Step s (.beginInitialize i) (s.setTask i (.awaiting k))
  | respond {s i k raw} : s.task i = .awaiting k →
      Step s (.respond i raw) (s.setTask i (.decoding k raw))
  | respondFail {s i k} : s.task i = .awaiting k → Step s (.respondFail i) (s.setTask i .failed)
  | decode {s i k raw} : s.task i = .decoding k raw →
      Step s (.decode i) (s.setTask i (match raw.get InitializeResult with
        | .ok res => .storing k res
        | .error _ => .failed))
  | store {s i k res} : s.task i = .storing k res →
      Step s (.store i) ({ s with
        server := some res
        stored := i :: s.stored
        setBy := some i }.setTask i (.noting k res))
  | note {s i k res} : s.task i = .noting k res → Step s (.note i) (s.setTask i (.resolved k res))
  | noteFail {s i k res} : s.task i = .noting k res → Step s (.noteFail i) (s.setTask i .failed)

def machine : System State Action where
  Initial s := s = fresh
  Step := Step

/-- A disconnect() between taking the session and its reset. -/
def PC.Busy : PC → Prop
  | .closing _ _ | .resetting _ => True
  | _ => False

/-- The session of a task that has stored its result and not failed. -/
def Task.Keeps (task : Task) (k : ℕ) (res : InitializeResult) : Prop :=
  task = .noting k res ∨ task = .resolved k res

/-- No initialize() that has stored its result fails, and what server() shows is the result of one
whose session was made after every disconnect() that has returned. -/
structure Faithful (s : State) : Prop where
  kept : ∀ i ∈ s.stored, ∃ k res, (s.task i).Keeps k res
  shown : ∀ res, s.server = some res →
    ∃ i k, s.setBy = some i ∧ (s.task i).Keeps k res ∧ s.floor ≤ k

/-- notifications/initialized can be sent once a result is stored; a task stores its result while
no disconnect() stands between its reset and its return, and none has returned since the task's
session was made; and a disconnect() finds `connected_` false only while there is no session and no
other disconnect() is busy. -/
def Orderly (s : State) : Action → Prop
  | .noteFail _ => False
  | .store i => (∀ k res, s.task i = .storing k res → s.floor ≤ k) ∧ ∀ t c, s.pc t ≠ .returning c
  | .exchange _ => s.connected = true ∨ s.session = none ∧ ∀ t, ¬(s.pc t).Busy
  | _ => True

variable {s s' : State} {a : Action} {t i : ℕ}

/-- Busy, or on the way out after the reset. -/
def PC.Occupied (pc : PC) : Prop := pc.Busy ∨ ∃ c, pc = .returning c

/-- The session that a task holds. -/
def Task.session : Task → Option ℕ
  | .awaiting k | .decoding k _ | .storing k _ | .noting k _ | .resolved k _ => some k
  | .absent | .failed => none

/-- A session that no disconnect() has outlived is there, or somebody has taken it and not
returned; and nothing is shown while a disconnect() returns. -/
structure Held (s : State) : Prop where
  faithful : Faithful s
  session : ∀ k, s.session = some k → k < s.made
  tasks : ∀ i k, (s.task i).session = some k → k < s.made
  occupied : s.floor < s.made → s.session.isSome ∨ ∃ t, (s.pc t).Occupied
  returning : ∀ t c, s.pc t = .returning c → s.server = none

section Frame

variable {pc : PC} {task : Task}

/-- A thread moves. -/
theorem held_setPC (hs : Held s) (hoccupied : pc.Occupied ∨ ¬(s.pc t).Occupied)
    (hreturning : ∀ c, pc ≠ .returning c) : Held (s.setPC t pc) := by
  obtain ⟨hfaithful, hsession, htasks, hocc, hret⟩ := hs
  refine ⟨⟨hfaithful.kept, hfaithful.shown⟩, hsession, htasks, fun hlt => ?_, ?_⟩
  · refine (hocc hlt).imp_right ?_
    rintro ⟨u, hu⟩
    rcases hoccupied with hpc | hpc
    · exact ⟨t, by simpa [State.setPC] using hpc⟩
    · refine ⟨u, ?_⟩
      have hne : u ≠ t := by
        rintro rfl
        exact hpc hu
      simpa [State.setPC, hne] using hu
  · intro u c hu
    rcases update_cases hu with ⟨rfl, rfl⟩ | ⟨-, hu⟩
    · exact absurd rfl (hreturning c)
    · exact hret u c hu

/-- A task moves, and keeps what it has stored. -/
theorem held_setTask (hs : Held s) (hold : ∀ k res, (s.task i).Keeps k res → task.Keeps k res)
    (htask : ∀ k, task.session = some k → k < s.made) : Held (s.setTask i task) := by
  obtain ⟨⟨hkept, hshown⟩, hsession, htasks, hocc, hret⟩ := hs
  have hother : ∀ j k res, (s.task j).Keeps k res → ((s.setTask i task).task j).Keeps k res := by
    intro j k res hj
    by_cases hji : j = i
    · subst j
      simpa [State.setTask] using hold k res hj
    · simpa [State.setTask, hji] using hj
  refine ⟨⟨?_, ?_⟩, hsession, ?_, hocc, hret⟩
  · intro j hj
    obtain ⟨k, res, hkeeps⟩ := hkept j hj
    exact ⟨k, res, hother j k res hkeeps⟩
  · intro res hres
    obtain ⟨j, k, hset, hkeeps, hle⟩ := hshown res hres
    exact ⟨j, k, hset, hother j k res hkeeps, hle⟩
  · intro j k hj
    by_cases hji : j = i
    · subst j
      simp only [State.setTask, Function.update_self] at hj
      exact htask k hj
    · simp only [State.setTask, Function.update_of_ne hji] at hj
      exact htasks j k hj

/-- disconnect() returns where nothing is there. -/
theorem held_leave (hs : Held s) (hserver : s.server = none) (c : Bool) : Held (s.leave t c) := by
  obtain ⟨⟨hkept, -⟩, hsession, htasks, -, -⟩ := hs
  refine ⟨⟨hkept, fun res hres => ?_⟩, hsession, htasks, fun hlt => ?_, fun u d hu => hserver⟩
  · cases hserver.symm.trans hres
  · exact absurd hlt (Nat.lt_irrefl _)

end Frame

theorem returning_setPC (s : State) {pc : PC} (hpc : ∀ c, pc ≠ .returning c)
    (hret : ∀ t c, s.pc t = .returning c → s.server = none) {u : ℕ} {c : Bool}
    (hu : Function.update s.pc t pc u = .returning c) : s.server = none := by
  rcases update_cases hu with ⟨-, hu⟩ | ⟨-, hu⟩
  · exact absurd hu (hpc c)
  · exact hret u c hu

/-- Where there is no session and nobody is busy, nothing is shown. -/
theorem Held.server_none (hs : Held s) (hsession : s.session = none)
    (hbusy : ∀ t, ¬(s.pc t).Busy) : s.server = none := by
  cases hserver : s.server with
  | none => rfl
  | some res =>
    obtain ⟨i, k, -, hkeeps, hle⟩ := hs.faithful.shown res hserver
    have hk : k < s.made := by
      apply hs.tasks i k
      rcases hkeeps with htask | htask <;> rw [htask] <;> rfl
    rcases hs.occupied (hle.trans_lt hk) with hsome | ⟨t, hocc⟩
    · simp [hsession] at hsome
    · rcases hocc with hb | ⟨c, hc⟩
      · exact absurd hb (hbusy t)
      · exact hserver.symm.trans (hs.returning t c hc)

/-- A disconnect() takes a connection over, or finds nothing to end. -/
theorem held_exchange (hs : Held s) {c : Bool} (hpc : s.pc t = .exchanging c)
    (hok : s.connected = true ∨ s.session = none ∧ ∀ t, ¬(s.pc t).Busy) :
    Held (if s.connected then { s with connected := false }.setPC t (.taking c)
      else s.leave t c) := by
  cases hconnected : s.connected with
  | true =>
    have hmoved : Held (s.setPC t (.taking c)) :=
      held_setPC hs (.inr (by simp [hpc, PC.Occupied, PC.Busy])) (by simp)
    obtain ⟨⟨hkept, hshown⟩, hsession, htasks, hocc, hret⟩ := hmoved
    exact ⟨⟨hkept, hshown⟩, hsession, htasks, hocc, hret⟩
  | false =>
    rcases hok with hok | ⟨hsession, hbusy⟩
    · cases hconnected.symm.trans hok
    · exact held_leave hs (hs.server_none hsession hbusy) c

/-- A task stores its result while its session lasts. -/
theorem held_store (hs : Held s) {k : ℕ} {res : InitializeResult}
    (htask : s.task i = .storing k res) (hle : s.floor ≤ k)
    (hnobody : ∀ t c, s.pc t ≠ .returning c) :
    Held ({ s with
      server := some res
      stored := i :: s.stored
      setBy := some i }.setTask i (.noting k res)) := by
  have hk : k < s.made := hs.tasks i k (by rw [htask]; rfl)
  have hmoved : Held (s.setTask i (.noting k res)) :=
    held_setTask hs (by simp [htask, Task.Keeps]) (by rintro _ ⟨⟩; exact hk)
  obtain ⟨⟨hkept, -⟩, hsession, htasks, hocc, -⟩ := hmoved
  have hkeeps : ((s.setTask i (.noting k res)).task i).Keeps k res := by
    simp [State.setTask, Task.Keeps]
  refine ⟨⟨?_, ?_⟩, hsession, htasks, hocc, fun u c hu => absurd hu (hnobody u c)⟩
  · intro j hj
    rcases List.mem_cons.mp hj with rfl | hj
    · exact ⟨k, res, hkeeps⟩
    · exact hkept j hj
  · rintro res' ⟨⟩
    exact ⟨i, k, rfl, hkeeps, hle⟩

theorem held_step (h : Step s a s') (hok : Orderly s a) (hs : Held s) : Held s' := by
  cases h with
  | connect h | disconnect h =>
    exact held_setPC hs (.inr (by simp [h, PC.Occupied, PC.Busy])) (by simp)
  | exchange h => exact held_exchange hs h hok
  | @take t c h =>
    obtain ⟨hfaithful, -, htasks, -, hret⟩ := hs
    refine ⟨⟨hfaithful.kept, hfaithful.shown⟩, ?_, htasks, fun _ => .inr ⟨t, ?_⟩, ?_⟩
    · rintro k ⟨⟩
    · simp [State.setPC, PC.Occupied, PC.Busy]
    · exact fun u d => returning_setPC s (by simp) hret
  | close h => exact held_setPC hs (.inl (.inl trivial)) (by simp)
  | @reset t c h =>
    obtain ⟨hfaithful, hsession, htasks, -, -⟩ := hs
    refine ⟨⟨hfaithful.kept, ?_⟩, hsession, htasks, fun _ => .inr ⟨t, ?_⟩, fun _ _ _ => rfl⟩
    · rintro res ⟨⟩
    · simp [State.setPC, PC.Occupied]
  | @leave t c h => exact held_leave hs (hs.returning t c h) c
  | @make t h =>
    obtain ⟨hfaithful, hsession, htasks, -, hret⟩ := hs
    refine ⟨⟨hfaithful.kept, hfaithful.shown⟩, ?_, ?_, fun _ => .inl rfl, ?_⟩
    · rintro k ⟨⟩
      exact Nat.lt_succ_self _
    · exact fun i k hk => Nat.lt_succ_of_lt (htasks i k hk)
    · exact fun u d => returning_setPC s (by simp) hret
  | start h | startThrow h =>
    exact held_setPC hs (.inr (by simp [h, PC.Occupied, PC.Busy])) (by simp)
  | @set t h =>
    have hmoved : Held (s.setPC t .idle) :=
      held_setPC hs (.inr (by simp [h, PC.Occupied, PC.Busy])) (by simp)
    obtain ⟨⟨hkept, hshown⟩, hsession, htasks, hocc, hret⟩ := hmoved
    exact ⟨⟨hkept, hshown⟩, hsession, htasks, hocc, hret⟩
  | @beginInitialize i k h hsession =>
    refine held_setTask hs (by simp [h, Task.Keeps]) ?_
    rintro _ ⟨⟩
    exact hs.session k hsession
  | @respond i k raw h =>
    refine held_setTask hs (by simp [h, Task.Keeps]) ?_
    rintro _ ⟨⟩
    exact hs.tasks i k (by rw [h]; rfl)
  | respondFail h => exact held_setTask hs (by simp [h, Task.Keeps]) (by rintro _ ⟨⟩)
  | @decode i k raw h =>
    refine held_setTask hs (by simp [h, Task.Keeps]) ?_
    intro k' hk'
    split at hk'
    · cases hk'
      exact hs.tasks i k (by rw [h]; rfl)
    · cases hk'
  | @store i k res h => exact held_store hs h (hok.1 k res h) hok.2
  | @note i k res h =>
    refine held_setTask hs ?_ ?_
    · rw [h]
      rintro k' res' (⟨⟨⟩⟩ | ⟨⟨⟩⟩)
      exact .inr rfl
    · rintro _ ⟨⟩
      exact hs.tasks i k (by rw [h]; rfl)
  | noteFail h => exact hok.elim

/-- In every run whose steps are orderly, server() shows nothing but the result of a handshake that
has not failed, on a connection that no disconnect() has ended. -/
theorem server_faithful (s : State) (h : machine.Reachable Orderly s) : Faithful s := by
  have hheld : Held s := by
    refine h.invariant (P := Held) ?_ fun s a s' _ hs hok hst => held_step hst hok hs
    rintro s rfl
    refine ⟨⟨?_, ?_⟩, ?_, ?_, ?_, ?_⟩
    · rintro i ⟨⟩
    · rintro res ⟨⟩
    · rintro k ⟨⟩
    · rintro i k ⟨⟩
    · exact fun hlt => absurd hlt (Nat.lt_irrefl 0)
    · rintro t c ⟨⟩
  exact hheld.faithful

theorem reachable_step {ok : State → Action → Prop} (h : machine.Reachable ok s) (ha : ok s a)
    (hs : Step s a s') : machine.Reachable ok s' := h.step ha hs

def answer : InitializeResult where
  protocolVersion := "2025-11-25"
  capabilities := ⟨none, none, none, none, none, none, none⟩
  serverInfo := ⟨"s", none, "1", none, none, none, none⟩
  instructions := none
  «meta» := none

theorem get_answer : (Json.of answer).get InitializeResult = .ok answer := by
  apply (restores_initializeResult _).get_of
  refine ⟨⟨?_, ?_, ?_, ?_⟩, ?_, ?_⟩ <;> simp [answer, Implementation.NullFree]

theorem decode_step (h : s.task i = .decoding 0 (Json.of answer)) :
    Step s (.decode i) (s.setTask i (.storing 0 answer)) := by
  have hs := Step.decode h
  rwa [get_answer] at hs

/-- A client has connected, and the answer to its initialize() is decoded. -/
theorem storing_reachable :
    ∃ s : State, machine.Reachable Orderly s ∧ s.task 0 = .storing 0 answer ∧
    (∀ t, s.pc t = .idle) ∧ s.connected = true ∧ s.floor = 0 ∧ s.made = 1 := by
  have hidle : ∀ t, ¬((fresh.setPC 0 (.exchanging true)).pc t).Busy := by
    intro t
    by_cases ht : t = 0 <;> simp [State.setPC, fresh, PC.Busy, ht]
  have h₀ : machine.Reachable Orderly fresh := .initial rfl
  have h₁ := reachable_step (a := .connect 0) h₀ trivial (.connect rfl)
  have h₂ := reachable_step (a := .exchange 0) h₁ (.inr ⟨rfl, hidle⟩) (.exchange rfl)
  have h₃ := reachable_step (a := .make 0) h₂ trivial (.make rfl)
  have h₄ := reachable_step (a := .start 0) h₃ trivial (.start rfl)
  have h₅ := reachable_step (a := .set 0) h₄ trivial (.set rfl)
  have h₆ := reachable_step (a := .beginInitialize 0) h₅ trivial (.beginInitialize rfl rfl)
  have h₇ := reachable_step (a := .respond 0 (Json.of answer)) h₆ trivial (.respond rfl)
  have h₈ := reachable_step (a := .decode 0) h₇ trivial (decode_step rfl)
  refine ⟨_, h₈, rfl, ?_, rfl, rfl, rfl⟩
  intro t
  by_cases ht : t = 0
  · subst t
    rfl
  · simp [State.setTask, State.setPC, State.leave, fresh]

/-- A disconnect() of thread `t` has ended the connection. -/
def State.disconnected (s : State) (t : ℕ) : State :=
  { s with
    connected := false
    session := none
    server := none
    pc := Function.update s.pc t .idle
    floor := s.made
    setBy := none }

/-- A disconnect() that finds a connection, from its call to its return. -/
theorem disconnect_run {ok : State → Action → Prop}
    (hok : ∀ s' a, (∀ i, a ≠ .store i) → (∀ i, a ≠ .noteFail i) →
      (∀ u, a = .exchange u → s'.connected = true) → ok s' a)
    (hpc : s.pc t = .idle) (hconnected : s.connected = true) :
    machine.Run ok s (s.disconnected t) := by
  have hcall : Step s (.disconnect t) (s.setPC t (.exchanging false)) := .disconnect hpc
  have hexchange : Step (s.setPC t (.exchanging false)) (.exchange t) _ :=
    .exchange (Function.update_self ..)
  rw [if_pos (show (s.setPC t (.exchanging false)).connected = true from hconnected)] at hexchange
  have h₀ : machine.Run ok s s := .refl
  have h₁ := h₀.step (hok _ (.disconnect t) nofun nofun nofun) hcall
  have h₂ := h₁.step (hok _ (.exchange t) nofun nofun fun _ _ => hconnected) hexchange
  have h₃ := h₂.step (hok _ (.take t) nofun nofun nofun) (.take (Function.update_self ..))
  have h₄ := h₃.step (hok _ (.close t) nofun nofun nofun) (.close (Function.update_self ..))
  have h₅ := h₄.step (hok _ (.reset t) nofun nofun nofun) (.reset (Function.update_self ..))
  have h₆ := h₅.step (hok _ (.leave t) nofun nofun nofun) (.leave (Function.update_self ..))
  simpa only [State.setPC, State.leave, State.disconnected, Function.update_idem,
    Bool.false_eq_true, if_false] using h₆

/-- The handshake goes through. -/
theorem handshake_reachable : ∃ s : State, machine.Reachable Orderly s ∧
    s.server = some answer ∧ s.pc 0 = .idle ∧ s.connected = true ∧ s.made = 1 := by
  obtain ⟨s, h, htask, hpc, hconnected, hfloor, hmade⟩ := storing_reachable
  have hok : Orderly s (.store 0) := by
    refine ⟨fun k res _ => by rw [hfloor]; exact Nat.zero_le k, fun t c => ?_⟩
    simp [hpc t]
  have h₁ := reachable_step (a := .store 0) h hok (.store htask)
  have h₂ := reachable_step (a := .note 0) h₁ trivial (.note rfl)
  exact ⟨_, h₂, rfl, hpc 0, hconnected, hmade⟩

/-- The result is shown, and no longer once the client has disconnected. -/
theorem answer_shown : ∃ s s' : State, s.server = some answer ∧ Faithful s ∧
    machine.Run Orderly s s' ∧ s'.floor = 1 ∧ s'.server = none ∧ Faithful s' := by
  obtain ⟨s, h, hserver, hpc, hconnected, hmade⟩ := handshake_reachable
  have hrun : machine.Run Orderly s (s.disconnected 0) := by
    refine disconnect_run ?_ hpc hconnected
    intro s' a hstore hfail hexchange
    cases a with
    | store i => exact absurd rfl (hstore i)
    | noteFail i => exact absurd rfl (hfail i)
    | exchange u => exact .inl (hexchange u rfl)
    | _ => trivial
  exact ⟨s, _, hserver, server_faithful s h, hrun, hmade, rfl, server_faithful _ (h.run hrun)⟩

/-- The notification cannot be sent, and the failed initialize() leaves its result behind; a result
is stored behind the disconnect() that has ended its connection; and a disconnect() leaves what is
shown, because the start() of the connection has thrown. -/
theorem failed_handshake_shown :
    (∃ s : State, machine.Reachable Free s ∧ s.task 0 = .failed ∧ s.server = some answer) ∧
    (∃ s : State, machine.Reachable Free s ∧ s.server = some answer ∧ s.setBy = some 0 ∧
      (s.task 0).session = some 0 ∧ s.floor = 1 ∧ s.connected = false ∧ s.session = none) ∧
    ∃ s : State, machine.Reachable Free s ∧ s.server = some answer ∧ s.setBy = some 0 ∧
      (s.task 0).session = some 0 ∧ s.floor = 1 ∧ s.connected = false ∧ s.session = some 0 := by
  obtain ⟨s, h, htask, hpc, hconnected, -, hmade⟩ := storing_reachable
  have h₀ := h.free
  refine ⟨?_, ?_, ?_⟩
  · have h₁ := reachable_step (a := .store 0) h₀ trivial (.store htask)
    have h₂ := reachable_step (a := .noteFail 0) h₁ trivial (.noteFail rfl)
    exact ⟨_, h₂, rfl, rfl⟩
  · have h₁ : machine.Reachable Free (s.disconnected 0) :=
      h₀.run (disconnect_run (fun _ _ _ _ _ => trivial) (hpc 0) hconnected)
    have h₂ := reachable_step (a := .store 0) h₁ trivial (.store htask)
    refine ⟨_, h₂, rfl, rfl, ?_, hmade, rfl, rfl⟩
    simp [State.setTask, Task.session]
  · have h₁ : machine.Reachable Free fresh := .initial rfl
    have h₂ := reachable_step (a := .connect 0) h₁ trivial (.connect rfl)
    have h₃ := reachable_step (a := .exchange 0) h₂ trivial (.exchange rfl)
    have h₄ := reachable_step (a := .make 0) h₃ trivial (.make rfl)
    have h₅ := reachable_step (a := .startThrow 0) h₄ trivial (.startThrow rfl)
    have h₆ := reachable_step (a := .beginInitialize 0) h₅ trivial (.beginInitialize rfl rfl)
    have h₇ := reachable_step (a := .respond 0 (Json.of answer)) h₆ trivial (.respond rfl)
    have h₈ := reachable_step (a := .decode 0) h₇ trivial (decode_step rfl)
    have h₉ := reachable_step (a := .store 0) h₈ trivial (.store rfl)
    have h₁₀ := reachable_step (a := .disconnect 0) h₉ trivial (.disconnect rfl)
    have h₁₁ := reachable_step (a := .exchange 0) h₁₀ trivial (.exchange rfl)
    exact ⟨_, h₁₁, rfl, rfl, rfl, rfl, rfl, rfl⟩

end Mcp.Client.Handshake
