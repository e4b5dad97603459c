import Mcp.Library.Transition

/-! `stop()` against the prologue of `run()`. One step is one statement of the prologue, one section
of `stop_mu_`, or one part of the Session's on_close callback. -/
namespace Mcp.Server.Stopping

open Transition

/-- What the prologue registers at the Session. -/
inductive Registration where
  | request (method : String)
  | statusListener
  | notification (method : String)
  | onClosed

def registrations (tasks : Bool) : List Registration :=
  [.request "initialize", .request "tools/list", .request "tools/call", .request "resources/list",
    .request "resources/templates/list", .request "resources/read", .request "prompts/list",
    .request "prompts/get", .request "ping", .request "logging/setLevel",
    .request "completion/complete"] ++
  (if tasks then
    [.request "tasks/get", .request "tasks/result", .request "tasks/list", .request "tasks/cancel",
      .statusListener]
  else []) ++
  [.notification "notifications/elicitation/complete", .notification "notifications/cancelled",
    .notification "notifications/initialized", .onClosed]

/-- What `run` does next. -/
inductive RunPC where
  | checkingTransport
  | clearingInitialized
  | clearingStop
  | makingSession
  | publishing
  | registering (rest : List Registration)
  | starting
  -- about to take `stop_mu_` and to evaluate the predicate
  | waiting
  -- the predicate was false; nobody has notified since
  | asleep
  | closing
  | resetting
  | returned
  | thrown

/-- What the call of `stop` does next. -/
inductive StopPC where
  | uncalled
  | locking
  | unlocking
  | returned

/-- What the on_close callback does next. -/
inductive CallbackPC where
  | idle
  | firing
  -- about to take `stop_mu_`
  | notifying

/-- `run` has not yet executed `stop_requested_.store(false)`. -/
def RunPC.beforeClear : RunPC → Prop
  | .checkingTransport | .clearingInitialized | .clearingStop => True
  | _ => False

def RunPC.atWait : RunPC → Prop
  | .waiting | .asleep => True
  | _ => False

structure State where
  run : RunPC
  stop : StopPC
  initialized : Bool
  stopRequested : Bool
  -- the Session
  made : Bool
  started : Bool
  closed : Bool
  onClosed : Bool
  closedCbFired : Bool
  callback : CallbackPC

def State.isOpen (s : State) : Bool := s.started && !s.closed

/-- What `run` waits for. -/
def State.predicate (s : State) : Bool := s.stopRequested || !s.isOpen

/-- `stop_cv_.notify_all()`. -/
def State.notify (s : State) : State :=
  match s.run with
  | .asleep => { s with run := .waiting }
  | _ => s

/-- The section of `stop`. -/
def State.stopSection (s : State) : State := { s with stopRequested := true }.notify

/-- `wait` up to where it returns or blocks. -/
def State.evaluate (s : State) : State :=
  { s with run := if s.predicate then .closing else .asleep }

/-- The callback after its store: the hook is called once, if there is one. -/
def State.fireClosed (s : State) : State :=
  { s with
    closedCbFired := true
    callback := if !s.closedCbFired && s.onClosed then .notifying else .idle }

inductive Action where
  | checkTransport (null : Bool)
  | clearInitialized
  | clearStop
  | makeSession
  | publish
  | register
  | start
  | startThrow
  | evaluate
  | spurious
  | close
  | reset
  | stopCall
  | stopSection
  | stopReturn
  | storeClosed
  | fireClosed
  | notifyClosed

inductive Step (tasks : Bool) : State → Action → State → Prop where
  | checkTransport {s} (null : Bool) : s.run = .checkingTransport →
      Step tasks s (.checkTransport null)
        { s with run := if null then .thrown else .clearingInitialized }
  | clearInitialized {s} : s.run = .clearingInitialized →
      Step tasks s .clearInitialized { s with initialized := false, run := .clearingStop }
  | clearStop {s} : s.run = .clearingStop →
      Step tasks s .clearStop { s with stopRequested := false, run := .makingSession }
  | makeSession {s} : s.run = .makingSession →
      Step tasks s .makeSession { s with made := true, run := .publishing }
  | publish {s} : s.run = .publishing →
      Step tasks s .publish { s with run := .registering (registrations tasks) }
  | register {s r rest} : s.run = .registering (r :: rest) →
      Step tasks s .register { s with
        onClosed := match r with
          | .onClosed => true
          | _ => s.onClosed
        run := .registering rest }
  | registered {s} : s.run = .registering [] → Step tasks s .register { s with run := .starting }
  | start {s} : s.run = .starting →
      Step tasks s .start { s with started := true, closed := false, run := .waiting }
  -- std::thread may throw
  | startThrow {s} : s.run = .starting → Step tasks s .startThrow { s with run := .thrown }
  | evaluate {s} : s.run = .waiting → Step tasks s .evaluate s.evaluate
  | spurious {s} : s.run = .asleep → Step tasks s .spurious { s with run := .waiting }
  | close {s} : s.run = .closing → Step tasks s .close { s with closed := true, run := .resetting }
  | reset {s} : s.run = .resetting → Step tasks s .reset { s with run := .returned }
  | stopCall {s} : s.stop = .uncalled → Step tasks s .stopCall { s with stop := .locking }
  | stopSection {s} : s.stop = .locking →
      Step tasks s .stopSection { s.stopSection with stop := .unlocking }
  | stopReturn {s} : s.stop = .unlocking → Step tasks s .stopReturn { s with stop := .returned }
  | storeClosed {s} : s.made = true → s.callback = .idle →
      Step tasks s .storeClosed { s with closed := true, callback := .firing }
  | fireClosed {s} : s.callback = .firing → Step tasks s .fireClosed s.fireClosed
  | notifyClosed {s} : s.callback = .notifying →
      Step tasks s .notifyClosed { s.notify with callback := .idle }

/-- `run` has been entered and `stop` not yet called; an earlier run may have left either flag
set. -/
def machine (tasks : Bool) : System State Action where
  Initial s := s.run = .checkingTransport ∧ s.stop = .uncalled ∧ s.made = false ∧
    s.started = false ∧ s.closed = false ∧ s.onClosed = false ∧ s.closedCbFired = false ∧
    s.callback = .idle
  Step := Step tasks

/-- The section of `stop` comes after the store with which `run` clears the flag. -/
def Late (s : State) : Action → Prop
  | .stopSection => ¬ s.run.beforeClear
  | _ => True

variable {tasks : Bool} {s s' s₀ s₁ : State} {a : Action}

/-- A notification moves `run` out of its sleep and touches nothing else. -/
theorem notify_cases (s : State) :
    (s.run = .asleep ∧ s.notify = { s with run := .waiting }) ∨
      (s.run ≠ .asleep ∧ s.notify = s) := by
  unfold State.notify
  split
  · next h => exact .inl ⟨h, rfl⟩
  · next h => exact .inr ⟨h, rfl⟩

theorem notify_frame (s : State) :
    s.notify.stop = s.stop ∧ s.notify.stopRequested = s.stopRequested ∧
      (s.notify.run.beforeClear ↔ s.run.beforeClear) ∧ s.notify.run ≠ .asleep := by
  rcases notify_cases s with ⟨hrun, he⟩ | ⟨hrun, he⟩
  · simp [he, hrun, RunPC.beforeClear]
  · simp [he, hrun]

/-- The section of `stop` has been executed. -/
def StopPC.pastSection : StopPC → Prop
  | .unlocking | .returned => True
  | _ => False

/-- The request stands, and `run` does not sleep. -/
structure Kept (s : State) : Prop where
  requested : s.stopRequested = true
  cleared : ¬ s.run.beforeClear
  awake : s.run ≠ .asleep

/-- The request is wiped out, or will be. -/
structure Lost (s : State) : Prop where
  past : s.stop.pastSection
  wiped : s.run.beforeClear ∨ s.run = .thrown ∨ s.stopRequested = false

theorem kept_step (hs : Step tasks s a s') (hk : Kept s) : Kept s' := by
  obtain ⟨hreq, hclear, hawake⟩ := hk
  cases hs with
  | checkTransport _ h | clearInitialized h | clearStop h =>
    rw [h] at hclear
    exact absurd trivial hclear
  | evaluate h =>
    have hp : s.predicate = true := by simp [State.predicate, hreq]
    exact ⟨hreq, by simp [State.evaluate, hp, RunPC.beforeClear], by simp [State.evaluate, hp]⟩
  | spurious h => exact absurd h hawake
  | stopSection h =>
    obtain ⟨-, hr, hb, ha⟩ := notify_frame { s with stopRequested := true }
    exact ⟨hr, fun hb' => hclear (hb.mp hb'), ha⟩
  | notifyClosed h =>
    obtain ⟨-, hr, hb, ha⟩ := notify_frame s
    exact ⟨hr.trans hreq, fun hb' => hclear (hb.mp hb'), ha⟩
  | stopCall h | stopReturn h | storeClosed h _ | fireClosed h => exact ⟨hreq, hclear, hawake⟩
  | _ => exact ⟨hreq, id, nofun⟩

theorem pastSection_step (hs : Step tasks s a s') (hp : s'.stop.pastSection) :
    s.stop.pastSection ∨ a = .stopSection := by
  cases hs with
  | stopSection _ => exact .inr rfl
  | stopCall _ => exact hp.elim
  | stopReturn h =>
    rw [h]
    exact .inl trivial
  | notifyClosed _ =>
    left
    simpa only [(notify_frame s).1] using hp
  | _ => exact .inl hp

theorem kept_reachable (h : (machine tasks).Reachable Late s) :
    s.stop.pastSection → Kept s := by
  refine h.invariant (P := fun s => s.stop.pastSection → Kept s) ?_ ?_
  · rintro s ⟨-, hstop, -⟩ hp
    rw [hstop] at hp
    exact hp.elim
  · intro s a s' _ ih hok hst hp
    rcases pastSection_step hst hp with hp | rfl
    · exact kept_step hst (ih hp)
    · cases hst with
      | stopSection _ =>
        obtain ⟨-, hr, hb, ha⟩ := notify_frame { s with stopRequested := true }
        exact ⟨hr, fun hb' => hok (hb.mp hb'), ha⟩

theorem lost_step (hs : Step tasks s a s') (hl : Lost s) : Lost s' := by
  obtain ⟨hpast, hwiped⟩ := hl
  cases hs with
  | stopCall h | stopSection h =>
    rw [h] at hpast
    exact hpast.elim
  | checkTransport null h =>
    cases null with
    | false => exact ⟨hpast, .inl trivial⟩
    | true => exact ⟨hpast, .inr (.inl rfl)⟩
  | clearInitialized _ => exact ⟨hpast, .inl trivial⟩
  | clearStop _ => exact ⟨hpast, .inr (.inr rfl)⟩
  | stopReturn _ => exact ⟨trivial, hwiped⟩
  | storeClosed _ _ | fireClosed _ => exact ⟨hpast, hwiped⟩
  | notifyClosed _ =>
    obtain ⟨hstop, hreq, hclear, -⟩ := notify_frame s
    constructor
    · rw [hstop]
      exact hpast
    · rcases hwiped with hb | ht | hr
      · exact .inl (hclear.mpr hb)
      · right
        left
        simp [State.notify, ht]
      · exact .inr (.inr (hreq.trans hr))
  | makeSession h | publish h | register h | registered h | start h | startThrow h | evaluate h
  | spurious h | close h | reset h =>
    -- the flag has been cleared, and stays so
    simp only [h, RunPC.beforeClear, reduceCtorEq, false_or] at hwiped
    exact ⟨hpast, .inr (.inr hwiped)⟩

theorem lost_run (hrun : (machine tasks).Run Free s s') (hl : Lost s) : Lost s' := by
  refine hrun.invariant (P := Lost) ?_ hl
  intro s a s' hl _ hst
  exact lost_step hst hl

/-- Where the request stands and `run` is at its wait, `run` is about to leave it. -/
theorem leaves_wait (hk : Kept s) (hwait : s.run.atWait) :
    s.predicate = true ∧ s.run = .waiting ∧ s.evaluate.run = .closing := by
  have hp : s.predicate = true := by simp [State.predicate, hk.requested]
  refine ⟨hp, ?_, by simp [State.evaluate, hp]⟩
  have hawake := hk.awake
  generalize s.run = pc at hwait hawake
  cases pc with
  | waiting => rfl
  | asleep => exact absurd rfl hawake
  | _ => exact hwait.elim

/-- Where the request is lost, only the end of the session makes the predicate true. -/
theorem predicate_of_lost (hl : Lost s) (hwait : s.run.atWait) : s.predicate = !s.isOpen := by
  have hwiped := hl.wiped
  have hreq : s.stopRequested = false := by
    generalize s.run = pc at hwait hwiped
    cases pc with
    | waiting | asleep => simpa [RunPC.beforeClear] using hwiped
    | _ => exact hwait.elim
  simp [State.predicate, hreq]

section Prologue

variable (tasks : Bool) (ok : State → Action → Prop) (hok : ∀ s a, a ≠ .stopSection → ok s a)
include hok

/-- The registrations come to an end. -/
theorem register_run (rest : List Registration) (s : State) :
    ∃ onClosed, (machine tasks).Run ok { s with run := .registering rest }
      { s with onClosed, run := .starting } := by
  induction rest generalizing s with
  | nil => exact ⟨_, .step .refl (hok _ .register nofun) (.registered rfl)⟩
  | cons r rest ih =>
    obtain ⟨onClosed, hrun⟩ := ih { s with
      onClosed := match r with
        | .onClosed => true
        | _ => s.onClosed }
    exact ⟨onClosed, .trans (.step .refl (hok _ .register nofun) (.register rfl)) hrun⟩

/-- Left alone, `run` comes from the store to its wait. -/
theorem prologue_run (hs : s.run = .clearingStop) :
    ∃ s', (machine tasks).Run ok s s' ∧ s'.run = .waiting ∧ s'.stop = s.stop ∧
      s'.isOpen = true := by
  have h₁ : (machine tasks).Run ok s _ := .step .refl (hok _ .clearStop nofun) (.clearStop hs)
  have h₂ := h₁.step (hok _ .makeSession nofun) (.makeSession rfl)
  have h₃ := h₂.step (hok _ .publish nofun) (.publish rfl)
  obtain ⟨onClosed, hreg⟩ := register_run tasks ok hok (registrations tasks)
    { s with stopRequested := false, made := true }
  exact ⟨_, (h₃.trans hreg).step (hok _ .start nofun) (.start rfl), rfl, rfl, rfl⟩

/-- Left alone, `run` comes from anywhere before the store to its wait. -/
theorem entry_run (hs : s.run.beforeClear) :
    ∃ s', (machine tasks).Run ok s s' ∧ s'.run = .waiting ∧ s'.stop = s.stop ∧
      s'.isOpen = true := by
  have hclear : ∃ s', (machine tasks).Run ok s s' ∧ s'.run = .clearingStop ∧
      s'.stop = s.stop := by
    cases hpc : s.run with
    | checkingTransport =>
      have h₁ : (machine tasks).Run ok s _ :=
        .step .refl (hok _ (.checkTransport false) nofun) (.checkTransport false hpc)
      exact ⟨_, h₁.step (hok _ .clearInitialized nofun) (.clearInitialized rfl), rfl, rfl⟩
    | clearingInitialized =>
      exact ⟨_, .step .refl (hok _ .clearInitialized nofun) (.clearInitialized hpc), rfl, rfl⟩
    | clearingStop => exact ⟨s, .refl, hpc, rfl⟩
    | _ =>
      rw [hpc] at hs
      exact hs.elim
  obtain ⟨s₁, hentry, hs₁, hstop₁⟩ := hclear
  obtain ⟨s', hrun, hwait, hstop, hopen⟩ := prologue_run tasks ok hok hs₁
  exact ⟨s', hentry.trans hrun, hwait, hstop.trans hstop₁, hopen⟩

end Prologue

/-- If the section of `stop` comes after the store that clears the flag, then wherever `stop` has
returned and `run` is at its wait the predicate is true, and `run` is not asleep there: it leaves
the wait when it evaluates the predicate. If it comes before, the request is lost: nothing but the
end of the session makes the predicate true, and `run` can come to its wait with the session
open. -/
theorem stop_request_kept (tasks : Bool) :
    (∀ s, (machine tasks).Reachable Late s → s.stop = .returned → s.run.atWait →
      s.predicate = true ∧ s.run = .waiting ∧ s.evaluate.run = .closing) ∧
    ∀ s₀ s₁, Step tasks s₀ .stopSection s₁ → s₀.run.beforeClear →
      (∀ s, (machine tasks).Run Free s₁ s → s.run.atWait → s.predicate = !s.isOpen) ∧
      ∃ s, (machine tasks).Run Free s₁ s ∧ s.stop = .returned ∧ s.run.atWait ∧
        s.isOpen = true := by
  constructor
  · intro s h hstop hwait
    exact leaves_wait (kept_reachable h (by rw [hstop]; trivial)) hwait
  · intro s₀ s₁ hsection hbefore
    cases hsection with
    | stopSection hlocking =>
      have hb : s₀.stopSection.run.beforeClear :=
        (notify_frame { s₀ with stopRequested := true }).2.2.1.mpr hbefore
      constructor
      · intro s hrun hwait
        exact predicate_of_lost (lost_run hrun ⟨trivial, .inl hb⟩) hwait
      · obtain ⟨s, hrun, hwait, hstop, hopen⟩ := entry_run tasks Free
          (s := { s₀.stopSection with stop := .returned }) (fun _ _ _ => trivial) hb
        refine ⟨s, .trans (.step .refl trivial (.stopReturn rfl)) hrun, hstop, ?_, hopen⟩
        rw [hwait]
        trivial

/-- `run` has just been entered. -/
def entered : State where
  run := .checkingTransport
  stop := .uncalled
  initialized := false
  stopRequested := false
  made := false
  started := false
  closed := false
  onClosed := false
  closedCbFired := false
  callback := .idle

theorem entered_initial : (machine false).Initial entered :=
  ⟨rfl, rfl, rfl, rfl, rfl, rfl, rfl, rfl⟩

theorem reachable_step {ok : State → Action → Prop} (h : (machine tasks).Reachable ok s)
    (ha : ok s a) (hs : Step tasks s a s') : (machine tasks).Reachable ok s' := h.step ha hs

/-- A request that comes when `run` is at its wait. -/
theorem late_stop_kept : ∃ s : State, s.stop = .returned ∧ s.run = .waiting ∧
    s.predicate = true := by
  obtain ⟨s, hrun, hwait, hstop, -⟩ := entry_run false Late (s := entered)
    (fun _ a ha => by cases a <;> trivial) trivial
  have h₀ : (machine false).Reachable Late s := ⟨entered, entered_initial, hrun⟩
  have h₁ := reachable_step (a := .stopCall) h₀ trivial (.stopCall hstop)
  have h₂ := reachable_step (a := .stopSection) h₁ (by simp [Late, hwait, RunPC.beforeClear])
    (.stopSection rfl)
  have h₃ := reachable_step (a := .stopReturn) h₂ trivial (.stopReturn rfl)
  have hpc : ({ s with stop := .locking } : State).stopSection.run = .waiting := by
    simp [State.stopSection, State.notify, hwait]
  obtain ⟨hp, hpc', -⟩ := (stop_request_kept false).1 _ h₃ rfl (by
    dsimp only
    rw [hpc]
    trivial)
  exact ⟨_, rfl, hpc', hp⟩

/-- `stop` is called as soon as `run` has been entered, and `run` falls asleep. -/
theorem early_stop_lost : ∃ s : State, (machine false).Reachable Free s ∧ s.stop = .returned ∧
    s.run = .asleep ∧ s.predicate = false := by
  have h₀ : (machine false).Reachable Free entered := .initial entered_initial
  have h₁ := reachable_step (a := .stopCall) h₀ trivial (.stopCall rfl)
  have h₂ := reachable_step (a := .stopSection) h₁ trivial (.stopSection rfl)
  have h₃ := reachable_step (a := .stopReturn) h₂ trivial (.stopReturn rfl)
  obtain ⟨s, hrun, hwait, hstop, hopen⟩ := entry_run false Free
    (s := { entered with stop := .returned, stopRequested := true }) (fun _ _ _ => trivial) trivial
  have hl : Lost s := lost_run hrun ⟨trivial, .inl trivial⟩
  have hp : s.predicate = false := by
    rw [predicate_of_lost hl (by rw [hwait]; trivial), hopen]
    rfl
  have h₄ := reachable_step (a := .evaluate) (h₃.run hrun) trivial (.evaluate hwait)
  refine ⟨_, h₄, hstop, by simp [State.evaluate, hp], hp⟩

end Mcp.Server.Stopping
