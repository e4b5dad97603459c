import Mcp.Session.Workers

/-! What the Session writes to its transport. A send has two halves: it finds `running_` set, and
then it writes. -/
namespace Mcp.Session

open Transition

/-- A call of `send_message`: a request's, in its thread, or a notification's, by its number. -/
inductive Sender where
  | request (t : Thread)
  | notification (n : ℕ)
  deriving DecidableEq

/-- A Session over a stdio transport. -/
structure Traffic (V : Type) where
  session : State V
  running : Bool
  /-- Senders that have found `running_` set and are not back yet. -/
  writing : Sender → Bool
  /-- The frames written so far. -/
  wire : List JsonRpcMessage

variable {V : Type}

def Traffic.setWriting (s : Traffic V) (x : Sender) (b : Bool) : Traffic V :=
  { s with writing := Function.update s.writing x b }

/-- Before the transport is started it is not running. -/
def Traffic.fresh (V : Type) : Traffic V where
  session := Session.fresh V
  running := false
  writing _ := false
  wire := []

/-- The steps of the Session that do not call the transport. -/
def Action.isLocal : Action → Prop
  | .startTransport _ => False
  | .closeTransport _ => False
  | .sendOk _ => False
  | .sendThrow _ _ => False
  | _ => True

inductive TrafficAction where
  | session (a : Action)
  | transportStart (t : Thread) (opened : Bool)
  | transportClose (t : Thread)
  | check (x : Sender)
  | write (x : Sender)
  | fail (x : Sender) (e : Exception)

/-- `notes n` is the notification of the `n`-th sender. -/
inductive TrafficStep (opts : Options) (calls : ℕ → Call V) (notes : ℕ → JsonRpcNotification) :
    Traffic V → TrafficAction → Traffic V → Prop where
  | session {s a σ} : Step opts calls s.session a σ → a.isLocal →
      TrafficStep opts calls notes s (.session a) { s with session := σ }
  -- running_ is set again if the wake-up pipe cannot be made
  | transportStart {s t σ opened} : Step opts calls s.session (.startTransport t) σ →
      TrafficStep opts calls notes s (.transportStart t opened)
        { s with session := σ, running := s.running || opened }
  | transportClose {s t first σ} : s.session.pc t = .closingTransport first →
      Step opts calls s.session (.closeTransport t) σ →
      TrafficStep opts calls notes s (.transportClose t)
        { s with session := σ, running := s.running && !first }
  | checkRequest {s t k} : s.session.pc t = .sending k → s.running = true →
      TrafficStep opts calls notes s (.check (.request t)) (s.setWriting (.request t) true)
  | checkNotification {s n} : s.running = true →
      TrafficStep opts calls notes s (.check (.notification n))
        (s.setWriting (.notification n) true)
  | writeRequest {s t k σ} : s.session.pc t = .sending k → s.writing (.request t) = true →
      Step opts calls s.session (.sendOk t) σ →
      TrafficStep opts calls notes s (.write (.request t))
        ({ s with
            session := σ
            wire := s.wire ++ [JsonRpcMessage.request (requestOf k (calls k))] }.setWriting
          (.request t) false)
  | writeNotification {s n} : s.writing (.notification n) = true →
      TrafficStep opts calls notes s (.write (.notification n))
        ({ s with wire := s.wire ++ [JsonRpcMessage.notification (notes n)] }.setWriting
          (.notification n) false)
  -- not running, a newline in the frame, a failed write, or a dump that throws
  | failRequest {s t e σ} : Step opts calls s.session (.sendThrow t e) σ →
      TrafficStep opts calls notes s (.fail (.request t) e)
        ({ s with session := σ }.setWriting (.request t) false)
  | failNotification {s n e} :
      TrafficStep opts calls notes s (.fail (.notification n) e)
        (s.setWriting (.notification n) false)

def traffic (opts : Options) (calls : ℕ → Call V) (notes : ℕ → JsonRpcNotification) :
    System (Traffic V) TrafficAction where
  Initial s := s = Traffic.fresh V
  Step := TrafficStep opts calls notes

/-- In start(). -/
def PC.inStart : PC → Prop
  | .starting => True
  | .spawningTimer => True
  | .startingTransport => True
  | _ => False

/-- start() has returned. -/
def Started (s : State V) : Prop := s.started = true ∧ ∀ u, ¬ (s.pc u).inStart

/-- Only a started session is closed. -/
def OnStarted (s : Traffic V) : TrafficAction → Prop
  | .session (.closeCall _) => Started s.session
  | _ => True

/-- And `closed_` is not set when close() is called, unless the transport has been closed. -/
def Honest (s : Traffic V) (a : TrafficAction) : Prop :=
  OnStarted s a ∧ ∀ t, a = .session (.closeCall t) →
    s.session.closed = false ∨ s.session.transportClosed = true

section Sessions

variable {opts : Options} {calls : ℕ → Call V} {s s' : State V} {a : Action} {t u : Thread}

/-- In close(), before the call of the transport's close(). -/
def PC.closing : PC → Prop
  | .cancelling _ => True
  | .rejecting _ _ (.draining _) => True
  | .draining _ => True
  | .closingTransport _ => True
  | _ => False

/-- Nothing takes the claim of start() back. -/
theorem started_step (hs : Step opts calls s a s') (h : s.started = true) : s'.started = true := by
  cases hs with
  | startClaim _ _ => rfl
  | park _ => exact (park_untouched ..).started.trans h
  | pull _ => exact (pull_untouched ..).started.trans h
  | response _ => exact (takeResponse_untouched ..).started.trans h
  | timerSection _ | timerWake _ => exact (timeoutSection_untouched s).started.trans h
  | _ => exact h

/-- start() is entered by the claim alone. -/
theorem inStart_step (hs : Step opts calls s a s') (hu : (s'.pc u).inStart) :
    (s.pc u).inStart ∨ s.started = false := by
  rcases pc_enter hs hu with hu | hf
  · exact .inl hu
  · generalize s.pc u = p at hf ⊢
    generalize s'.pc u = q at hf hu
    cases hf with
    | startClaim =>
      cases hs with
      | startClaim _ hfree => exact .inr hfree
    | startClear | startTimer => exact .inl trivial
    | @rejected _ _ next => cases next <;> exact hu.elim
    | _ => exact hu.elim

theorem Started.step (h : Started s) (hs : Step opts calls s a s') : Started s' := by
  refine ⟨started_step hs h.1, ?_⟩
  intro u hu
  rcases inStart_step hs hu with hu | hfree
  · exact h.2 u hu
  · simp [h.1] at hfree

theorem closing_step (hs : Step opts calls s a s') (hu : (s'.pc u).closing) :
    (s.pc u).closing ∨ ∃ t, a = .closeCall t := by
  rcases pc_enter hs hu with hu | hf
  · exact .inl hu
  · generalize s.pc u = p at hf ⊢
    generalize s'.pc u = q at hf hu
    cases hf with
    | closeCall => exact .inr ⟨_, rfl⟩
    | closeCancel | closeDrained => exact .inl trivial
    | @reject _ _ _ _ next | @rejected _ _ next =>
      cases next with
      | draining first => exact .inl trivial
      | idle | storingClosed | locking => exact hu.elim
    | _ => exact hu.elim

/-- The transport is closed at one statement only. -/
theorem transportClosed_enter (hs : Step opts calls s a s') (hc : s'.transportClosed = true) :
    s.transportClosed = true ∨ ∃ t, a = .closeTransport t ∧ s.pc t = .closingTransport true := by
  cases hs with
  | park _ => exact .inl ((park_untouched ..).transportClosed.symm.trans hc)
  | pull _ => exact .inl ((pull_untouched ..).transportClosed.symm.trans hc)
  | response _ => exact .inl ((takeResponse_untouched ..).transportClosed.symm.trans hc)
  | timerSection _ | timerWake _ =>
    exact .inl ((timeoutSection_untouched s).transportClosed.symm.trans hc)
  | @closeTransport t first hpc =>
    cases first with
    | false => exact .inl (by simpa [State.setPC] using hc)
    | true => exact .inr ⟨t, rfl, hpc⟩
  | _ => exact .inl hc

/-- What holds of a started session if close() is called as it should be. -/
structure Closers (s : State V) : Prop where
  closing : ∀ u, (s.pc u).closing → Started s
  second : ∀ u, (s.pc u).second → s.transportClosed = true
  past : ∀ u, (s.pc u).pastTransport → s.transportClosed = true
  started : s.transportClosed = true → Started s

theorem closers_fresh : Closers (fresh V) := by
  have hpc : ∀ u, (fresh V).pc u = .unborn ∨ (fresh V).pc u = .idle := by
    intro u
    cases u with
    | timer => exact .inl rfl
    | app _ => exact .inr rfl
  refine ⟨?_, ?_, ?_, nofun⟩
  all_goals
    intro u
    rcases hpc u with h | h <;> simp [h, PC.closing, PC.second, PC.pastTransport]

theorem closers_step (hs : Step opts calls s a s')
    (hcall : ∀ t, a = .closeCall t → Started s ∧ (s.closed = false ∨ s.transportClosed = true))
    (h : Closers s) : Closers s' := by
  constructor
  · intro u hu
    rcases closing_step hs hu with hu | ⟨t, ht⟩
    · exact (h.closing u hu).step hs
    · exact (hcall t ht).1.step hs
  · intro u hu
    rcases second_enter hs hu with hu | ⟨ht, hclosed⟩
    · exact transportClosed_step hs (h.second u hu)
    · rcases (hcall u ht).2 with hopen | hc
      · simp [hclosed] at hopen
      · exact transportClosed_step hs hc
  · intro u hu
    rcases pastTransport_step hs hu with hu | hu | hc
    · exact transportClosed_step hs (h.past u hu)
    · exact transportClosed_step hs (h.second u hu)
    · exact hc
  · intro hc
    rcases transportClosed_enter hs hc with hc | ⟨t, -, hpc⟩
    · exact (h.started hc).step hs
    · have hclosing : (s.pc t).closing := by simp [hpc, PC.closing]
      exact (h.closing t hclosing).step hs

end Sessions

section Runs

variable {opts : Options} {calls : ℕ → Call V} {notes : ℕ → JsonRpcNotification}
  {s s' s'' : Traffic V} {a : TrafficAction} {t : Thread} {x : Sender}

/-- A step of the traffic is a step of the Session, or none. -/
theorem session_of_step (hs : TrafficStep opts calls notes s a s') : s'.session = s.session ∨
    ∃ b, Step opts calls s.session b s'.session ∧
      ∀ t, b = .closeCall t → a = .session (.closeCall t) := by
  cases hs with
  | session hb _ => exact .inr ⟨_, hb, fun t ht => by rw [ht]⟩
  | transportStart hb | transportClose _ hb | writeRequest _ _ hb | failRequest hb =>
    exact .inr ⟨_, hb, nofun⟩
  | checkRequest _ _ | checkNotification _ | writeNotification _ | failNotification =>
    exact .inl rfl

theorem traffic_step {ok : Traffic V → TrafficAction → Prop}
    (h : (traffic opts calls notes).Reachable ok s) (ha : ok s a)
    (hs : TrafficStep opts calls notes s a s') : (traffic opts calls notes).Reachable ok s' :=
  h.step ha hs

/-- A closed transport does not run. -/
structure Sound (s : Traffic V) : Prop where
  closers : Closers s.session
  stopped : s.session.transportClosed = true → s.running = false

theorem running_step (hs : TrafficStep opts calls notes s a s') (hstart : Started s.session)
    (h : s.running = false) : s'.running = false := by
  cases hs with
  | @transportStart t σ opened hb =>
    cases hb with
    | startTransport hpc => exact absurd (by simp [hpc, PC.inStart]) (hstart.2 t)
  | transportClose _ _ => simp [h]
  | _ => exact h

theorem sound_step (hs : TrafficStep opts calls notes s a s') (hok : Honest s a) (h : Sound s) :
    Sound s' := by
  constructor
  · rcases session_of_step hs with he | ⟨b, hb, hcall⟩
    · rw [he]
      exact h.closers
    · refine closers_step hb ?_ h.closers
      intro t ht
      obtain rfl := hcall t ht
      exact ⟨hok.1, hok.2 t rfl⟩
  · intro hc
    by_cases hc₀ : s.session.transportClosed = true
    · exact running_step hs (h.closers.started hc₀) (h.stopped hc₀)
    · -- the call of the transport's close() is this step
      cases hs with
      | @session a σ hb hlocal =>
        rcases transportClosed_enter hb hc with hc | ⟨t, rfl, -⟩
        · exact absurd hc hc₀
        · exact hlocal.elim
      | @transportClose t first σ hpc hb =>
        rcases transportClosed_enter hb hc with hc | ⟨t', he, hfirst⟩
        · exact absurd hc hc₀
        · cases he
          cases hpc.symm.trans hfirst
          simp
      | transportStart hb | writeRequest _ _ hb | failRequest hb =>
        rcases transportClosed_enter hb hc with hc | ⟨t', he, -⟩
        · exact absurd hc hc₀
        · cases he
      | checkRequest _ _ | checkNotification _ | writeNotification _ | failNotification =>
        exact absurd hc hc₀

theorem sound_reachable (h : (traffic opts calls notes).Reachable Honest s) : Sound s := by
  refine h.invariant (P := Sound) ?_ (fun _ _ _ _ hp hok hst => sound_step hst hok hp)
  rintro s rfl
  exact ⟨closers_fresh, nofun⟩

/-- A sender that writes has passed the check. -/
theorem writing_step (hs : TrafficStep opts calls notes s a s') (h : s.running = false)
    (hx : s'.writing x = true) : s.writing x = true := by
  have hback : ∀ {y : Sender}, Function.update s.writing y false x = true → s.writing x = true := by
    intro y hy
    by_cases he : x = y
    · subst x
      simp at hy
    · simpa [he] using hy
  cases hs with
  | checkRequest _ hr | checkNotification hr => simp [h] at hr
  | writeRequest _ _ _ | writeNotification _ | failRequest _ | failNotification => exact hback hx
  | session _ _ | transportStart _ | transportClose _ _ => exact hx

/-- Nothing runs any more, and those in `before` are still writing at most. -/
structure Silent (before : Sender → Bool) (s : Traffic V) : Prop where
  started : Started s.session
  stopped : s.running = false
  writing : ∀ x, s.writing x = true → before x = true

theorem silent_step {before : Sender → Bool} (hs : TrafficStep opts calls notes s a s')
    (h : Silent before s) : Silent before s' := by
  refine ⟨?_, running_step hs h.started h.stopped, ?_⟩
  · rcases session_of_step hs with he | ⟨b, hb, -⟩
    · rw [he]
      exact h.started
    · exact h.started.step hb
  · intro x hx
    exact h.writing x (writing_step hs h.stopped hx)

/-- When a call of close() returns the transport is closed: no sender passes the check any more,
and what is written still is of those that had passed it. -/
theorem no_send_after_close (h : (traffic opts calls notes).Reachable Honest s)
    (hret : TrafficStep opts calls notes s (.session (.closeReturn t)) s')
    (hrun : (traffic opts calls notes).Run Free s' s'') :
    s'.session.transportClosed = true ∧
    (∀ x s₃, ¬ TrafficStep opts calls notes s'' (.check x) s₃) ∧
    (∀ x s₃, TrafficStep opts calls notes s'' (.write x) s₃ → s'.writing x = true) := by
  have hsound := sound_reachable h
  have hsound' := sound_step hret ⟨trivial, nofun⟩ hsound
  have hclosed : s'.session.transportClosed = true := by
    cases hret with
    | session hb _ =>
      refine transportClosed_step hb (hsound.closers.past t ?_)
      cases hb with
      | closeReturn hpc _ =>
        rw [hpc]
        trivial
  have hsilent : Silent s'.writing s'' := by
    refine hrun.invariant (P := Silent s'.writing) (fun _ _ _ hp _ hst => silent_step hst hp) ?_
    exact ⟨hsound'.closers.started hclosed, hsound'.stopped hclosed, fun _ => id⟩
  refine ⟨hclosed, ?_, ?_⟩
  · intro x s₃ hst
    cases hst with
    | checkRequest _ hr | checkNotification hr => simp [hsilent.stopped] at hr
  · intro x s₃ hst
    apply hsilent.writing
    cases hst with
    | writeRequest _ hw _ | writeNotification hw => exact hw

/-- A thread in close() that finds the transport open and leaves it so. -/
structure Forgetful (t : Thread) (pc : PC) (s : Traffic V) : Prop where
  pc : s.session.pc t = pc
  closed : s.session.closed = true
  transportOpen : s.session.transportClosed = false
  running : s.running = true
  workers : s.session.workersRunning = 0
  timer : s.session.pc .timer = .exited ∨ ∃ until?, s.session.pc .timer = .waiting until?

theorem Forgetful.ne_timer {pc : PC} (h : Forgetful t pc s)
    (hpc : pc ≠ .exited ∧ ∀ until?, pc ≠ .waiting until?) : Thread.timer ≠ t := by
  rintro rfl
  rcases h.timer with ht | ⟨until?, ht⟩
  · exact hpc.1 (h.pc.symm.trans ht)
  · exact hpc.2 until? (h.pc.symm.trans ht)

/-- Its next stage is reached while all others stand still. -/
theorem Forgetful.move (notes : ℕ → JsonRpcNotification) {b : Action} {σ : State V} {pc pc' : PC}
    (h : Forgetful t pc s) (hst : Step opts calls s.session b σ) (hb : b.isLocal)
    (hok : OnStarted s (.session b)) (hpc : pc ≠ .exited ∧ ∀ until?, pc ≠ .waiting until?)
    (hσ : σ.closed = true ∧ σ.transportClosed = false ∧ σ.workersRunning = 0)
    (hmove : σ.pc = Function.update s.session.pc t pc') :
    ∃ s', (traffic opts calls notes).Run OnStarted s s' ∧ Forgetful t pc' s' := by
  refine ⟨_, .step (a := .session b) .refl hok (.session hst hb), ?_⟩
  constructor
  · simp [hmove]
  · exact hσ.1
  · exact hσ.2.1
  · exact h.running
  · exact hσ.2.2
  · simp only [hmove, Function.update_of_ne (h.ne_timer hpc)]
    exact h.timer

/-- It rejects what it took out, and goes on. -/
theorem forgetful_reject (opts : Options) (calls : ℕ → Call V) (notes : ℕ → JsonRpcNotification)
    {e : Exception} {next : After} {ks : List ℕ} :
    ∀ {s : Traffic V}, Forgetful t (.rejecting ks e next) s →
      ∃ s', (traffic opts calls notes).Run OnStarted s s' ∧ Forgetful t next.pc s' := by
  induction ks with
  | nil =>
    intro s h
    exact h.move notes (.rejected h.pc) trivial trivial (by simp)
      ⟨h.closed, h.transportOpen, h.workers⟩ rfl
  | cons k ks ih =>
    intro s h
    have hreject : Step opts calls s.session (.reject t) _ := .reject h.pc
    obtain ⟨s₁, r₁, h₁⟩ := h.move notes hreject trivial trivial (by simp)
      ⟨h.closed, h.transportOpen, h.workers⟩ rfl
    obtain ⟨s₂, r₂, h₂⟩ := ih h₁
    exact ⟨s₂, r₁.trans r₂, h₂⟩

/-- It passes the call of the transport's close(). -/
theorem Forgetful.skip (opts : Options) (calls : ℕ → Call V) (notes : ℕ → JsonRpcNotification)
    (h : Forgetful t (.closingTransport false) s) :
    ∃ s', (traffic opts calls notes).Run OnStarted s s' ∧ Forgetful t .notifying s' := by
  refine ⟨_, .step (a := .transportClose t) .refl trivial
    (.transportClose h.pc (.closeTransport h.pc)), ?_⟩
  constructor
  · simp
  · exact h.closed
  · simp [State.setPC, h.transportOpen]
  · simp [h.running]
  · exact h.workers
  · simpa [h.ne_timer (by simp)] using h.timer

/-- It comes to its last wait. -/
theorem forgetful_joining (opts : Options) (calls : ℕ → Call V) (notes : ℕ → JsonRpcNotification)
    (hstart : Started s.session) (h : Forgetful t .idle s) :
    ∃ s', (traffic opts calls notes).Run OnStarted s s' ∧ Forgetful t .joining s' := by
  have hcall : Step opts calls s.session (.closeCall t) _ := .closeCall h.pc
  simp only [h.closed, Bool.not_true] at hcall
  obtain ⟨s₁, r₁, h₁⟩ := h.move notes hcall trivial hstart (by simp)
    ⟨rfl, h.transportOpen, h.workers⟩ rfl
  have hcancel : Step opts calls s₁.session (.closeCancel t) _ := .closeCancel h₁.pc
  obtain ⟨s₂, r₂, h₂⟩ := h₁.move notes hcancel trivial trivial (by simp)
    ⟨h₁.closed, h₁.transportOpen, h₁.workers⟩ rfl
  obtain ⟨s₃, r₃, h₃⟩ := forgetful_reject opts calls notes h₂
  have hdrained : Step opts calls s₃.session (.closeDrained t) _ := .closeDrained h₃.pc h₃.workers
  obtain ⟨s₄, r₄, h₄⟩ := h₃.move notes hdrained trivial trivial (by simp [After.pc])
    ⟨h₃.closed, h₃.transportOpen, h₃.workers⟩ rfl
  obtain ⟨s₅, r₅, h₅⟩ := h₄.skip opts calls notes
  have hnotify : Step opts calls s₅.session (.closeNotify t) _ := .closeNotify h₅.pc
  obtain ⟨s₆, r₆, h₆⟩ := h₅.move notes hnotify trivial trivial (by simp)
    ⟨h₅.closed, h₅.transportOpen, h₅.workers⟩ rfl
  exact ⟨s₆, ((((r₁.trans r₂).trans r₃).trans r₄).trans r₅).trans r₆, h₆⟩

/-- A close() that finds `closed_` set over an open transport can return and leave it open, so
that a later notification is written. -/
theorem close_leaves_running (n : ℕ) (hr : (traffic opts calls notes).Reachable OnStarted s)
    (hstart : Started s.session) (h : Forgetful t .idle s) :
    ∃ s₁ s₂ s₃, (traffic opts calls notes).Reachable OnStarted s₁ ∧
      TrafficStep opts calls notes s₁ (.session (.closeReturn t)) s₂ ∧
      s₂.session.transportClosed = false ∧ (traffic opts calls notes).Run Free s₂ s₃ ∧
      s₃.wire = s₂.wire ++ [JsonRpcMessage.notification (notes n)] := by
  obtain ⟨s₀, r₀, h₀⟩ := forgetful_joining opts calls notes hstart h
  have hexit : ∃ s₁, (traffic opts calls notes).Run OnStarted s₀ s₁ ∧ Forgetful t .joining s₁ ∧
      s₁.session.pc .timer = .exited := by
    rcases h₀.timer with ht | ⟨until?, ht⟩
    · exact ⟨s₀, .refl, h₀, ht⟩
    · have hwake : Step opts calls s₀.session .timerWake _ := .timerWake ht
      simp only [State.timeoutSection, h₀.closed, if_true] at hwake
      refine ⟨_, .step (a := .session .timerWake) .refl trivial (.session hwake trivial), ?_, ?_⟩
      · refine ⟨?_, h₀.closed, h₀.transportOpen, h₀.running, h₀.workers, .inl ?_⟩
        · simpa [(h₀.ne_timer (by simp)).symm] using h₀.pc
        · simp
      · simp
  obtain ⟨s₁, r₁, h₁, ht⟩ := hexit
  have hret : TrafficStep opts calls notes s₁ (.session (.closeReturn t))
      { s₁ with session := s₁.session.setPC t .idle } :=
    .session (.closeReturn h₁.pc (.inr ht)) trivial
  refine ⟨s₁, _, _, hr.run (r₀.trans r₁), hret, h₁.transportOpen,
    .step (a := .write (.notification n))
      (.step (a := .check (.notification n)) .refl trivial (.checkNotification h₁.running)) trivial
      (.writeNotification ?_), rfl⟩
  simp [Traffic.setWriting]

/-- The notification that the runs below send. -/
def initialized : JsonRpcNotification where
  method := "notifications/initialized"
  params := none

/-- A session that is started and closed once: nothing passes the check. -/
theorem closed_once : ∃ s : Traffic Json, s.session.transportClosed = true ∧
    ∀ x s', ¬ TrafficStep {} (fun _ => ping) (fun _ => initialized) s (.check x) s' := by
  have h₀ : (traffic {} (fun _ => ping) (fun _ => initialized)).Reachable Honest
      (Traffic.fresh Json) := .initial rfl
  have h₁ := traffic_step (a := .session (.startClaim (.app 0))) h₀ ⟨trivial, nofun⟩
    (.session (.startClaim rfl rfl) trivial)
  have h₂ := traffic_step (a := .session (.startClear (.app 0))) h₁ ⟨trivial, nofun⟩
    (.session (.startClear rfl) trivial)
  have h₃ := traffic_step (a := .session (.startTimer (.app 0))) h₂ ⟨trivial, nofun⟩
    (.session (.startTimer rfl rfl) trivial)
  have h₄ := traffic_step (a := .transportStart (.app 0) true) h₃ ⟨trivial, nofun⟩
    (.transportStart (.startTransport rfl))
  have h₅ := traffic_step (a := .session (.closeCall (.app 0))) h₄
    ⟨⟨rfl, fun u => by rcases u with _ | _ | n <;> exact id⟩, fun _ _ => .inl rfl⟩
    (.session (.closeCall rfl) trivial)
  have h₆ := traffic_step (a := .session (.closeCancel (.app 0))) h₅ ⟨trivial, nofun⟩
    (.session (.closeCancel rfl) trivial)
  have h₇ := traffic_step (a := .session (.rejected (.app 0))) h₆ ⟨trivial, nofun⟩
    (.session (.rejected rfl) trivial)
  have h₈ := traffic_step (a := .session (.closeDrained (.app 0))) h₇ ⟨trivial, nofun⟩
    (.session (.closeDrained rfl rfl) trivial)
  have h₉ := traffic_step (a := .transportClose (.app 0)) h₈ ⟨trivial, nofun⟩
    (.transportClose rfl (.closeTransport rfl))
  have h₁₀ := traffic_step (a := .session (.closeNotify (.app 0))) h₉ ⟨trivial, nofun⟩
    (.session (.closeNotify rfl) trivial)
  have h₁₁ := traffic_step (a := .session .timerSection) h₁₀ ⟨trivial, nofun⟩
    (.session (.timerSection rfl) trivial)
  obtain ⟨hclosed, hcheck, -⟩ := no_send_after_close (t := .app 0) h₁₁
    (.session (.closeReturn rfl (.inr rfl)) trivial) .refl
  exact ⟨_, hclosed, hcheck⟩

/-- The peer goes away and on_close is called; then close() returns, and a notification is
written all the same. -/
theorem close_after_eof_leaves_running : ∃ s₁ s₂ s₃ : Traffic Json,
    (traffic {} (fun _ => ping) (fun _ => initialized)).Reachable OnStarted s₁ ∧
    TrafficStep {} (fun _ => ping) (fun _ => initialized) s₁ (.session (.closeReturn (.app 0))) s₂ ∧
    s₂.session.transportClosed = false ∧
    (traffic {} (fun _ => ping) (fun _ => initialized)).Run Free s₂ s₃ ∧
    s₃.wire = s₂.wire ++ [.notification initialized] := by
  have h₀ : (traffic {} (fun _ => ping) (fun _ => initialized)).Reachable OnStarted
      (Traffic.fresh Json) := .initial rfl
  have h₁ := traffic_step (a := .session (.startClaim (.app 0))) h₀ trivial
    (.session (.startClaim rfl rfl) trivial)
  have h₂ := traffic_step (a := .session (.startClear (.app 0))) h₁ trivial
    (.session (.startClear rfl) trivial)
  have h₃ := traffic_step (a := .session (.startTimer (.app 0))) h₂ trivial
    (.session (.startTimer rfl rfl) trivial)
  have h₄ := traffic_step (a := .transportStart (.app 0) true) h₃ trivial
    (.transportStart (.startTransport rfl))
  have h₅ := traffic_step (a := .session .timerSection) h₄ trivial
    (.session (.timerSection rfl) trivial)
  have h₆ := traffic_step (a := .session (.onClose (.app 1))) h₅ trivial
    (.session (.onClose rfl) trivial)
  have h₇ := traffic_step (a := .session (.rejected (.app 1))) h₆ trivial
    (.session (.rejected rfl) trivial)
  have h₈ := traffic_step (a := .session (.onCloseStore (.app 1))) h₇ trivial
    (.session (.onCloseStore rfl) trivial)
  have h₉ := traffic_step (a := .session (.onCloseFire (.app 1))) h₈ trivial
    (.session (.onCloseFire rfl) trivial)
  have h₁₀ := traffic_step (a := .session (.onCloseReturn (.app 1))) h₉ trivial
    (.session (.onCloseReturn rfl) trivial)
  exact close_leaves_running 0 h₁₀ ⟨rfl, fun u => by rcases u with _ | _ | _ | n <;> exact id⟩
    ⟨rfl, rfl, rfl, rfl, rfl, .inr ⟨none, rfl⟩⟩

end Runs

end Mcp.Session
