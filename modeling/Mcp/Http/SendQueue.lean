import Mcp.Http.ClientTransport

/-! The queue of outbound frames, from send() to process_send(). -/
namespace Mcp.Http.ClientTransport

open Transition

variable {settings : Settings} {s s' : State} {a : Action} {t : ℕ}

/-- What the worker has taken off the queue and not yet given to a thread. -/
def Worker.frames : Worker → List String
  | .popped frame => [frame]
  | _ => []

/-- A send() has read closed_ and not yet filed its frame. -/
def Pushing (s : State) : Prop := ∃ t frame, s.pc t = .pushing frame

/-- The worker does not leave while a send() is on its way to the queue. -/
def Patient (s : State) : Action → Prop
  | .workerExit => ¬Pushing s
  | _ => True

/-- The thread is past its join of the worker. -/
def PC.PastWorker : PC → Prop
  | .joiningGet _ | .draining | .firing => True
  | _ => False

/-- Neither on the way to the queue nor past the join of the worker. -/
def PC.Plain : PC → Prop
  | .pushing _ | .joiningGet _ | .draining | .firing => False
  | _ => True

/-- Where a step brings the thread that takes it, and what it has found there: a send() that comes
to the queue an open transport, a close() that gets past its join a worker that can be joined. -/
inductive Moves (s : State) : PC → PC → Prop where
  | plain {pc pc'} : pc'.Plain → Moves s pc pc'
  | push {frame} : s.closed = false → Moves s (.checking frame) (.pushing frame)
  | join {first} : s.worker.joinable → Moves s (.joiningWorker first) (.joiningGet first)
  | past {pc pc'} : pc.PastWorker → pc'.PastWorker → Moves s pc pc'

/-- The step with which the close() of thread `t` returns. -/
def Returns (t : ℕ) (s : State) : Action → Prop
  | .closeFire u => u = t
  | .closeJoinGet u => u = t ∧ s.pc t = .joiningGet false
  | _ => False

/-- What send() has accepted is handed to process_send in order. -/
structure Served (s : State) : Prop where
  absent : s.worker = .absent ↔ s.start ≠ .working ∧ s.start ≠ .done
  order : s.processed ++ s.worker.frames ++ s.out = s.accepted

/-- The worker has left, and nothing more will come. -/
structure Drained (s : State) : Prop where
  closed : s.closed = true
  out : s.out = []
  pushing : ¬Pushing s

theorem served_step (h : Step settings s a s') (hs : Served s) : Served s' := by
  obtain ⟨habsent, horder⟩ := hs
  cases h with
  | startClaim h | startOpen h | startRearm h =>
    refine ⟨?_, horder⟩
    simpa [h] using habsent
  | startWorker h =>
    have hnone : s.worker = .absent := habsent.mpr (by simp [h])
    refine ⟨by simp, ?_⟩
    simpa [hnone, Worker.frames] using horder
  | startGet h =>
    refine ⟨?_, horder⟩
    simpa [h] using habsent
  | send | sendCheck | postDisarm =>
    split <;> exact ⟨habsent, horder⟩
  | sendPush h =>
    refine ⟨habsent, ?_⟩
    simp [State.setPC, ← horder]
  | @workerTake frame rest hw hout =>
    refine ⟨?_, ?_⟩
    · simpa [hw] using habsent
    · simpa [hw, hout, Worker.frames] using horder
  | @workerSpawn t frame hw _ =>
    refine ⟨?_, ?_⟩
    · simpa [hw, State.setPC] using habsent
    · simpa [hw, Worker.frames, State.setPC] using horder
  | workerExit hw _ hout =>
    refine ⟨?_, ?_⟩
    · simpa [hw] using habsent
    · simpa [hw, hout, Worker.frames] using horder
  | _ => exact ⟨habsent, horder⟩

theorem served_reachable {ok : State → Action → Prop} (h : (machine settings).Reachable ok s) :
    Served s := by
  refine h.invariant (P := Served) ?_ fun _ _ _ _ hs _ hst => served_step hst hs
  rintro s rfl
  exact ⟨by simp [fresh], rfl⟩

/-- Once set, `closed_` is only cleared by start(), before there is a worker. -/
theorem closed_step (h : Step settings s a s') (hc : s.closed = true) :
    s'.closed = true ∨ s.start = .claimed := by
  cases h with
  | startOpen h => exact .inr h
  | send | sendCheck | postDisarm =>
    split <;> exact .inl hc
  | close => exact .inl rfl
  | _ => exact .inl hc

/-- A worker that has left stays away, unless start() has yet to make one. -/
theorem exited_step (h : Step settings s a s') (hw : s.worker = .exited) :
    s'.worker = .exited ∨ s.start = .rearmed := by
  cases h with
  | startWorker h => exact .inr h
  | workerTake h _ | workerSpawn h _ => simp [hw] at h
  | workerExit => exact .inl rfl
  | send | sendCheck | postDisarm =>
    split <;> exact .inl hw
  | _ => exact .inl hw

theorem done_step (h : Step settings s a s') (hd : s.start = .done) : s'.start = .done := by
  cases h with
  | startClaim h | startOpen h | startRearm h | startWorker h | startGet h => simp [hd] at h
  | send | sendCheck | postDisarm =>
    split <;> exact hd
  | _ => exact hd

theorem not_pastWorker_of_plain {pc : PC} (h : pc.Plain) : ¬pc.PastWorker := by
  cases pc <;> first | exact h.elim | exact id

/-- A step moves one thread at most. -/
theorem pc_step (h : Step settings s a s') :
    s'.pc = s.pc ∨ ∃ u pc, s'.pc = Function.update s.pc u pc ∧ Moves s (s.pc u) pc := by
  cases h with
  | send _ =>
    split
    · exact .inr ⟨_, _, rfl, .plain trivial⟩
    · exact .inl rfl
  | sendCheck hpc =>
    cases hc : s.closed with
    | false => exact .inr ⟨_, _, rfl, hpc ▸ .push hc⟩
    | true => exact .inr ⟨_, _, rfl, .plain trivial⟩
  | postResponse _ =>
    refine .inr ⟨_, _, rfl, .plain ?_⟩
    split
    · trivial
    · split <;> trivial
  | postArm _ _ =>
    refine .inr ⟨_, _, rfl, .plain ?_⟩
    unfold bodyPC
    split
    · trivial
    · split <;> trivial
  | postDisarm _ _ =>
    split <;> exact .inr ⟨_, _, rfl, .plain trivial⟩
  | close _ =>
    refine .inr ⟨_, _, rfl, .plain ?_⟩
    split <;> trivial
  | closeJoinWorker hpc hj => exact .inr ⟨_, _, rfl, hpc ▸ .join hj⟩
  | @closeJoinGet u first hpc _ =>
    refine .inr ⟨_, _, rfl, ?_⟩
    cases first with
    | false => exact .plain trivial
    | true => exact .past (by rw [hpc]; trivial) trivial
  | closeDrain hpc _ => exact .inr ⟨_, _, rfl, .past (by rw [hpc]; trivial) trivial⟩
  | sendPush _ | workerSpawn _ _ | postRead _ | postFail _ | postCapture _ _ | postNotify _
  | postError _ _ _ | postEvent _ | postHand _ | postLeave _ | closeRead _ | closeDelete _
  | closeFire _ => exact .inr ⟨_, _, rfl, .plain trivial⟩
  | _ => exact .inl rfl

/-- A send() comes to the queue by a check that has found the transport open. -/
theorem pushing_origin (h : Step settings s a s') (hp : Pushing s') :
    Pushing s ∨ s.closed = false := by
  obtain ⟨t, frame, ht⟩ := hp
  rcases pc_step h with hpc | ⟨u, pc, hpc, hm⟩
  · rw [hpc] at ht
    exact .inl ⟨t, frame, ht⟩
  · rw [hpc] at ht
    rcases update_cases ht with ⟨-, rfl⟩ | ⟨-, ht⟩
    · generalize s.pc u = pc at hm
      cases hm with
      | plain hplain => exact hplain.elim
      | push hopen => exact .inr hopen
      | past _ hpast => exact hpast.elim
    · exact .inl ⟨t, frame, ht⟩

/-- The queue grows by frames that a send() has in hand. -/
theorem out_step (h : Step settings s a s') (ho : s.out = []) : s'.out = [] ∨ Pushing s := by
  cases h with
  | @sendPush t frame h => exact .inr ⟨t, frame, h⟩
  | workerTake _ h => simp [ho] at h
  | send | sendCheck | postDisarm =>
    split <;> exact .inl ho
  | _ => exact .inl ho

theorem drained_step (h : Step settings s a s') (hs : Served s) (hw : s.worker = .exited)
    (hd : Drained s) : Drained s' := by
  have hstart : s.start = .working ∨ s.start = .done := by
    by_contra hne
    have habsent := hs.absent.mpr (not_or.mp hne)
    simp [hw] at habsent
  refine ⟨?_, ?_, ?_⟩
  · refine (closed_step h hd.closed).resolve_right fun hclaimed => ?_
    simp [hclaimed] at hstart
  · exact (out_step h hd.out).resolve_right hd.pushing
  · intro hp
    rcases pushing_origin h hp with hp | hopen
    · exact hd.pushing hp
    · simp [hd.closed] at hopen

/-- The worker leaves when the transport is closed and the queue is empty. -/
theorem exited_origin (h : Step settings s a s') (hw : s'.worker = .exited) :
    s.worker = .exited ∨ (a = .workerExit ∧ s'.closed = true ∧ s'.out = []) := by
  cases h with
  | startWorker | workerTake | workerSpawn => cases hw
  | workerExit _ hc ho => exact .inr ⟨rfl, hc, ho⟩
  | send | sendCheck | postDisarm =>
    split at hw <;> exact .inl hw
  | _ => exact .inl hw

theorem drained_reachable (h : (machine settings).Reachable Patient s)
    (hw : s.worker = .exited) : Drained s := by
  refine h.invariant (P := fun s => s.worker = .exited → Drained s) ?_ ?_ hw
  · rintro s rfl hw
    simp [fresh] at hw
  · intro s a s' hr hd hok hst hw'
    rcases exited_origin hst hw' with hw | ⟨rfl, hc, ho⟩
    · exact drained_step hst (served_reachable hr) hw (hd hw)
    · refine ⟨hc, ho, ?_⟩
      cases hst with
      | workerExit _ _ _ => exact hok

/-- From a call of close() on, the thread is past its join only when the worker has left. -/
structure Closing (t : ℕ) (s : State) : Prop where
  start : s.start = .done
  worker : (s.pc t).PastWorker → s.worker = .exited

/-- A thread gets past its join of the worker when the worker can be joined. -/
theorem pastWorker_origin (h : Step settings s a s') (hp : (s'.pc t).PastWorker) :
    (s.pc t).PastWorker ∨ s.worker.joinable := by
  rcases pc_step h with hpc | ⟨u, pc, hpc, hm⟩
  · rw [hpc] at hp
    exact .inl hp
  · rw [hpc] at hp
    by_cases he : t = u
    · subst u
      rw [Function.update_self] at hp
      generalize s.pc t = pc₀ at hm ⊢
      cases hm with
      | plain hplain => exact absurd hp (not_pastWorker_of_plain hplain)
      | push _ => exact hp.elim
      | join hj => exact .inr hj
      | past hpast _ => exact .inl hpast
    · rw [Function.update_of_ne he] at hp
      exact .inl hp

theorem closing_step (h : Step settings s a s') (hs : Served s) (hc : Closing t s) :
    Closing t s' := by
  refine ⟨done_step h hc.start, fun hp => ?_⟩
  have hw : s.worker = .exited := by
    rcases pastWorker_origin h hp with hp | hj
    · exact hc.worker hp
    · cases hw : s.worker with
      | absent => exact absurd hc.start (hs.absent.mp hw).2
      | exited => rfl
      | _ => simp [hw, Worker.joinable] at hj
  refine (exited_step h hw).resolve_right fun hrearmed => ?_
  simp [hc.start] at hrearmed

theorem closing_call (h : Step settings s (.close t) s') (hd : s.start = .done) :
    Closing t s' := by
  cases h with
  | close _ =>
    refine ⟨hd, ?_⟩
    simp only [State.setPC, Function.update_self]
    split <;> exact False.elim

theorem closing_run (h : (machine settings).Reachable Patient s)
    (hrun : (machine settings).Run Patient s s') (hc : Closing t s) : Closing t s' := by
  have hboth : (machine settings).Reachable Patient s' ∧ Closing t s' := by
    refine hrun.invariant (P := fun s => (machine settings).Reachable Patient s ∧ Closing t s) ?_
      ⟨h, hc⟩
    rintro s a s' ⟨hr, hc⟩ hok hst
    exact ⟨hr.step hok hst, closing_step hst (served_reachable hr) hc⟩
  exact hboth.2

theorem exited_run {ok : State → Action → Prop} (hd : s.start = .done) (hw : s.worker = .exited)
    (hrun : (machine settings).Run ok s s') : s'.worker = .exited := by
  have hboth : s'.start = .done ∧ s'.worker = .exited := by
    refine hrun.invariant (P := fun s => s.start = .done ∧ s.worker = .exited) ?_ ⟨hd, hw⟩
    rintro s a s' ⟨hd, hw⟩ - hst
    refine ⟨done_step hst hd, (exited_step hst hw).resolve_right fun hrearmed => ?_⟩
    simp [hd] at hrearmed
  exact hboth.2

theorem exited_of_returns (hs : Step settings s a s') (hc : Closing t s) (h : Returns t s a) :
    s.worker = .exited := by
  cases hs with
  | @closeFire u hpc =>
    obtain rfl : u = t := h
    exact hc.worker (by simp [hpc, PC.PastWorker])
  | @closeJoinGet u first hpc _ =>
    obtain rfl : u = t := h.1
    exact hc.worker (by simp [hpc, PC.PastWorker])
  | _ => exact h.elim

/-- What is left to hand over to process_send when the worker has left: nothing. -/
theorem processed_of_exited (h : (machine settings).Reachable Patient s)
    (hw : s.worker = .exited) : s.processed = s.accepted := by
  have hs := served_reachable h
  simpa [hw, Worker.frames, (drained_reachable h hw).out] using hs.order

/-- While the worker does not leave a send() behind: what process_send has been called with is what
send() has accepted, in that order and up to some frame; and when a close() of a started transport
has returned, it is all of it, then and for ever. -/
theorem accepted_frames_processed (settings : Settings) :
    (∀ s, (machine settings).Reachable Patient s → s.processed <+: s.accepted) ∧
    ∀ (s₀ s₁ s₂ s₃ s : State) (t : ℕ) (a : Action), (machine settings).Reachable Patient s₀ →
      s₀.start = .done → Step settings s₀ (.close t) s₁ → (machine settings).Run Patient s₁ s₂ →
      Returns t s₂ a → Patient s₂ a → Step settings s₂ a s₃ →
      (machine settings).Run Patient s₃ s → s.processed = s.accepted := by
  constructor
  · intro s h
    have hs := served_reachable h
    rw [← hs.order, List.append_assoc]
    exact List.prefix_append _ _
  · intro s₀ s₁ s₂ s₃ s t a h₀ hdone hcall hrun hreturn hok hstep hafter
    have hclosing₁ : Closing t s₁ := closing_call hcall hdone
    have h₁ := reachable_step (a := .close t) h₀ trivial hcall
    have hclosing₂ := closing_run h₁ hrun hclosing₁
    have h₂ := h₁.run hrun
    have hw₂ := exited_of_returns hstep hclosing₂ hreturn
    have h₃ := h₂.step hok hstep
    have hclosing₃ := closing_step hstep (served_reachable h₂) hclosing₂
    have hw₃ : s₃.worker = .exited := by
      refine (exited_step hstep hw₂).resolve_right fun hrearmed => ?_
      simp [hclosing₂.start] at hrearmed
    exact processed_of_exited (h₃.run hafter) (exited_run hclosing₃.start hw₃ hafter)

/-- A started client that opens no GET stream. -/
def streamless : Settings := { openGetStream := false }

theorem streamless_ready : (machine streamless).Reachable Patient (ready streamless) :=
  ready_reachable (fun _ => trivial) (fun _ => trivial) (fun _ => trivial) (fun _ => trivial)
    (fun _ => trivial)

/-- A send() finds the transport open. -/
theorem pushing_reachable {frame : String} (h : (machine settings).Reachable Patient s)
    (hpc : s.pc t = .idle) (hstarted : s.started = true) (hopen : s.closed = false) :
    (machine settings).Reachable Patient (s.setPC t (.pushing frame)) := by
  have h₁ := reachable_step (a := .send t frame) h trivial (.send hpc)
  rw [if_pos hstarted] at h₁
  have h₂ := reachable_step (a := .sendCheck t) h₁ trivial
    (.sendCheck (Function.update_self t _ _))
  rw [if_neg (by simp [State.setPC, hopen])] at h₂
  simpa [State.setPC] using h₂

/-- A send() from its call to its return, with nothing in between. -/
theorem send_reachable {frame : String} (h : (machine settings).Reachable Patient s)
    (hpc : s.pc t = .idle) (hstarted : s.started = true) (hopen : s.closed = false) :
    (machine settings).Reachable Patient
      { s with out := s.out ++ [frame], accepted := s.accepted ++ [frame] } := by
  have h₀ : (machine settings).Reachable Patient (s.setPC t (.pushing frame)) :=
    pushing_reachable h hpc hstarted hopen
  have h₁ := reachable_step (a := .sendPush t) h₀ trivial (.sendPush (Function.update_self t _ _))
  simpa [State.setPC, update_back hpc] using h₁

/-- A frame from the queue to a POST that gets no response. -/
theorem post_reachable {frame : String} {rest : List String}
    (h : (machine settings).Reachable Patient s) (hpc : s.pc t = .idle)
    (hw : s.worker = .looping) (hout : s.out = frame :: rest) :
    (machine settings).Reachable Patient { s with
      out := rest
      processed := s.processed ++ [frame]
      history := .request s.sessionId :: s.history } := by
  have h₁ := reachable_step (a := .workerTake) h trivial (.workerTake hw hout)
  have h₂ := reachable_step (a := .workerSpawn t) h₁ trivial (.workerSpawn rfl hpc)
  have h₃ := reachable_step (a := .postRead t) h₂ trivial (.postRead (Function.update_self t _ _))
  have h₄ := reachable_step (a := .postFail t) h₃ trivial (.postFail (Function.update_self t _ _))
  have h₅ := reachable_step (a := .postLeave t) h₄ trivial
    (.postLeave (.inl (Function.update_self t _ _)))
  simpa [State.setPC, update_back hpc, ← hw] using h₅

/-- close() after its exchange, and before it fires on_close_. -/
def State.closing (s : State) (t : ℕ) : State := { s with closed := true }.setPC t .closing
def State.firing (s : State) (t : ℕ) : State :=
  { s with closed := true, worker := .exited }.setPC t .firing

/-- A close() of a transport that has nothing left to do. -/
theorem close_run {ok : State → Action → Prop} (hok : ∀ u b, b ≠ .workerExit → ok u b)
    (hexit : ∀ u : State, u.pc = Function.update s.pc t (.joiningWorker true) → ok u .workerExit)
    (hw : s.worker = .looping) (hget : s.get = .absent) (hout : s.out = [])
    (hinflight : s.inflight = 0) : (machine settings).Run ok (s.closing t) (s.firing t) := by
  have h₀ : (machine settings).Run ok (s.closing t) (s.closing t) := .refl
  have h₁ := h₀.step (a := .closeRead t) (hok _ _ nofun) (.closeRead (Function.update_self t _ _))
  have h₂ := h₁.step (a := .closeDelete t) (hok _ _ nofun)
    (.closeDelete (Function.update_self t _ _))
  have h₃ := h₂.step (hexit _ (by simp [State.setPC, State.closing]))
    (@Step.workerExit settings _ hw rfl hout)
  have h₄ := h₃.step (a := .closeJoinWorker t) (hok _ _ nofun)
    (.closeJoinWorker (Function.update_self t _ _) trivial)
  have h₅ := h₄.step (a := .closeJoinGet t) (hok _ _ nofun)
    (.closeJoinGet (Function.update_self t _ _)
      (by simp [State.setPC, State.closing, hget, Get.joinable]))
  have h₆ := h₅.step (a := .closeDrain t) (hok _ _ nofun)
    (.closeDrain (Function.update_self t _ _) hinflight)
  simpa [State.setPC, State.closing, State.firing] using h₆

/-- A frame that has been accepted and handed to process_send before the transport is closed. -/
def posted : State :=
  { ready streamless with accepted := ["x"], processed := ["x"], history := [.request none] }

theorem posted_reachable : (machine streamless).Reachable Patient posted :=
  post_reachable (t := 1) (send_reachable (t := 0) streamless_ready rfl rfl rfl) rfl rfl rfl

theorem one_frame_processed : ∃ s : State, s.closes = 1 ∧ s.accepted = ["x"] ∧
    s.processed = s.accepted := by
  have hrun : (machine streamless).Run Patient (posted.closing 2) (posted.firing 2) := by
    refine close_run ?_ ?_ rfl rfl rfl rfl
    · intro u b hb
      cases b <;> trivial
    · rintro u hu ⟨t, frame, ht⟩
      rw [hu] at ht
      rcases update_cases ht with ⟨-, ht⟩ | ⟨-, ht⟩ <;> cases ht
  exact ⟨_, rfl, rfl, (accepted_frames_processed streamless).2 posted _ _ _ _ 2 (.closeFire 2)
    posted_reachable rfl (.close rfl) hrun rfl trivial (.closeFire rfl) .refl⟩

/-- A send() that has found the transport open. -/
def sending : State := (ready streamless).setPC 0 (.pushing "x")

theorem sending_reachable : (machine streamless).Reachable Patient sending :=
  pushing_reachable streamless_ready rfl rfl rfl

/-- A close() comes and returns, and when the frame is filed the worker is gone. -/
theorem late_frame_dropped : ∃ s₁ s₂ s₃ s : State, (machine streamless).Reachable Free sending ∧
    sending.start = .done ∧ Step streamless sending (.close 1) s₁ ∧
    (machine streamless).Run Free s₁ s₂ ∧ Returns 1 s₂ (.closeFire 1) ∧
    Step streamless s₂ (.closeFire 1) s₃ ∧ (machine streamless).Run Free s₃ s ∧
    s.accepted = ["x"] ∧ s.processed = [] ∧ s.worker = .exited := by
  have hrun : (machine streamless).Run Free (sending.closing 1) (sending.firing 1) :=
    close_run (fun _ _ _ => trivial) (fun _ _ => trivial) rfl rfl rfl rfl
  exact ⟨_, _, _, _, sending_reachable.free, rfl, .close rfl, hrun, rfl, .closeFire rfl,
    System.Run.refl.step (a := .sendPush 0) trivial (.sendPush rfl), rfl, rfl, rfl⟩

end Mcp.Http.ClientTransport
