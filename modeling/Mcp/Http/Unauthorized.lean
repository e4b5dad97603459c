import Mcp.Http.SessionId
import Mcp.Library.Crowd

/-! The calls of on_unauthorized, batch by batch. A batch lasts from one step that arms the flag to
the next one. -/
namespace Mcp.Http.ClientTransport

open Transition

variable {settings : Settings} {s s' : State} {a : Action} {t : ℕ}

/-- A batch so far. A call belongs to the batch of the response that it reports. -/
structure Batch where
  /-- Responses 401 or 403 to POSTs, and to the GET. -/
  postRefused : ℕ := 0
  getRefused : ℕ := 0
  /-- Calls that have been decided on. -/
  fired : ℕ := 0
  /-- Calls that have been made, and calls that were decided on before and not yet made. -/
  called : ℕ := 0
  carried : ℕ := 0

def Batch.note (settings : Settings) (s : State) (b : Batch) : Action → Batch
  | .postArm _ => { carried := b.carried + b.fired - b.called }
  | .postDisarm _ => { b with
      postRefused := b.postRefused + 1
      fired := b.fired + (settings.onUnauthorized && s.armed).toNat }
  | .getResponse (some res) =>
    if isUnauthorized res then { b with
      getRefused := b.getRefused + 1
      fired := b.fired + settings.onUnauthorized.toNat }
    else b
  | .postNotify _ | .getNotify => { b with called := b.called + 1 }
  | _ => b

/-- The transport and its batch. -/
def batches (settings : Settings) : System (State × Batch) Action where
  Initial x := x = (fresh settings, {})
  Step x a y := Step settings x.1 a y.1 ∧ y.2 = x.2.note settings x.1 a

/-- The thread of a POST, or the GET worker, is about to call on_unauthorized. -/
def Calling (s : State) : Option ℕ → Prop
  | some t => ∃ res, s.pc t = .notifying res
  | none => ∃ res, s.get = .notifying res

/-- The GET worker has been refused. -/
def Left (s : State) : Prop := s.start = .done ∧ (s.get = .exited ∨ Calling s none)

/-- What a step has to do with the flag and the callback. -/
inductive Handles (settings : Settings) (s : State) (a : Action) (s' : State) : Prop where
  | quiet : (∀ b : Batch, b.note settings s a = b) → s'.armed = s.armed →
      (∀ u, Calling s' u ↔ Calling s u) → (Left s → Left s') → Handles settings s a s'
  | arms (t : ℕ) : a = .postArm t → s'.armed = true →
      (∀ u, Calling s' u ↔ Calling s u) → (Left s → Left s') → Handles settings s a s'
  | ignores (t : ℕ) : a = .postDisarm t → s.armed = false → s'.armed = false →
      (∀ u, Calling s' u ↔ Calling s u) → (Left s → Left s') → Handles settings s a s'
  | fires (t : ℕ) : a = .postDisarm t → s.armed = true → s'.armed = false → ¬Calling s (some t) →
      (∀ u, Calling s' u ↔ u = some t ∨ Calling s u) → (Left s → Left s') →
      Handles settings s a s'
  | leaves (res : Response) : a = .getResponse (some res) → isUnauthorized res = true →
      s'.armed = s.armed → ¬Left s → Left s' → ¬Calling s none →
      (∀ u, Calling s' u ↔ u = none ∨ Calling s u) → Handles settings s a s'
  | calls (v : Option ℕ) : (∀ b : Batch, b.note settings s a = { b with called := b.called + 1 }) →
      s'.armed = s.armed → Calling s v → (∀ u, Calling s' u ↔ u ≠ v ∧ Calling s u) →
      (Left s → Left s') → Handles settings s a s'

section Frame

variable {pc : PC} (hpc : s'.pc = Function.update s.pc t pc) (hget : s'.get = s.get)

include hpc hget

theorem calling_keep (h : ∀ res, s.pc t ≠ .notifying res) (h' : ∀ res, pc ≠ .notifying res) :
    ∀ u, Calling s' u ↔ Calling s u := by
  rintro (_ | u)
  · simp only [Calling, hget]
  · by_cases hu : u = t
    · subst u
      simp [Calling, hpc, h, h']
    · simp [Calling, hpc, hu]

theorem calling_enter {res : Response} (h' : pc = .notifying res) :
    ∀ u, Calling s' u ↔ u = some t ∨ Calling s u := by
  rintro (_ | u)
  · simp [Calling, hget]
  · by_cases hu : u = t
    · subst u
      simp [Calling, hpc, h']
    · simp [Calling, hpc, hu]

theorem calling_leave (h' : ∀ res, pc ≠ .notifying res) :
    ∀ u, Calling s' u ↔ u ≠ some t ∧ Calling s u := by
  rintro (_ | u)
  · simp [Calling, hget]
  · by_cases hu : u = t
    · subst u
      simp [Calling, hpc, h']
    · simp [Calling, hpc, hu]

end Frame

section Get

variable (hpc : s'.pc = s.pc)

include hpc

theorem calling_get (h : ∀ res, s.get ≠ .notifying res) (h' : ∀ res, s'.get ≠ .notifying res) :
    ∀ u, Calling s' u ↔ Calling s u := by
  rintro (_ | u)
  · simp [Calling, h, h']
  · simp only [Calling, hpc]

end Get

theorem not_left {g : Get} (hget : s.get = g) (h : g ≠ .exited)
    (h' : ∀ res, g ≠ .notifying res) : ¬Left s := by
  rintro ⟨-, hexited | ⟨res, hres⟩⟩
  · exact h (hget.symm.trans hexited)
  · exact h' res (hget.symm.trans hres)

theorem left_keep (hstart : s'.start = s.start) (hget : s'.get = s.get) (h : Left s) : Left s' := by
  simpa only [Left, Calling, hstart, hget] using h

theorem bodyPC_ne (res res' : Response) : bodyPC res ≠ .notifying res' := by
  unfold bodyPC
  split <;> simp

section Quiet

variable {pc pc' : PC} {g : Get} (hnote : ∀ b : Batch, b.note settings s a = b)
  (harmed : s'.armed = s.armed)

include hnote harmed

/-- A thread goes from one stage to another, and calls nothing. -/
theorem handles_pc (hpc' : s'.pc = Function.update s.pc t pc') (hstart : s'.start = s.start)
    (hget : s'.get = s.get) (hpc : s.pc t = pc) (h : ∀ res, pc ≠ .notifying res)
    (h' : ∀ res, pc' ≠ .notifying res) : Handles settings s a s' :=
  .quiet hnote harmed (calling_keep hpc' hget (by simpa [hpc] using h) h') (left_keep hstart hget)

/-- The GET worker does, and has not been refused. -/
theorem handles_get (hpc : s'.pc = s.pc) (hget : s.get = g) (hexited : g ≠ .exited)
    (h : ∀ res, g ≠ .notifying res) (h' : ∀ res, s'.get ≠ .notifying res) :
    Handles settings s a s' :=
  .quiet hnote harmed (calling_get hpc (by simpa [hget] using h) h')
    fun hl => absurd hl (not_left hget hexited h)

theorem handles_rest (hpc : s'.pc = s.pc) (hget : s'.get = s.get)
    (hleft : s.start = .done → s'.start = .done) : Handles settings s a s' := by
  refine .quiet hnote harmed ?_ ?_
  · rintro (_ | u) <;> simp only [Calling, hpc, hget]
  · rintro ⟨hdone, hl⟩
    refine ⟨hleft hdone, ?_⟩
    simpa only [Calling, hget] using hl

end Quiet

/-- The GET worker takes a response, and leaves if it is refused. -/
theorem handles_getResponse {sid : String} {buf : Bytes} {res? : Option Response}
    (h : s.get = .requesting sid buf) (hu : Unstarted s)
    (hcallback : settings.onUnauthorized = true) (harmed : s'.armed = s.armed)
    (hpc : s'.pc = s.pc) (hstart : s'.start = s.start)
    (hget : s'.get = afterGet settings sid res?) : Handles settings s (.getResponse res?) s' := by
  cases res? with
  | none =>
    exact handles_get (fun _ => rfl) harmed hpc h (by simp) (by simp) (by simp [hget, afterGet])
  | some res =>
    cases hres : isUnauthorized res with
    | false =>
      refine handles_get ?_ harmed hpc h (by simp) (by simp) ?_
      · intro b
        simp [Batch.note, hres]
      · intro res'
        simp only [hget, afterGet, hres, Bool.false_eq_true, if_false]
        split <;> [simp; split <;> simp]
    | true =>
      have h405 : res.status ≠ 405 := by
        intro h405
        simp [isUnauthorized, h405] at hres
      have hnotifying : s'.get = .notifying res := by
        simp [hget, afterGet, h405, hres, hcallback]
      have hdone : s.start = .done := by
        by_contra hne
        cases h.symm.trans (hu hne)
      refine .leaves res rfl hres harmed (not_left h (by simp) (by simp))
        ⟨hstart.trans hdone, .inr ⟨res, hnotifying⟩⟩ (by simp [Calling, h]) ?_
      rintro (_ | u)
      · simp [Calling, hnotifying]
      · simp [Calling, hpc]

theorem handles_of_step (h : Step settings s a s') (hu : Unstarted s)
    (hcallback : settings.onUnauthorized = true) : Handles settings s a s' := by
  cases h with
  | startClaim h | startOpen h | startRearm h | startWorker h =>
    refine handles_rest (fun _ => rfl) rfl rfl rfl ?_
    intro hdone
    cases hdone.symm.trans h
  | startGet h =>
    have habsent : s.get = .absent := hu (by simp [h])
    refine handles_get (fun _ => rfl) rfl rfl habsent (by simp) (by simp) ?_
    intro res
    simp only [habsent]
    split <;> simp
  | send h | sendCheck h =>
    split
    all_goals first
      | exact handles_pc (fun _ => rfl) rfl rfl rfl rfl h (by simp) (by simp)
      | exact handles_rest (fun _ => rfl) rfl rfl rfl id
  | sendPush h | postRead h | postFail h | postError h | postEvent h | postHand h
  | closeRead h | closeDelete h | closeJoinWorker h | closeDrain h | closeFire h =>
    exact handles_pc (fun _ => rfl) rfl rfl rfl rfl h (by simp) (by simp)
  | workerTake | workerExit => exact handles_rest (fun _ => rfl) rfl rfl rfl id
  | workerSpawn _ h => exact handles_pc (fun _ => rfl) rfl rfl rfl rfl h (by simp) (by simp)
  | @postResponse t frame sid res h =>
    refine handles_pc (fun _ => rfl) rfl rfl rfl rfl h (by simp) ?_
    intro res'
    split
    · simp
    · split <;> simp
  | postCapture h => exact handles_pc (fun _ => rfl) rfl rfl rfl rfl h (by simp) (by simp)
  | @postArm t res h =>
    refine .arms t rfl rfl (calling_keep rfl rfl (by simp [h]) ?_) (left_keep rfl rfl)
    intro res'
    split
    · simp
    · exact bodyPC_ne res res'
  | @postDisarm t res h =>
    cases harmed : s.armed with
    | true =>
      rw [hcallback, Bool.and_self, if_pos rfl]
      exact .fires t rfl harmed rfl (by simp [Calling, h]) (calling_enter rfl rfl rfl)
        (left_keep rfl rfl)
    | false =>
      rw [Bool.and_false, if_neg (by simp)]
      exact .ignores t rfl harmed harmed (calling_keep rfl rfl (by simp [h]) (by simp))
        (left_keep rfl rfl)
  | @postNotify t res h =>
    exact .calls (some t) (fun _ => rfl) rfl ⟨res, h⟩ (calling_leave rfl rfl (by simp))
      (left_keep rfl rfl)
  | postLeave h =>
    rcases h with h | h <;> exact handles_pc (fun _ => rfl) rfl rfl rfl rfl h (by simp) (by simp)
  | getLoop h | getCheck h =>
    refine handles_get (fun _ => rfl) rfl rfl h (by simp) (by simp) ?_
    intro res
    dsimp only
    split <;> simp
  | getRead h | getWake h | getChunk h | getEvent h | getMore h | getAbort h | getReset h
  | getSleep h => exact handles_get (fun _ => rfl) rfl rfl h (by simp) (by simp) (by simp)
  | getResponse h => exact handles_getResponse h hu hcallback rfl rfl rfl rfl
  | @getNotify res h =>
    refine .calls none (fun _ => rfl) rfl ⟨res, h⟩ ?_ ?_
    · rintro (_ | u) <;> simp [Calling]
    · rintro ⟨hdone, -⟩
      exact ⟨hdone, .inl rfl⟩
  | close h =>
    refine handles_pc (fun _ => rfl) rfl rfl rfl rfl h (by simp) ?_
    intro res
    split <;> simp
  | closeJoinGet h =>
    refine handles_pc (fun _ => rfl) rfl rfl rfl rfl h (by simp) ?_
    intro res
    split <;> simp

/-- What is counted of a batch agrees with the flag and with the threads. -/
structure Counted (s : State) (b : Batch) : Prop where
  armed : s.armed = true ↔ b.postRefused = 0
  fired : b.fired = min 1 b.postRefused + b.getRefused
  left : b.getRefused = 0 ∨ b.getRefused = 1 ∧ Left s
  calls : ∃ n, Crowd.Exactly (Calling s) n ∧ b.called + n = b.carried + b.fired

theorem counted_step {b : Batch} (h : Handles settings s a s')
    (hcallback : settings.onUnauthorized = true) (hc : Counted s b) :
    Counted s' (b.note settings s a) := by
  obtain ⟨harmed, hfired, hleft, n, hn, hsum⟩ := hc
  cases h with
  | quiet hnote hflag hcalling hl =>
    rw [hnote]
    exact ⟨hflag ▸ harmed, hfired, hleft.imp_right (And.imp_right hl), n, hn.congr hcalling, hsum⟩
  | arms t ha hflag hcalling hl =>
    subst ha
    refine ⟨iff_of_true hflag rfl, rfl, .inl rfl, n, hn.congr hcalling, ?_⟩
    simp only [Batch.note]
    omega
  | ignores t ha hoff hoff' hcalling hl =>
    subst ha
    rw [hoff] at harmed
    have hsome : b.postRefused ≠ 0 := fun h => absurd (harmed.mpr h) (by simp)
    refine ⟨by simp [hoff', Batch.note], ?_, hleft.imp_right (And.imp_right hl), n,
      hn.congr hcalling, ?_⟩ <;>
      simp only [Batch.note, hcallback, hoff, Bool.and_false, Bool.toNat_false] <;>
      omega
  | fires t ha hon hoff hnot hcalling hl =>
    subst ha
    have hnone : b.postRefused = 0 := harmed.mp hon
    refine ⟨by simp [hoff, Batch.note], ?_, hleft.imp_right (And.imp_right hl), n + 1,
      hn.enter hnot hcalling, ?_⟩ <;>
      simp only [Batch.note, hcallback, hon, Bool.and_self, Bool.toNat_true] <;>
      omega
  | leaves res ha hres hflag hnot hl hidle hcalling =>
    subst ha
    have hnone : b.getRefused = 0 := by
      rcases hleft with hnone | ⟨-, hl'⟩
      · exact hnone
      · exact absurd hl' hnot
    have hnote : b.note settings s (.getResponse (some res)) =
        { b with getRefused := b.getRefused + 1, fired := b.fired + 1 } := by
      simp [Batch.note, hres, hcallback]
    rw [hnote]
    refine ⟨hflag ▸ harmed, ?_, .inr ⟨by simp [hnone], hl⟩, n + 1, hn.enter hidle hcalling, ?_⟩ <;>
      dsimp only <;> omega
  | calls v hnote hflag hv hcalling hl =>
    rw [hnote]
    have hpos := hn.pos hv
    refine ⟨hflag ▸ harmed, hfired, hleft.imp_right (And.imp_right hl), n - 1,
      hn.leave hv hcalling, ?_⟩
    dsimp only
    omega

theorem counted_reachable {x : State × Batch} (h : (batches settings).Reachable Free x)
    (hcallback : settings.onUnauthorized = true) : Counted x.1 x.2 := by
  have hboth : Unstarted x.1 ∧ Counted x.1 x.2 := by
    refine h.invariant (P := fun x => Unstarted x.1 ∧ Counted x.1 x.2) ?_ ?_
    · rintro x rfl
      refine ⟨fun _ => rfl, by simp [fresh], rfl, .inl rfl, 0, Crowd.Exactly.none ?_, rfl⟩
      rintro (_ | u) <;> simp [Calling, fresh]
    · rintro x a y - ⟨hu, hc⟩ - ⟨hst, hnote⟩
      rw [hnote]
      exact ⟨unstarted_step hst hu, counted_step (handles_of_step hst hu hcallback) hcallback hc⟩
  exact hboth.2

/-- No 2xx arms the flag while a call that has been decided on is still to be made. -/
def Prompt (x : State × Batch) : Action → Prop
  | .postArm _ => ∀ u, ¬Calling x.1 u
  | _ => True

/-- Then every call is made in the batch it belongs to. -/
theorem carried_reachable {x : State × Batch} (h : (batches settings).Reachable Prompt x)
    (hcallback : settings.onUnauthorized = true) : x.2.carried = 0 := by
  refine h.invariant (P := fun x => x.2.carried = 0) ?_ ?_
  · rintro x rfl
    rfl
  · rintro x a y hreach hc hok ⟨-, hnote⟩
    rw [hnote]
    cases a with
    | postArm t =>
      obtain ⟨-, -, -, n, hn, hsum⟩ := counted_reachable hreach.free hcallback
      have hnone : n = 0 := hn.unique (.none hok)
      simp only [Batch.note]
      omega
    | getResponse res =>
      cases res with
      | none => exact hc
      | some res =>
        simp only [Batch.note]
        split <;> exact hc
    | _ => exact hc

/-- While no 2xx comes between a decision and its call: in a batch in which not both a POST and the
GET are refused, on_unauthorized is called at most once, and if a POST is refused it is called, or
about to be; and once nobody is about to call, it has been called at most once, and at least once if
a POST was refused, exactly when not both were. -/
theorem one_call_iff (settings : Settings) (hcallback : settings.onUnauthorized = true) (s : State)
    (b : Batch) (h : (batches settings).Reachable Prompt (s, b)) :
    (¬(0 < b.postRefused ∧ 0 < b.getRefused) →
      b.called ≤ 1 ∧ (0 < b.postRefused → 1 ≤ b.called ∨ ∃ u, Calling s u)) ∧
    ((∀ u, ¬Calling s u) → ((b.called ≤ 1 ∧ (0 < b.postRefused → 1 ≤ b.called)) ↔
      ¬(0 < b.postRefused ∧ 0 < b.getRefused))) := by
  obtain ⟨-, hfired, hleft, n, hn, hsum⟩ := counted_reachable h.free hcallback
  have hcarried : b.carried = 0 := carried_reachable h hcallback
  dsimp only at hfired hleft hn hsum
  constructor
  · intro hnot
    refine ⟨by omega, ?_⟩
    intro hpost
    by_cases hpending : n = 0
    · exact .inl (by omega)
    · exact .inr (hn.exists_of_pos (Nat.pos_of_ne_zero hpending))
  · intro hnobody
    have hnone : n = 0 := hn.unique (.none hnobody)
    omega

theorem batches_step {ok : State × Batch → Action → Prop} {b : Batch}
    (h : (batches settings).Reachable ok (s, b)) (hs : Step settings s a s') (hok : ok (s, b) a) :
    (batches settings).Reachable ok (s', b.note settings s a) :=
  h.step (t := (s', b.note settings s a)) hok ⟨hs, rfl⟩

/-- A step that is not counted. -/
theorem batches_quiet {ok : State × Batch → Action → Prop} {b : Batch}
    (h : (batches settings).Reachable ok (s, b)) (hs : Step settings s a s')
    (hnote : b.note settings s a = b) (hok : ok (s, b) a) :
    (batches settings).Reachable ok (s', b) := by
  have hnext := batches_step h hs hok
  rwa [hnote] at hnext

/-- A POST has been answered. -/
def State.judged (s : State) (t : ℕ) (res : Response) : State :=
  { s with
    out := []
    worker := .looping
    inflight := s.inflight + 1
    pc := Function.update s.pc t (.judging res)
    accepted := s.accepted ++ ["x"]
    processed := s.processed ++ ["x"]
    history := .request s.sessionId :: s.history }

/-- A POST is sent and answered; `ok` asks nothing of the steps up to there. -/
theorem judged_reachable {ok : State × Batch → Action → Prop}
    (hok : ∀ x a, (∀ t, a ≠ .postArm t) → ok x a) {b : Batch}
    (h : (batches settings).Reachable ok (s, b)) (hstart : s.start = .done)
    (hclosed : s.closed = false) (hworker : s.worker = .looping) (hout : s.out = [])
    (hidle : s.pc t = .idle) (res : Response) (hres : header res "Mcp-Session-Id" = none)
    (hstatus : res.status ≠ 404) :
    (batches settings).Reachable ok (s.judged t res, b) := by
  have hsend : Step settings s (.send t "x") _ := .send hidle
  rw [if_pos (by simp [State.started, hstart])] at hsend
  have h₁ := batches_quiet h hsend rfl (hok _ _ (by simp))
  have hcheck : Step settings (s.setPC t (.checking "x")) (.sendCheck t) _ :=
    .sendCheck (Function.update_self ..)
  rw [if_neg (by simp [State.setPC, hclosed])] at hcheck
  have h₂ := batches_quiet h₁ hcheck rfl (hok _ _ (by simp))
  have h₃ := batches_quiet h₂ (.sendPush (t := t) (Function.update_self ..)) rfl (hok _ _ (by simp))
  have h₄ := batches_quiet h₃ (@Step.workerTake settings _ "x" [] hworker
    (by simp [State.setPC, hout])) rfl (hok _ _ (by simp))
  have h₅ := batches_quiet h₄ (.workerSpawn (t := t) rfl (Function.update_self ..)) rfl
    (hok _ _ (by simp))
  have h₆ := batches_quiet h₅ (.postRead (t := t) (Function.update_self ..)) rfl (hok _ _ (by simp))
  have h₇ := batches_quiet h₆ (@Step.postResponse settings _ t _ _ res (Function.update_self ..))
    rfl (hok _ _ (by simp))
  have hgone : goneEvents s.sessionId res = [] := by
    unfold goneEvents
    split <;> simp [hstatus]
  simpa only [State.judged, State.setPC, Function.update_idem, hres, hgone, List.nil_append]
    using h₇

theorem ready_batches {ok : State × Batch → Action → Prop}
    (hok : ∀ x a, (∀ t, a ≠ .postArm t) → ok x a) :
    (batches settings).Reachable ok (ready settings, {}) := by
  have h₀ : (batches settings).Reachable ok (fresh settings, {}) := .initial rfl
  have h₁ := batches_quiet h₀ (.startClaim rfl) rfl (hok _ _ (by simp))
  have h₂ := batches_quiet h₁ (.startOpen rfl) rfl (hok _ _ (by simp))
  have h₃ := batches_quiet h₂ (.startRearm rfl) rfl (hok _ _ (by simp))
  have h₄ := batches_quiet h₃ (.startWorker rfl) rfl (hok _ _ (by simp))
  exact batches_quiet h₄ (.startGet rfl) rfl (hok _ _ (by simp))

theorem prompt_of_ne (x : State × Batch) (a : Action) (h : ∀ t, a ≠ .postArm t) : Prompt x a := by
  cases a with
  | postArm t => exact absurd rfl (h t)
  | _ => exact trivial

def guarded : Settings := { sessionId := some "a", onUnauthorized := true }

def refusal : Response := { status := 401 }

def acceptance : Response := { status := 202 }

/-- A POST is refused and reported, a POST is accepted, and one more is refused and reported: one
call in each batch. -/
theorem refused_once_a_batch : ∃ (s : State) (b : Batch),
    (batches guarded).Reachable Prompt (s, b) ∧
    s.processed.length = 3 ∧ 0 < b.postRefused ∧ b.called ≤ 1 ∧ 1 ≤ b.called := by
  have h₀ : (batches guarded).Reachable Prompt (ready guarded, {}) := ready_batches prompt_of_ne
  have h₁ := judged_reachable (t := 1) prompt_of_ne h₀ rfl rfl rfl rfl rfl refusal rfl (by decide)
  have h₂ := batches_step h₁ (.postDisarm (t := 1) rfl rfl) trivial
  have h₃ := batches_step h₂ (.postNotify (t := 1) rfl) trivial
  have h₄ := judged_reachable (t := 2) prompt_of_ne h₃ rfl rfl rfl rfl rfl acceptance rfl
    (by decide)
  have h₅ := batches_step h₄ (.postArm (t := 2) rfl rfl) (by
    rintro (_ | _ | _ | _ | u) ⟨res, hpc⟩ <;> cases hpc)
  have h₆ := judged_reachable (t := 3) prompt_of_ne h₅ rfl rfl rfl rfl rfl refusal rfl (by decide)
  have h₇ := batches_step h₆ (.postDisarm (t := 3) rfl rfl) trivial
  have h₈ := batches_step h₇ (.postNotify (t := 3) rfl) trivial
  have hnobody := (one_call_iff guarded rfl _ _ h₈).2 (by
    rintro (_ | _ | _ | _ | _ | u) ⟨res, hpc⟩ <;> cases hpc)
  obtain ⟨hmost, hleast⟩ := hnobody.mpr fun h => absurd h.2 (Nat.lt_irrefl 0)
  exact ⟨_, _, h₈, rfl, Nat.one_pos, hmost, hleast Nat.one_pos⟩

/-- A POST and the GET are both answered 401, and both calls are made before any POST is answered
2xx; and with no GET refused, the thread of a POST that has taken the flag is overtaken by a 2xx and
by another POST that is refused, so that two calls come between two 2xx. -/
theorem called_twice_in_a_batch :
    (∃ s : State, (batches guarded).Reachable Free
      (s, { postRefused := 1, getRefused := 1, fired := 2, called := 2 }) ∧
      s.history.head? = some (notice refusal)) ∧
    ∃ s : State, (batches guarded).Reachable Free
      (s, { postRefused := 1, fired := 1, called := 2, carried := 1 }) := by
  have h₀ : (batches guarded).Reachable Free (ready guarded, {}) :=
    ready_batches fun _ _ _ => trivial
  have h₁ := judged_reachable (t := 1) (fun _ _ _ => trivial) h₀ rfl rfl rfl rfl rfl refusal rfl
    (by decide)
  have h₂ := batches_step h₁ (.postDisarm (t := 1) rfl rfl) trivial
  constructor
  · have h₃ := batches_step h₂ (.getLoop rfl) trivial
    have h₄ := batches_step h₃ (.getRead rfl rfl rfl) trivial
    have h₅ := batches_step h₄ (@Step.getResponse _ _ _ _ (some refusal) rfl) trivial
    have h₆ := batches_step h₅ (.postNotify (t := 1) rfl) trivial
    exact ⟨_, batches_step h₆ (.getNotify rfl) trivial, rfl⟩
  · have h₃ := judged_reachable (t := 2) (fun _ _ _ => trivial) h₂ rfl rfl rfl rfl rfl acceptance
      rfl (by decide)
    have h₄ := batches_step h₃ (.postArm (t := 2) rfl rfl) trivial
    have h₅ := judged_reachable (t := 3) (fun _ _ _ => trivial) h₄ rfl rfl rfl rfl rfl refusal rfl
      (by decide)
    have h₆ := batches_step h₅ (.postDisarm (t := 3) rfl rfl) trivial
    have h₇ := batches_step h₆ (.postNotify (t := 1) rfl) trivial
    exact ⟨_, batches_step h₇ (.postNotify (t := 3) rfl) trivial⟩

end Mcp.Http.ClientTransport
