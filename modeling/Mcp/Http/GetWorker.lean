import Mcp.Http.SessionId

/-! The GET worker of the HttpClientTransport, for as long as the transport is open. -/
namespace Mcp.Http.ClientTransport

open Transition

variable {settings : Settings} {s s' : State} {a : Action} {sid : String} {g : Get}

/-- Waiting for a session id, streaming, or backing off. -/
def Get.Listens : Get → Prop
  | .looping | .waiting | .requesting _ _ | .receiving _ _ _ | .checking | .sleeping => True
  | _ => False

/-- No GET is answered 405, 401 or 403. -/
def Unrefused (_ : State) : Action → Prop
  | .getResponse (some res) => res.status ≠ 405 ∧ isUnauthorized res = false
  | _ => True

/-- Nor is one answered 404 while the transport is open. -/
def Welcome (s : State) : Action → Prop
  | .getResponse (some res) => res.status ≠ 405 ∧ isUnauthorized res = false ∧
      (s.closed = false → res.status ≠ 404)
  | _ => True

/-- The steps of the GET worker with a server that ends each stream. -/
def Ends (_ : State) : Action → Prop
  | .getLoop | .getRead | .getEvent | .getMore | .getCheck | .getSleep | .getResponse none => True
  | _ => False

/-- While the transport is open, a GET worker that has been made listens. -/
def Listening (settings : Settings) (s : State) : Prop :=
  s.start = .done → s.closed = false → settings.openGetStream = true → s.get.Listens

theorem afterGet_listens {res : Option Response} (hok : Welcome s (.getResponse res))
    (hopen : s.closed = false) : (afterGet settings sid res).Listens := by
  cases res with
  | none => trivial
  | some res =>
    obtain ⟨h405, hauth, h404⟩ := hok
    simp [afterGet, h405, hauth, h404 hopen, Get.Listens]

theorem listening_step (h : Step settings s a s') (hok : Welcome s a)
    (hl : Listening settings s) : Listening settings s' := by
  intro hd hopen hstream
  cases h with
  | startClaim | startOpen | startRearm | startWorker => cases hd
  | startGet => simp [hstream, Get.Listens]
  | getLoop h | getCheck h =>
    simp only at hopen ⊢
    rw [if_neg (by simp [hopen])]
    trivial
  | getWake _ hc => simp [hc] at hopen
  | getResponse h => exact afterGet_listens hok hopen
  | getNotify h | getReset h =>
    have := hl hd hopen hstream
    simp [h, Get.Listens] at this
  | getRead | getChunk | getEvent | getMore | getAbort | getSleep => trivial
  | send | sendCheck | postDisarm =>
    revert hd hopen
    split <;> exact fun hd hopen => hl hd hopen hstream
  | close => cases hopen
  | _ => exact hl hd hopen hstream

theorem listening_reachable (h : (machine settings).Reachable Welcome s) :
    Listening settings s := by
  refine h.invariant (P := Listening settings) ?_ ?_
  · rintro s rfl hd
    cases hd
  · intro s a s' _ hl hok hst
    exact listening_step hst hok hl

/-- The worker comes, by its own steps, to a GET that carries `sid`. -/
def Follows (settings : Settings) (sid : String) (s : State) : Prop :=
  ∃ s', (machine settings).Run Ends s s' ∧ s'.get = .requesting sid [] ∧
    s'.history.head? = some (.request (some sid))

theorem follows_step (h : Step settings s a s') (hok : Ends s a)
    (hf : Follows settings sid s') : Follows settings sid s := by
  obtain ⟨u, hrun, hget⟩ := hf
  exact ⟨u, (System.Run.refl.step hok h).trans hrun, hget⟩

section Rounds

variable (hopen : s.closed = false) (hsid : s.sessionId = some sid)

include hopen hsid

theorem follows_of_waiting (hget : s.get = .waiting) : Follows settings sid s :=
  ⟨_, System.Run.refl.step (a := .getRead) trivial (.getRead hget hsid hopen), rfl, rfl⟩

theorem follows_of_looping (hget : s.get = .looping) : Follows settings sid s := by
  refine follows_step (.getLoop hget) trivial (follows_of_waiting hopen hsid ?_)
  simp [hopen]

theorem follows_of_checking (hget : s.get = .checking) : Follows settings sid s := by
  refine follows_step (.getCheck hget) trivial (follows_step (a := .getSleep) (.getSleep ?_) trivial
    (follows_of_looping hopen hsid rfl))
  simp [hopen]

theorem follows_of_requesting {sid' : String} {buf : Bytes} (hget : s.get = .requesting sid' buf) :
    Follows settings sid s :=
  follows_step (a := .getResponse none) (.getResponse hget) trivial
    (follows_of_checking hopen hsid rfl)

end Rounds

/-- The events of a chunk are handed over one by one, and the stream goes on. -/
theorem follows_of_receiving {sid' : String} {events : List SseEvent} {buf : Bytes}
    (hopen : s.closed = false) (hsid : s.sessionId = some sid)
    (hget : s.get = .receiving sid' events buf) : Follows settings sid s := by
  induction events generalizing s with
  | nil => exact follows_step (.getMore hget) trivial (follows_of_requesting hopen hsid rfl)
  | cons se events ih => exact follows_step (.getEvent hget) trivial (ih hopen hsid rfl)

/-- From any stage at which the worker listens, the session id of the moment is followed by a GET
for it. -/
theorem follows_of_listens (hopen : s.closed = false) (hsid : s.sessionId = some sid)
    (hget : s.get.Listens) : Follows settings sid s := by
  cases hg : s.get with
  | looping => exact follows_of_looping hopen hsid hg
  | waiting => exact follows_of_waiting hopen hsid hg
  | requesting sid' buf => exact follows_of_requesting hopen hsid hg
  | receiving sid' events buf => exact follows_of_receiving hopen hsid hg
  | checking => exact follows_of_checking hopen hsid hg
  | sleeping =>
    exact follows_step (.getSleep hg) trivial (follows_of_looping hopen hsid rfl)
  | absent | notifying _ | resetting _ | exited =>
    rw [hg] at hget
    exact hget.elim

/-- As long as a started transport is open and no GET is answered 405, 401, 403 or 404, the worker
of its GET stream listens, and whatever session id there is, it comes to a GET for it. -/
theorem get_worker_listens (settings : Settings) (hstream : settings.openGetStream = true)
    (s : State) (h : (machine settings).Reachable Welcome s) (hstart : s.start = .done)
    (hopen : s.closed = false) :
    s.get.Listens ∧ ∀ sid, s.sessionId = some sid → Follows settings sid s := by
  have hl := listening_reachable h hstart hopen hstream
  exact ⟨hl, fun sid hsid => follows_of_listens hopen hsid hl⟩

def welcomed : Response := { status := 200 }

/-- A stream has ended, and the worker will ask for the next one. -/
theorem stream_comes_back : ∃ s : State, s.get = .checking ∧ s.get.Listens ∧
    Follows resumed "a" s := by
  have h₁ : (machine resumed).Reachable Welcome (ready resumed) := ready_reachable
    (fun _ => trivial) (fun _ => trivial) (fun _ => trivial) (fun _ => trivial) (fun _ => trivial)
  have h₂ := reachable_step (a := .getLoop) h₁ trivial (.getLoop rfl)
  have h₃ := reachable_step (a := .getRead) h₂ trivial (.getRead rfl rfl rfl)
  have h₄ := reachable_step (a := .getResponse (some welcomed)) h₃
    ⟨by decide, by decide, by decide⟩ (.getResponse rfl)
  obtain ⟨hl, hf⟩ := get_worker_listens resumed rfl _ h₄ rfl rfl
  exact ⟨_, rfl, hl, hf "a" rfl⟩

/-- A worker that has left does not come back. -/
theorem get_exited_run (hd : s.start = .done) (hget : s.get = .exited)
    (hrun : (machine settings).Run Free s s') : s'.get = .exited := by
  have hboth : s'.start = .done ∧ s'.get = .exited := by
    refine hrun.invariant (P := fun s => s.start = .done ∧ s.get = .exited) ?_ ⟨hd, hget⟩
    rintro s a s' ⟨hd, hget⟩ - hst
    cases hst with
    | startClaim h | startOpen h | startRearm h | startWorker h | startGet h =>
      cases hd.symm.trans h
    | getLoop h | getRead h | getWake h | getChunk h | getEvent h | getMore h | getAbort h
    | getResponse h | getNotify h | getReset h | getCheck h | getSleep h => cases hget.symm.trans h
    | send | sendCheck | postDisarm =>
      split <;> exact ⟨hd, hget⟩
    | _ => exact ⟨hd, hget⟩
  exact hboth.2

/-- The GET is answered 404, and the worker is gone when a POST brings the next session id. -/
theorem renewed_session_has_no_stream : ∃ s : State, (machine resumed).Reachable Unrefused s ∧
    s.start = .done ∧ s.closed = false ∧ s.sessionId = some "b" ∧ ¬s.get.Listens ∧
    ∀ s', (machine resumed).Run Free s s' → s'.get = .exited := by
  have h₁ : (machine resumed).Reachable Unrefused (ready resumed) := ready_reachable
    (fun _ => trivial) (fun _ => trivial) (fun _ => trivial) (fun _ => trivial) (fun _ => trivial)
  have h₂ := reachable_step (a := .getLoop) h₁ trivial (.getLoop rfl)
  have h₃ := reachable_step (a := .getRead) h₂ trivial (.getRead rfl rfl rfl)
  have h₄ := reachable_step (a := .getResponse (some unknown)) h₃
    ⟨by decide, by decide⟩ (.getResponse rfl)
  have h₅ := reachable_step (a := .getReset) h₄ trivial (.getReset rfl)
  have h₆ := reachable_step (a := .send 0 "x") h₅ trivial (.send rfl)
  have h₇ := reachable_step (a := .sendCheck 0) h₆ trivial (.sendCheck rfl)
  have h₈ := reachable_step (a := .sendPush 0) h₇ trivial (.sendPush rfl)
  have h₉ := reachable_step (a := .workerTake) h₈ trivial (.workerTake rfl rfl)
  have h₁₀ := reachable_step (a := .workerSpawn 1) h₉ trivial (.workerSpawn rfl rfl)
  have h₁₁ := reachable_step (a := .postRead 1) h₁₀ trivial (.postRead rfl)
  have h₁₂ := reachable_step (a := .postResponse 1 renewed) h₁₁ trivial (.postResponse rfl)
  have h₁₃ := reachable_step (a := .postCapture 1) h₁₂ trivial (.postCapture rfl rfl)
  exact ⟨_, h₁₃, rfl, rfl, rfl, id, fun s' hrun => get_exited_run rfl rfl hrun⟩

end Mcp.Http.ClientTransport
