import Mcp.Http.ClientTransport

/-! The session id of the HttpClientTransport, after the server has answered 404 for it. -/
namespace Mcp.Http.ClientTransport

open Transition

variable {settings : Settings} {s s' : State} {a : Action} {sid : String} {e : Event}
  {history : List Event}

/-- A request that carried `sid` has been answered 404, and no response has set `sid` since. -/
def Dead (sid : String) : List Event → Prop
  | [] => False
  | .gone id :: earlier => id = sid ∨ Dead sid earlier
  | .installed id :: earlier => id ≠ sid ∧ Dead sid earlier
  | _ :: earlier => Dead sid earlier

/-- No request carries an id that is dead. -/
def Forgetful (history : List Event) : Prop :=
  ∀ later sid earlier, history = later ++ .request (some sid) :: earlier → ¬Dead sid earlier

/-- A reset finds no other id than the one that was answered 404. -/
def ForgetsOwn (history : List Event) : Prop :=
  ∀ sid old, .forgot sid old ∈ history → old = none ∨ old = some sid

theorem forgetful_cons (h : Forgetful history)
    (he : ∀ sid, e = .request (some sid) → ¬Dead sid history) : Forgetful (e :: history) := by
  intro later sid earlier hsplit
  cases later with
  | nil =>
    obtain ⟨rfl, rfl⟩ : e = .request (some sid) ∧ history = earlier := by simpa using hsplit
    exact he sid rfl
  | cons x later =>
    obtain ⟨rfl, hrest⟩ : e = x ∧ history = later ++ .request (some sid) :: earlier := by
      simpa using hsplit
    exact h later sid earlier hrest

/-- No POST that carried the id which is still there is answered 404, unless the GET worker is
about to reset that id; while the GET worker is, no POST reads the id; and when it resets, no other
id is there. -/
def Heedful (s : State) : Action → Prop
  | .postResponse t res => ∀ frame sid, s.pc t = .sending frame (some sid) → res.status = 404 →
      s.sessionId = some sid → s.get = .resetting sid
  | .postRead _ => ∀ sid, s.get = .resetting sid → s.sessionId ≠ some sid
  | .getReset => ∀ sid, s.get = .resetting sid → s.sessionId = none ∨ s.sessionId = some sid
  | _ => True

/-- The GET worker does not lose sight of a reset that it has to make. -/
def Holds (s s' : State) : Prop := ∀ sid, s.get = .resetting sid → s'.get = .resetting sid

/-- What a step can do to the session id. -/
inductive Touches (s : State) (a : Action) (s' : State) : Prop where
  | quiet : s'.sessionId = s.sessionId → Holds s s' →
      (s'.history = s.history ∨ ∃ res, s'.history = notice res :: s.history) → Touches s a s'
  | request : s'.sessionId = s.sessionId → Holds s s' →
      s'.history = .request s.sessionId :: s.history →
      (∀ sid, s.get = .resetting sid → ∃ t, a = .postRead t) → Touches s a s'
  | gone (sid : String) : s'.sessionId = s.sessionId → Holds s s' →
      s'.history = .gone sid :: s.history →
      (s'.get = .resetting sid ∨ ∃ t frame res, a = .postResponse t res ∧
        s.pc t = .sending frame (some sid) ∧ res.status = 404) → Touches s a s'
  | installed (sid : String) : s'.sessionId = some sid → Holds s s' →
      s'.history = .installed sid :: s.history → Touches s a s'
  | forgot (sid : String) : a = .getReset → s.get = .resetting sid → s'.sessionId = none →
      s'.history = .forgot sid s.sessionId :: s.history → Touches s a s'

/-- The GET worker comes into being when start() has nothing more to do. -/
def Unstarted (s : State) : Prop := s.start ≠ .done → s.get = .absent

theorem unstarted_step (h : Step settings s a s') (hu : Unstarted s) : Unstarted s' := by
  cases h with
  | startClaim h | startOpen h | startRearm h | startWorker h => exact fun _ => hu (by simp [h])
  | startGet => exact fun hne => absurd rfl hne
  | getLoop h | getRead h | getWake h | getChunk h | getEvent h | getMore h | getAbort h
  | getResponse h | getNotify h | getReset h | getCheck h | getSleep h =>
    intro hne
    cases h.symm.trans (hu hne)
  | send | sendCheck | postDisarm =>
    split <;> exact hu
  | _ => exact hu

/-- A GET worker that is elsewhere has no reset to make. -/
theorem holds_of_get {g : Get} (h : s.get = g) (hg : ∀ sid, g ≠ .resetting sid) : Holds s s' :=
  fun sid hsid => absurd (h.symm.trans hsid) (hg sid)

theorem touches_of_step (h : Step settings s a s') (hu : Unstarted s) : Touches s a s' := by
  cases h with
  | startGet h =>
    have habsent : s.get = .absent := hu (by simp [h])
    exact .quiet rfl (holds_of_get habsent (by simp)) (.inl rfl)
  | send | sendCheck | postDisarm =>
    split <;> exact .quiet rfl (fun _ => id) (.inl rfl)
  | @postRead t => exact .request rfl (fun _ => id) rfl fun _ _ => ⟨t, rfl⟩
  | @postResponse t frame sid res h =>
    cases sid with
    | none => exact .quiet rfl (fun _ => id) (.inl rfl)
    | some sid =>
      by_cases hres : res.status = 404
      · refine .gone sid rfl (fun _ => id) ?_ (.inr ⟨t, frame, res, rfl, h, hres⟩)
        simp [goneEvents, hres, State.setPC]
      · refine .quiet rfl (fun _ => id) (.inl ?_)
        simp [goneEvents, hres, State.setPC]
  | @postCapture t res sid => exact .installed sid rfl (fun _ => id) rfl
  | @postNotify t res => exact .quiet rfl (fun _ => id) (.inr ⟨res, rfl⟩)
  | @getRead sid h hsid =>
    refine .request rfl (holds_of_get h (by simp)) (by rw [hsid]) ?_
    intro sid' hsid'
    cases h.symm.trans hsid'
  | getLoop h | getWake h | getChunk h | getEvent h | getMore h | getAbort h | getCheck h
  | getSleep h => exact .quiet rfl (holds_of_get h (by simp)) (.inl rfl)
  | @getResponse sid buf res h =>
    have hholds : ∀ u, Holds s u := fun u => holds_of_get h (by simp)
    cases res with
    | none => exact .quiet rfl (hholds _) (.inl rfl)
    | some res =>
      by_cases hres : res.status = 404
      · refine .gone sid rfl (hholds _) ?_ (.inl ?_)
        · simp [goneEvents, hres]
        · simp [afterGet, isUnauthorized, hres]
      · refine .quiet rfl (hholds _) (.inl ?_)
        simp [goneEvents, hres]
  | @getNotify res h => exact .quiet rfl (holds_of_get h (by simp)) (.inr ⟨res, rfl⟩)
  | @getReset sid h => exact .forgot sid rfl h rfl rfl
  | _ => exact .quiet rfl (fun _ => id) (.inl rfl)

/-- The invariant of the session id. -/
structure Forgetting (s : State) : Prop where
  unstarted : Unstarted s
  dead : ∀ sid, Dead sid s.history → s.sessionId ≠ some sid ∨ s.get = .resetting sid
  requests : Forgetful s.history
  resets : ForgetsOwn s.history

theorem dead_step (h : Touches s a s') (hok : Heedful s a) (hf : Forgetting s)
    (hd : Dead sid s'.history) : s'.sessionId ≠ some sid ∨ s'.get = .resetting sid := by
  have hkeep : s'.sessionId = s.sessionId → Holds s s' → Dead sid s.history →
      s'.sessionId ≠ some sid ∨ s'.get = .resetting sid := by
    intro hsame hholds hdead
    rw [hsame]
    exact (hf.dead sid hdead).imp_right (hholds sid)
  cases h with
  | quiet hsame hholds hhistory =>
    rcases hhistory with hhistory | ⟨res, hhistory⟩ <;> rw [hhistory] at hd <;>
      exact hkeep hsame hholds hd
  | request hsame hholds hhistory =>
    rw [hhistory] at hd
    exact hkeep hsame hholds hd
  | gone id hsame hholds hhistory hcause =>
    rw [hhistory] at hd
    rcases hd with rfl | hd
    · rcases hcause with hreset | ⟨t, frame, res, rfl, hpc, hres⟩
      · exact .inr hreset
      · by_cases hid : s.sessionId = some id
        · exact .inr (hholds id (hok frame id hpc hres hid))
        · exact .inl (by rwa [hsame])
    · exact hkeep hsame hholds hd
  | installed id hset hholds hhistory =>
    rw [hhistory] at hd
    left
    rw [hset]
    exact fun he => hd.1 (Option.some.inj he)
  | forgot id ha hget hnone hhistory => exact .inl (by simp [hnone])

theorem requests_step (h : Touches s a s') (hok : Heedful s a) (hf : Forgetting s) :
    Forgetful s'.history := by
  cases h with
  | quiet _ _ hhistory =>
    rcases hhistory with hhistory | ⟨res, hhistory⟩
    · rw [hhistory]
      exact hf.requests
    · rw [hhistory]
      exact forgetful_cons hf.requests (by simp [notice])
  | request _ _ hhistory hcause =>
    rw [hhistory]
    refine forgetful_cons hf.requests ?_
    intro sid he hd
    have hid : s.sessionId = some sid := by simpa using he
    rcases hf.dead sid hd with hne | hreset
    · exact hne hid
    · obtain ⟨t, rfl⟩ := hcause sid hreset
      exact hok sid hreset hid
  | gone _ _ _ hhistory | installed _ _ _ hhistory | forgot _ _ _ _ hhistory =>
    rw [hhistory]
    exact forgetful_cons hf.requests (by simp)

theorem resets_step (h : Touches s a s') (hok : Heedful s a) (hf : Forgetting s) :
    ForgetsOwn s'.history := by
  cases h with
  | quiet _ _ hhistory =>
    rcases hhistory with hhistory | ⟨res, hhistory⟩ <;> rw [hhistory]
    · exact hf.resets
    · simpa [ForgetsOwn, notice] using hf.resets
  | request _ _ hhistory _ | gone _ _ _ hhistory | installed _ _ _ hhistory =>
    rw [hhistory]
    simpa [ForgetsOwn] using hf.resets
  | forgot id ha hget _ hhistory =>
    subst ha
    rw [hhistory]
    intro sid old hmem
    rcases List.mem_cons.mp hmem with he | hmem
    · cases he
      exact hok id hget
    · exact hf.resets sid old hmem

theorem forgetting_step (h : Step settings s a s') (hok : Heedful s a) (hf : Forgetting s) :
    Forgetting s' := by
  have ht := touches_of_step h hf.unstarted
  exact ⟨unstarted_step h hf.unstarted, fun _ => dead_step ht hok hf, requests_step ht hok hf,
    resets_step ht hok hf⟩

/-- In every run of this kind, no request carries an id that has been answered 404 and not been set
again since, and a 404 clears no other id than its own. -/
theorem forgets_exactly_the_dead_id (settings : Settings) (s : State)
    (hs : (machine settings).Reachable Heedful s) :
    Forgetful s.history ∧ ForgetsOwn s.history := by
  have hf : Forgetting s := by
    refine hs.invariant (P := Forgetting) ?_ fun _ _ _ _ hf hok hst => forgetting_step hst hok hf
    rintro s rfl
    refine ⟨fun _ => rfl, fun _ hd => hd.elim, ?_, fun _ _ hmem => nomatch hmem⟩
    intro later sid earlier h
    simp [fresh] at h
  exact ⟨hf.requests, hf.resets⟩

/-- A client that resumes a session. -/
def resumed : Settings := { sessionId := some "a" }

def unknown : Response := { status := 404 }

def renewed : Response := { status := 200, headers := [("Mcp-Session-Id", "b")] }

theorem resumed_listening : (machine resumed).Reachable Heedful
    { fresh resumed with start := .done, worker := .looping, get := .waiting } := by
  have h₁ : (machine resumed).Reachable Heedful (ready resumed) := ready_reachable
    (fun _ => trivial) (fun _ => trivial) (fun _ => trivial) (fun _ => trivial) (fun _ => trivial)
  exact reachable_step (a := .getLoop) h₁ trivial (.getLoop rfl)

/-- The GET stream is answered 404, and the id is forgotten. -/
theorem stream_forgets : ∃ s : State, .gone "a" ∈ s.history ∧ s.sessionId = none ∧
    Forgetful s.history ∧ ForgetsOwn s.history := by
  have h₁ := reachable_step (a := .getRead) resumed_listening trivial (.getRead rfl rfl rfl)
  have h₂ := reachable_step (a := .getResponse (some unknown)) h₁ trivial (.getResponse rfl)
  have h₃ := reachable_step (a := .getReset) h₂ (by rintro sid ⟨⟩; exact .inr rfl) (.getReset rfl)
  exact ⟨_, .tail _ (.head _), rfl, forgets_exactly_the_dead_id resumed _ h₃⟩

/-- A first frame is on its way with the id, and the thread of a second one has begun. -/
theorem resumed_posting : ∃ s : State, (machine resumed).Reachable Free s ∧
    s.sessionId = some "a" ∧ s.closed = false ∧ s.get = .waiting ∧
    s.pc 1 = .sending "x" (some "a") ∧ s.pc 2 = .entered "y" := by
  have h₀ := resumed_listening.free
  have h₁ := reachable_step (a := .send 0 "x") h₀ trivial (.send rfl)
  have h₂ := reachable_step (a := .sendCheck 0) h₁ trivial (.sendCheck rfl)
  have h₃ := reachable_step (a := .sendPush 0) h₂ trivial (.sendPush rfl)
  have h₄ := reachable_step (a := .workerTake) h₃ trivial (.workerTake rfl rfl)
  have h₅ := reachable_step (a := .workerSpawn 1) h₄ trivial (.workerSpawn rfl rfl)
  have h₆ := reachable_step (a := .postRead 1) h₅ trivial (.postRead rfl)
  have h₇ := reachable_step (a := .send 0 "y") h₆ trivial (.send rfl)
  have h₈ := reachable_step (a := .sendCheck 0) h₇ trivial (.sendCheck rfl)
  have h₉ := reachable_step (a := .sendPush 0) h₈ trivial (.sendPush rfl)
  have h₁₀ := reachable_step (a := .workerTake) h₉ trivial (.workerTake rfl rfl)
  have h₁₁ := reachable_step (a := .workerSpawn 2) h₁₀ trivial (.workerSpawn rfl rfl)
  exact ⟨_, h₁₁, rfl, rfl, rfl, rfl, rfl⟩

/-- A POST is answered 404, and the next one carries the same id; a GET is answered 404, and what it
resets is the id that a POST has brought meanwhile. -/
theorem dead_id_carried_on :
    (∃ s : State, (machine resumed).Reachable Free s ∧ ¬Forgetful s.history) ∧
      ∃ s : State, (machine resumed).Reachable Free s ∧ .forgot "a" (some "b") ∈ s.history := by
  obtain ⟨s, h, hsid, hclosed, hget, hpc₁, hpc₂⟩ := resumed_posting
  constructor
  · have h₁ := reachable_step (a := .postResponse 1 unknown) h trivial (.postResponse hpc₁)
    have h₂ := reachable_step (a := .postRead 2) h₁ trivial (.postRead hpc₂)
    refine ⟨_, h₂, fun hf => hf [] "a" (.gone "a" :: s.history) ?_ (.inl rfl)⟩
    exact congrArg (fun sid => Event.request sid :: .gone "a" :: s.history) hsid
  · have h₁ := reachable_step (a := .getRead) h trivial (.getRead hget hsid hclosed)
    have h₂ := reachable_step (a := .getResponse (some unknown)) h₁ trivial (.getResponse rfl)
    have h₃ := reachable_step (a := .postResponse 1 renewed) h₂ trivial (.postResponse hpc₁)
    have h₄ := reachable_step (a := .postCapture 1) h₃ trivial (.postCapture rfl rfl)
    have h₅ := reachable_step (a := .getReset) h₄ trivial (.getReset rfl)
    exact ⟨_, h₅, .head _⟩

end Mcp.Http.ClientTransport
