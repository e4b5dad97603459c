import Mcp.Http.Host
import Mcp.Http.SessionTransport
import Mcp.Library.Program

/-! The handlers of POST, GET and DELETE as programs over what they can do to the host and to the
transports of its sessions. -/
namespace Mcp.Http

open Transition Threads

/-- What a handler does besides reading its request. -/
inductive HostOp where
  | makeSessionId
  /-- The section of POST. -/
  | resolve (req : Request) (sid : String)
  /-- `deliver_request_or_notification`, and the wait for the reply. -/
  | exchange (k : ℕ) (raw : String)
  | find (sid : String)
  | enterGetStream (k : ℕ)
  /-- The section of DELETE. -/
  | take (sid : String)
  | invokeSessionClosed (k : ℕ)
  | close (k : ℕ)
  | join (k : ℕ)

/-- How the section of POST ends. -/
inductive Resolved where
  | context (k : ℕ)
  | noContext
  | threw

def HostOp.Ans : HostOp → Type
  | .makeSessionId => String
  | .resolve _ _ => Resolved
  | .exchange _ _ => Response
  | .find _ => Option ℕ
  | .enterGetStream _ => Unit
  | .take _ => Option ℕ
  | .invokeSessionClosed _ => Unit
  | .close _ => Unit
  | .join _ => Unit

/-- What httplib is left with: a response, or a content provider for the stream of a session. -/
inductive Reply where
  | response (res : Response)
  | stream (k : ℕ)

abbrev Handler := Program HostOp HostOp.Ans Reply

def callOp (o : HostOp) : Program HostOp HostOp.Ans o.Ans := .call o

def respond (res : Response) : Handler := .done (.response res)

/-- The id of a POST: its own, or a new one for an initialize body that brought none. -/
def postSessionId (req : Request) : Program HostOp HostOp.Ans String :=
  if req.sessionId.isEmpty && req.isInitializeBody then callOp .makeSessionId
  else .done req.sessionId

/-- A POST that has its id. -/
def postTo (req : Request) (sid : String) : Handler :=
  if sid.isEmpty then respond missingSession
  else do
    match ← callOp (.resolve req sid) with
    -- httplib answers an exception
    | .threw => respond { status := 500 }
    | .noContext => respond unknownSession
    | .context k => do
      let res ← callOp (.exchange k req.body)
      respond { res with headers := ("Mcp-Session-Id", sid) :: res.headers }

def handlePost (opts : Options) (req : Request) : Handler :=
  match postGate opts req with
  | some res => respond res
  | none => do
    let sid ← postSessionId req
    postTo req sid

def handleGet (opts : Options) (req : Request) : Handler :=
  match getGate opts req with
  | some res => respond res
  | none => do
    match ← callOp (.find req.sessionId) with
    | none => respond { status := 404 }
    | some k => do
      callOp (.enterGetStream k)
      .done (.stream k)

def handleDelete (opts : Options) (req : Request) : Handler :=
  match deleteGate opts req with
  | some res => respond res
  | none => do
    match ← callOp (.take req.sessionId) with
    | none => respond { status := 204 }
    | some k => do
      callOp (.invokeSessionClosed k)
      callOp (.close k)
      callOp (.join k)
      respond { status := 204 }

inductive Verb where
  | post
  | get
  | delete

def handle (opts : Options) : Verb → Request → Handler
  | .post => handlePost opts
  | .get => handleGet opts
  | .delete => handleDelete opts

/-- The host, and the transports of its contexts by number: their slots, queues and buffers. -/
structure World (codec : Codec) where
  host : State
  transport : ℕ → SessionTransport.State codec

variable {codec : Codec}

def World.setTransport (w : World codec) (k : ℕ) (tr : SessionTransport.State codec) :
    World codec :=
  { w with transport := Function.update w.transport k tr }

/-- One operation of a handler. -/
inductive Performs : World codec → (o : HostOp) → o.Ans → World codec → Prop where
  | makeSessionId {w} {sid : String} : sid.isEmpty = false → sid ∉ w.host.minted →
      Performs w .makeSessionId sid
        { w with host := { w.host with minted := w.host.minted ++ [sid] } }
  | found {w req sid k} : w.host.resolve req sid = .found k →
      Performs w (.resolve req sid) (.context k) w
  | unknown {w req sid} : w.host.resolve req sid = .unknown →
      Performs w (.resolve req sid) .noContext w
  | created {w req sid} : w.host.resolve req sid = .create →
      Performs w (.resolve req sid) (.context w.host.ids.length)
        { w.setTransport w.host.ids.length SessionTransport.fresh with host := w.host.insert sid }
  | threw {w req sid} : w.host.resolve req sid = .create →
      Performs w (.resolve req sid) .threw
        { w with host := { w.host with servers := w.host.servers + 1 } }
  | exchange {w k raw t tr tr' res} : (w.transport k).pc t = .idle →
      SessionTransport.Step codec (w.transport k) (.post t raw) tr →
      (SessionTransport.machine codec).Run Free tr tr' → tr'.pc t = .responding res →
      Performs w (.exchange k raw) res (w.setTransport k tr')
  | find {w sid} : Performs w (.find sid) (w.host.sessions.lookup sid) w
  | enterGetStream {w k tr} : SessionTransport.Step codec (w.transport k) .enterGet tr →
      Performs w (.enterGetStream k) () (w.setTransport k tr)
  | take {w sid k} : w.host.sessions.lookup sid = some k →
      Performs w (.take sid) (some k)
        { w with host := { w.host with sessions := w.host.sessions.erase sid } }
  | takeNothing {w sid} : w.host.sessions.lookup sid = none → Performs w (.take sid) none w
  | invokeSessionClosed {w k} : Performs w (.invokeSessionClosed k) ()
      { w with host := { w.host with hooked := w.host.hooked ++ [k] } }
  | closeAgain {w k} : (w.transport k).closed = true →
      Performs w (.close k) () { w with host := { w.host with closed := w.host.closed ++ [k] } }
  | close {w k tr tr'} : SessionTransport.Step codec (w.transport k) .close tr →
      SessionTransport.Step codec tr .drain tr' →
      Performs w (.close k) ()
        { w.setTransport k tr' with host := { w.host with closed := w.host.closed ++ [k] } }
  | join {w k} : Performs w (.join k) ()
      { w with host := { w.host with joined := w.host.joined ++ [k] } }

/-- A request is served from one state of the host to another. -/
abbrev Serves (opts : Options) (verb : Verb) (req : Request) (w w' : World codec) (r : Reply) :
    Prop := Program.Serves Performs w (handle opts verb req) w' r

/-- Where a reply leaves the thread of its handler. -/
def Reply.pc : Reply → PC
  | .response res => .responding res
  | .stream k => .streaming k

section Served

variable {opts : Options} {verb : Verb} {req : Request} {w w' : World codec} {r : Reply}
  {t k : ℕ} {s : State} {sid : String}

theorem serves_call {o : HostOp} {f : o.Ans → Handler} :
    Program.Serves Performs w (callOp o >>= f) w' r ↔
      ∃ x u, Performs w o x u ∧ Program.Serves Performs u (f x) w' r := Program.serves_perform

/-! The steps of a thread that is written into a state which is otherwise that of the handler. -/

theorem resolve_step (opts : Options) (s : State) (t : ℕ) (req : Request) (sid : String) :
    Step opts (s.setPC t (.resolving req sid)) (.resolve t) (match s.resolve req sid with
      | .found k => s.setPC t (.delivering k)
      | .create => (s.insert sid).setPC t (.delivering s.ids.length)
      | .unknown => s.setPC t (.responding unknownSession)
      | .missing => s.setPC t (.responding missingSession)) := by
  have hs := @Step.resolve opts (s.setPC t (.resolving req sid)) t req sid (by simp)
  have hr : (s.setPC t (.resolving req sid)).resolve req sid = s.resolve req sid := rfl
  rw [hr] at hs
  cases h : s.resolve req sid <;>
    simpa only [h, State.setPC, State.insert, Function.update_idem] using hs

theorem open_step (opts : Options) (s : State) (t : ℕ) (sid : String) :
    Step opts (s.setPC t (.opening sid)) (.open t) (match s.sessions.lookup sid with
      | some k => s.setPC t (.streaming k)
      | none => s.setPC t (.responding { status := 404 })) := by
  have hs := @Step.open opts (s.setPC t (.opening sid)) t sid (by simp)
  have hl : (s.setPC t (.opening sid)).sessions = s.sessions := rfl
  rw [hl] at hs
  cases h : s.sessions.lookup sid <;>
    simpa only [h, State.setPC, Function.update_idem] using hs

theorem erase_step (opts : Options) (s : State) (t : ℕ) (sid : String) :
    Step opts (s.setPC t (.erasing sid)) (.erase t) (match s.sessions.lookup sid with
      | some k => { s with sessions := s.sessions.erase sid }.setPC t (.hooking k)
      | none => s.setPC t (.responding { status := 204 })) := by
  have hs := @Step.erase opts (s.setPC t (.erasing sid)) t sid (by simp)
  have hl : (s.setPC t (.erasing sid)).sessions = s.sessions := rfl
  rw [hl] at hs
  cases h : s.sessions.lookup sid <;>
    simpa only [h, State.setPC, Function.update_idem] using hs

/-- A DELETE that has a context in hand. -/
theorem teardown_run (s : State) (t k : ℕ) :
    (machine opts).Run Free (s.setPC t (.hooking k))
      ({ s with
        hooked := s.hooked ++ [k]
        closed := s.closed ++ [k]
        joined := s.joined ++ [k] }.setPC t (.responding { status := 204 })) := by
  have hhook := @Step.hook opts (s.setPC t (.hooking k)) t k (by simp)
  have hclose := @Step.close opts ({ s with hooked := s.hooked ++ [k] }.setPC t (.closing k)) t k
    (by simp)
  have hjoin := @Step.join opts ({ s with
    hooked := s.hooked ++ [k]
    closed := s.closed ++ [k] }.setPC t (.joining k)) t k (by simp)
  simp only [State.setPC, Function.update_idem] at hhook hclose hjoin ⊢
  exact ((System.Run.refl.step trivial hhook).step trivial hclose).step trivial hjoin

theorem get_is_run (hpc : w.host.pc t = .idle) (hacc : w.host.accepting = true)
    (hgate : getGate opts req = none) (h : Serves opts .get req w w' r) :
    (machine opts).Run Free w.host (w'.host.setPC t r.pc) := by
  have hget : (machine opts).Run Free w.host (w.host.setPC t (.opening req.sessionId)) :=
    System.Run.refl.step trivial (.get hpc hacc hgate)
  have hopen := open_step opts w.host t req.sessionId
  simp only [Serves, handle, handleGet, hgate, serves_call] at h
  obtain ⟨x, u, hx, h⟩ := h
  cases hx
  cases hl : w.host.sessions.lookup req.sessionId with
  | none =>
    rw [hl] at h hopen
    obtain ⟨rfl, rfl⟩ := Program.serves_done.mp h
    exact hget.step trivial hopen
  | some k =>
    rw [hl] at h hopen
    obtain ⟨x, v, hx, h⟩ := serves_call.mp h
    cases hx
    obtain ⟨rfl, rfl⟩ := Program.serves_done.mp h
    exact hget.step trivial hopen

theorem delete_is_run (hpc : w.host.pc t = .idle) (hacc : w.host.accepting = true)
    (hgate : deleteGate opts req = none) (h : Serves opts .delete req w w' r) :
    (machine opts).Run Free w.host (w'.host.setPC t r.pc) := by
  have hdelete : (machine opts).Run Free w.host (w.host.setPC t (.erasing req.sessionId)) :=
    System.Run.refl.step trivial (.delete hpc hacc hgate)
  have herase := erase_step opts w.host t req.sessionId
  simp only [Serves, handle, handleDelete, hgate, serves_call] at h
  obtain ⟨x, u, hx, h⟩ := h
  cases hx with
  | takeNothing hl =>
    rw [hl] at herase
    obtain ⟨rfl, rfl⟩ := Program.serves_done.mp h
    exact hdelete.step trivial herase
  | take hl =>
    rename_i k
    rw [hl] at herase
    obtain ⟨x, v, hx, h⟩ := serves_call.mp h
    cases hx
    obtain ⟨x, v, hclose, h⟩ := serves_call.mp h
    obtain ⟨x, v, hx, h⟩ := serves_call.mp h
    cases hx
    obtain ⟨rfl, rfl⟩ := Program.serves_done.mp h
    have hrun := (hdelete.step trivial herase).trans (teardown_run _ t k)
    cases hclose <;> exact hrun

theorem resolveThrow_step {sid : String} (hr : s.resolve req sid = .create) :
    Step opts (s.setPC t (.resolving req sid)) (.resolveThrow t)
      ({ s with servers := s.servers + 1 }.setPC t (.responding { status := 500 })) := by
  have hs := @Step.resolveThrow opts (s.setPC t (.resolving req sid)) t req sid (by simp) hr
  simpa only [State.setPC, Function.update_idem] using hs

theorem reply_step (s : State) (t k : ℕ) (res : Response) :
    Step opts (s.setPC t (.delivering k)) (.reply t res) (s.setPC t (.responding res)) := by
  have hs := @Step.reply opts (s.setPC t (.delivering k)) t k res (by simp)
  simpa only [State.setPC, Function.update_idem] using hs

theorem postTo_is_run (h : Program.Serves Performs w (postTo req sid) w' r) :
    (machine opts).Run Free (w.host.setPC t (.resolving req sid)) (w'.host.setPC t r.pc) := by
  have hresolve := resolve_step opts w.host t req sid
  unfold postTo at h
  split at h
  · rename_i hsid
    obtain ⟨rfl, rfl⟩ := Program.serves_done.mp h
    have hr : w'.host.resolve req sid = .missing := by simp [State.resolve, hsid]
    rw [hr] at hresolve
    exact System.Run.refl.step trivial hresolve
  · obtain ⟨x, u, hx, h⟩ := serves_call.mp h
    cases hx with
    | found hr =>
      rw [hr] at hresolve
      obtain ⟨res, v, hx, h⟩ := serves_call.mp h
      cases hx
      obtain ⟨rfl, rfl⟩ := Program.serves_done.mp h
      exact (System.Run.refl.step trivial hresolve).step trivial (reply_step _ _ _ _)
    | unknown hr =>
      rw [hr] at hresolve
      obtain ⟨rfl, rfl⟩ := Program.serves_done.mp h
      exact System.Run.refl.step trivial hresolve
    | created hr =>
      rw [hr] at hresolve
      obtain ⟨res, v, hx, h⟩ := serves_call.mp h
      cases hx
      obtain ⟨rfl, rfl⟩ := Program.serves_done.mp h
      exact (System.Run.refl.step trivial hresolve).step trivial (reply_step _ _ _ _)
    | threw hr =>
      obtain ⟨rfl, rfl⟩ := Program.serves_done.mp h
      exact System.Run.refl.step trivial (resolveThrow_step hr)

theorem postSessionId_mint (h : (req.sessionId.isEmpty && req.isInitializeBody) = true) :
    postSessionId req = callOp .makeSessionId := if_pos h

theorem postSessionId_own (h : ¬ (req.sessionId.isEmpty && req.isInitializeBody) = true) :
    postSessionId req = .done req.sessionId := if_neg h

theorem post_is_run (hpc : w.host.pc t = .idle) (hacc : w.host.accepting = true)
    (hgate : postGate opts req = none) (h : Serves opts .post req w w' r) :
    (machine opts).Run Free w.host (w'.host.setPC t r.pc) := by
  simp only [Serves, handle, handlePost, hgate] at h
  by_cases hmint : (req.sessionId.isEmpty && req.isInitializeBody) = true
  · rw [postSessionId_mint hmint] at h
    obtain ⟨hempty, hinit⟩ := Bool.and_eq_true_iff.mp hmint
    obtain ⟨sid, u, hx, h⟩ := serves_call.mp h
    cases hx with
    | makeSessionId hsid hfresh =>
      have hmint : Step opts w.host (.postMint t req sid) _ :=
        .postMint hpc hacc hgate hempty hinit hsid hfresh
      exact (System.Run.refl.step trivial hmint).trans (postTo_is_run h)
  · rw [postSessionId_own hmint] at h
    have hpost : Step opts w.host (.post t req)
        (w.host.setPC t (.resolving req req.sessionId)) := by
      refine .post hpc hacc hgate ?_
      rintro ⟨hempty, hinit⟩
      exact hmint (by rw [hempty, hinit]; rfl)
    exact (System.Run.refl.step trivial hpost).trans (postTo_is_run h)

/-- Serving a request without interruption is a run of the host in which a thread takes it up and
comes to the reply. -/
theorem serves_is_run (hpc : w.host.pc t = .idle) (hacc : w.host.accepting = true)
    (h : Serves opts verb req w w' r) :
    (machine opts).Run Free w.host (w'.host.setPC t r.pc) := by
  have hrefused : ∀ res, handle opts verb req = respond res →
      (postGate opts req = some res ∨ getGate opts req = some res ∨
        deleteGate opts req = some res) →
      (machine opts).Run Free w.host (w'.host.setPC t r.pc) := by
    intro res he hgate
    rw [Serves, he] at h
    obtain ⟨rfl, rfl⟩ := Program.serves_done.mp h
    exact System.Run.refl.step trivial (.refuse hpc hacc hgate)
  cases verb with
  | post =>
    cases hgate : postGate opts req with
    | none => exact post_is_run hpc hacc hgate h
    | some res => exact hrefused res (by simp [handle, handlePost, hgate]) (.inl hgate)
  | get =>
    cases hgate : getGate opts req with
    | none => exact get_is_run hpc hacc hgate h
    | some res => exact hrefused res (by simp [handle, handleGet, hgate]) (.inr (.inl hgate))
  | delete =>
    cases hgate : deleteGate opts req with
    | none => exact delete_is_run hpc hacc hgate h
    | some res => exact hrefused res (by simp [handle, handleDelete, hgate]) (.inr (.inr hgate))

end Served

end Mcp.Http
