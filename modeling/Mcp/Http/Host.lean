import Mcp.Http.Gates
import Mcp.Library.Dict
import Mcp.Library.Transition

/-! The HttpServerHost: handlers on httplib's worker threads, and stop(). One step is one section
of `sessions_mu`, one stage of a handler, or one hook, close or join. -/
namespace Mcp.Http

open Transition

/-- What a handler does next. A session context is named by its number, in the order in which
contexts are inserted. -/
inductive PC where
  | idle
  -- POST
  | resolving (req : Request) (sid : String)
  | delivering (k : ℕ)
  -- GET
  | opening (sid : String)
  | streaming (k : ℕ)
  -- DELETE
  | erasing (sid : String)
  | hooking (k : ℕ)
  | closing (k : ℕ)
  | joining (k : ℕ)
  | responding (res : Response)

/-- Where stop() is; `drained` is the table it has taken. -/
inductive StopPC where
  | running
  | swapping
  | hooking (todo drained : List ℕ)
  | closing (todo drained : List ℕ)
  | stoppingHttp (drained : List ℕ)
  | joiningListener (drained : List ℕ)
  | joining (todo : List ℕ)
  | stopped

structure State where
  sessions : Dict String ℕ
  /-- The ids of the contexts that have been inserted, in order. -/
  ids : List String
  /-- Servers that have been constructed. -/
  servers : ℕ
  /-- What `make_session_id` has returned. -/
  minted : List String
  /-- Contexts for which `on_session_closed` has been invoked, in order. -/
  hooked : List ℕ
  /-- Contexts whose transport has been closed. -/
  closed : List ℕ
  /-- Contexts whose `run_thread` has been joined. -/
  joined : List ℕ
  /-- `http.stop()` has not been called. -/
  accepting : Bool
  pc : ℕ → PC
  stop : StopPC

/-- A host that has been started. -/
def fresh : State where
  sessions := ∅
  ids := []
  servers := 0
  minted := []
  hooked := []
  closed := []
  joined := []
  accepting := true
  pc _ := .idle
  stop := .running

def State.setPC (s : State) (t : ℕ) (pc : PC) : State := { s with pc := Function.update s.pc t pc }

def unknownSession : Response := { status := 404, content := "unknown or expired session id" }

def missingSession : Response :=
  { status := 400, content := "missing session id; send initialize first" }

/-- What the section of POST finds. -/
inductive Resolution where
  | found (k : ℕ)
  | create
  | unknown
  | missing
  deriving DecidableEq

def State.resolve (s : State) (req : Request) (sid : String) : Resolution :=
  if sid.isEmpty then .missing
  else
    match s.sessions.lookup sid with
    | some k => .found k
    | none => if req.isInitializeBody then .create else .unknown

/-- The factory returns and the thread starts: the context is inserted. -/
def State.insert (s : State) (sid : String) : State :=
  { s with
    sessions := s.sessions.insert sid s.ids.length
    ids := s.ids ++ [sid]
    servers := s.servers + 1 }

inductive Action where
  | refuse (t : ℕ) (req : Request)
  | post (t : ℕ) (req : Request)
  | postMint (t : ℕ) (req : Request) (sid : String)
  | resolve (t : ℕ)
  | resolveThrow (t : ℕ)
  | reply (t : ℕ) (res : Response)
  | get (t : ℕ) (req : Request)
  | open (t : ℕ)
  | leave (t : ℕ)
  | delete (t : ℕ) (req : Request)
  | erase (t : ℕ)
  | hook (t : ℕ)
  | hookThrow (t : ℕ)
  | close (t : ℕ)
  | join (t : ℕ)
  | respond (t : ℕ)
  | stop
  | stopAgain
  | stopSwap
  | stopHook
  | stopHookThrow
  | stopHooked
  | stopClose
  | stopClosed
  | stopHttp
  | stopListener
  | stopJoin
  | stopReturn

inductive Step (opts : Options) : State → Action → State → Prop where
  | refuse {s t req res} : s.pc t = .idle → s.accepting = true →
      postGate opts req = some res ∨ getGate opts req = some res ∨ deleteGate opts req = some res →
      Step opts s (.refuse t req) (s.setPC t (.responding res))
  | post {s t req} : s.pc t = .idle → s.accepting = true → postGate opts req = none →
      ¬ (req.sessionId.isEmpty = true ∧ req.isInitializeBody = true) →
      Step opts s (.post t req) (s.setPC t (.resolving req req.sessionId))
  -- make_session_id returns hex digits and repeats no id
  | postMint {s t req sid} : s.pc t = .idle → s.accepting = true → postGate opts req = none →
      req.sessionId.isEmpty = true → req.isInitializeBody = true →
      sid.isEmpty = false → sid ∉ s.minted →
      Step opts s (.postMint t req sid)
        ({ s with minted := s.minted ++ [sid] }.setPC t (.resolving req sid))
  | resolve {s t req sid} : s.pc t = .resolving req sid →
      Step opts s (.resolve t) (match s.resolve req sid with
        | .found k => s.setPC t (.delivering k)
        | .create => (s.insert sid).setPC t (.delivering s.ids.length)
        | .unknown => s.setPC t (.responding unknownSession)
        | .missing => s.setPC t (.responding missingSession))
  -- the factory or the start of the thread throws; httplib answers 500
  | resolveThrow {s t req sid} : s.pc t = .resolving req sid → s.resolve req sid = .create →
      Step opts s (.resolveThrow t)
        ({ s with servers := s.servers + 1 }.setPC t (.responding { status := 500 }))
  | reply {s t k res} : s.pc t = .delivering k →
      Step opts s (.reply t res) (s.setPC t (.responding res))
  | get {s t req} : s.pc t = .idle → s.accepting = true → getGate opts req = none →
      Step opts s (.get t req) (s.setPC t (.opening req.sessionId))
  | open {s t sid} : s.pc t = .opening sid →
      Step opts s (.open t) (match s.sessions.lookup sid with
        | some k => s.setPC t (.streaming k)
        | none => s.setPC t (.responding { status := 404 }))
  | leave {s t k} : s.pc t = .streaming k → Step opts s (.leave t) (s.setPC t .idle)
  | delete {s t req} : s.pc t = .idle → s.accepting = true → deleteGate opts req = none →
      Step opts s (.delete t req) (s.setPC t (.erasing req.sessionId))
  | erase {s t sid} : s.pc t = .erasing sid →
      Step opts s (.erase t) (match s.sessions.lookup sid with
        | some k => { s with sessions := s.sessions.erase sid }.setPC t (.hooking k)
        | none => s.setPC t (.responding { status := 204 }))
  | hook {s t k} : s.pc t = .hooking k →
      Step opts s (.hook t) ({ s with hooked := s.hooked ++ [k] }.setPC t (.closing k))
  -- logged by invoke_session_closed
  | hookThrow {s t k} : s.pc t = .hooking k →
      Step opts s (.hookThrow t) ({ s with hooked := s.hooked ++ [k] }.setPC t (.closing k))
  | close {s t k} : s.pc t = .closing k →
      Step opts s (.close t) ({ s with closed := s.closed ++ [k] }.setPC t (.joining k))
  | join {s t k} : s.pc t = .joining k →
      Step opts s (.join t)
        ({ s with joined := s.joined ++ [k] }.setPC t (.responding { status := 204 }))
  | respond {s t res} : s.pc t = .responding res → Step opts s (.respond t) (s.setPC t .idle)
  | stop {s} : s.stop = .running → Step opts s .stop { s with stop := .swapping }
  -- stopping_ is set already
  | stopAgain {s} : s.stop ≠ .running → Step opts s .stopAgain s
  | stopSwap {s} : s.stop = .swapping →
      Step opts s .stopSwap { s with
        sessions := ∅
        stop := .hooking (Dict.list s.sessions) (Dict.list s.sessions) }
  | stopHook {s k todo drained} : s.stop = .hooking (k :: todo) drained →
      Step opts s .stopHook { s with hooked := s.hooked ++ [k], stop := .hooking todo drained }
  | stopHookThrow {s k todo drained} : s.stop = .hooking (k :: todo) drained →
      Step opts s .stopHookThrow { s with
        hooked := s.hooked ++ [k]
        stop := .hooking todo drained }
  | stopHooked {s drained} : s.stop = .hooking [] drained →
      Step opts s .stopHooked { s with stop := .closing drained drained }
  | stopClose {s k todo drained} : s.stop = .closing (k :: todo) drained →
      Step opts s .stopClose { s with closed := s.closed ++ [k], stop := .closing todo drained }
  | stopClosed {s drained} : s.stop = .closing [] drained →
      Step opts s .stopClosed { s with stop := .stoppingHttp drained }
  | stopHttp {s drained} : s.stop = .stoppingHttp drained →
      Step opts s .stopHttp { s with accepting := false, stop := .joiningListener drained }
  -- the listener thread joins httplib's workers
  | stopListener {s drained} : s.stop = .joiningListener drained → (∀ t, s.pc t = .idle) →
      Step opts s .stopListener { s with stop := .joining drained }
  | stopJoin {s k todo} : s.stop = .joining (k :: todo) →
      Step opts s .stopJoin { s with joined := s.joined ++ [k], stop := .joining todo }
  | stopReturn {s} : s.stop = .joining [] → Step opts s .stopReturn { s with stop := .stopped }

def machine (opts : Options) : System State Action where
  Initial s := s = fresh
  Step := Step opts

theorem reachable_step {opts : Options} {ok : State → Action → Prop} {s s' : State} {a : Action}
    (h : (machine opts).Reachable ok s) (ha : ok s a) (hs : Step opts s a s') :
    (machine opts).Reachable ok s' := h.step ha hs

@[simp] theorem setPC_pc (s : State) (t : ℕ) (pc : PC) :
    (s.setPC t pc).pc = Function.update s.pc t pc := rfl

/-- POST makes a session for an id it does not find, when the body looks like an initialize. -/
theorem resolve_eq_create {s : State} {req : Request} {sid : String} :
    s.resolve req sid = .create ↔
      sid.isEmpty = false ∧ s.sessions.lookup sid = none ∧ req.isInitializeBody = true := by
  unfold State.resolve
  cases sid.isEmpty <;> cases s.sessions.lookup sid <;> cases req.isInitializeBody <;> simp

theorem resolve_found {s : State} {req : Request} {sid : String} {k : ℕ}
    (h : s.resolve req sid = .found k) : s.sessions.lookup sid = some k := by
  unfold State.resolve at h
  split at h
  · cases h
  · split at h
    · rename_i hl
      cases h
      exact hl
    · split at h <;> cases h

/-- A client that opens a session. -/
def hello : Request where
  headers := []
  body := "\x7b\"jsonrpc\":\"2.0\",\"id\":1,\"method\":\"initialize\",\"params\":\x7b\x7d\x7d"

theorem hello_isInitializeBody : hello.isInitializeBody = true := by decide

theorem resolve_hello {s : State} {sid : String} (hsid : sid.isEmpty = false)
    (hl : s.sessions.lookup sid = none) : s.resolve hello sid = .create :=
  resolve_eq_create.mpr ⟨hsid, hl, hello_isInitializeBody⟩

theorem resolve_create {opts : Options} {s : State} {t : ℕ} {req : Request} {sid : String}
    (hpc : s.pc t = .resolving req sid) (hr : s.resolve req sid = .create) :
    Step opts s (.resolve t) ((s.insert sid).setPC t (.delivering s.ids.length)) := by
  have hs := @Step.resolve opts s t req sid hpc
  rwa [hr] at hs

end Mcp.Http
