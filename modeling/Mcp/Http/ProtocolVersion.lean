import Mcp.Http.Bearer
import Mcp.Http.Verbs

/-! A request whose MCP-Protocol-Version is not supported. -/
namespace Mcp.Http

open Transition Threads

variable {codec : Codec} {opts : Options} {verb : Verb} {req : Request} {w w' : World codec}
  {r : Reply} {res : Response}

/-- The request is answered 400, and the host and the transports of its sessions are left as they
were. -/
def BadRequest (opts : Options) (verb : Verb) (req : Request) (w : World codec) : Prop :=
  ∃ res : Response, res.status = 400 ∧
    ∀ w' r, Serves opts verb req w w' r ↔ w' = w ∧ r = .response res

/-- The requests with an unsupported version that are answered so. -/
def RejectsVersion (opts : Options) (verb : Verb) (req : Request) : Prop :=
  verb = .post ∨ (opts.bearerValidator.isSome = true ∧ 1 < req.authorizations.length) ∨
    (verb = .delete ∧ authorize opts req = none ∧ req.header "Mcp-Session-Id" = none)

theorem serves_respond (h : handle opts verb req = respond res) (w' : World codec) (r : Reply) :
    Serves opts verb req w w' r ↔ w' = w ∧ r = .response res := by
  rw [Serves, h]
  exact Program.serves_done

theorem badRequest_of_respond (h : handle opts verb req = respond res) :
    BadRequest opts verb req w ↔ res.status = 400 := by
  constructor
  · rintro ⟨res', hstatus, hres'⟩
    obtain ⟨-, hr⟩ := (serves_respond h w (.response res')).mp ((hres' w _).mpr ⟨rfl, rfl⟩)
    cases hr
    exact hstatus
  · intro hstatus
    exact ⟨res, hstatus, serves_respond h⟩

/-- A reply that is no 400 is no rejection. -/
theorem not_badRequest (h : ∀ w' res, Serves opts verb req w w' (.response res) →
    res.status ≠ 400) : ¬BadRequest opts verb req w := by
  rintro ⟨res, hstatus, hres⟩
  exact h w res ((hres w _).mpr ⟨rfl, rfl⟩) hstatus

theorem authorize_isSome_of_several (hvalidator : opts.bearerValidator.isSome = true)
    (hseveral : 1 < req.authorizations.length) : ∃ res, authorize opts req = some res := by
  obtain ⟨validate, hvalidate⟩ := Option.isSome_iff_exists.mp hvalidator
  rcases authorize_checks hvalidate req with ⟨res, hres, -⟩ | ⟨value, token, hsingle, -⟩
  · exact ⟨res, hres⟩
  · simp [hsingle] at hseveral

theorem validator_of_authorize (h : authorize opts req = some res) :
    opts.bearerValidator.isSome = true := by
  cases hvalidator : opts.bearerValidator with
  | none =>
    rw [authorize, hvalidator] at h
    cases h
  | some validate => rfl

theorem post_badRequest {v : String} (horigin : originAllowed req opts.allowedOrigins = true)
    (hversion : req.header "MCP-Protocol-Version" = some v)
    (hbad : validProtocolVersionHeader v = false) : BadRequest opts .post req w := by
  have hgate : postGate opts req =
      some { status := 400, content := "unsupported MCP-Protocol-Version: " ++ v } := by
    simp [postGate, horigin, hversion, hbad]
  have hhandle : handle opts .post req =
      respond { status := 400, content := "unsupported MCP-Protocol-Version: " ++ v } := by
    rw [handle, handlePost, hgate]
  exact (badRequest_of_respond hhandle).mpr rfl

/-- Where a verb answers with what authorize made, several headers alone make it a 400. -/
theorem badRequest_of_authorize (hhandle : handle opts verb req = respond res)
    (hauth : authorize opts req = some res) : BadRequest opts verb req w ↔
      opts.bearerValidator.isSome = true ∧ 1 < req.authorizations.length := by
  rw [badRequest_of_respond hhandle, authorize_bad_request hauth]
  simp [validator_of_authorize hauth]

theorem few_of_authorize (hauth : authorize opts req = none) :
    ¬(opts.bearerValidator.isSome = true ∧ 1 < req.authorizations.length) := by
  rintro ⟨hvalidator, hseveral⟩
  obtain ⟨res, hres⟩ := authorize_isSome_of_several hvalidator hseveral
  cases hauth.symm.trans hres

theorem get_badRequest_iff (horigin : originAllowed req opts.allowedOrigins = true) :
    BadRequest opts .get req w ↔
      opts.bearerValidator.isSome = true ∧ 1 < req.authorizations.length := by
  cases hauth : authorize opts req with
  | some res =>
    have hgate : getGate opts req = some res := by simp [getGate, horigin, hauth]
    have hhandle : handle opts .get req = respond res := by rw [handle, handleGet, hgate]
    exact badRequest_of_authorize hhandle hauth
  | none =>
    refine iff_of_false (not_badRequest ?_) (few_of_authorize hauth)
    intro w' res hserves
    by_cases hsid : req.sessionId.isEmpty = true
    · have hgate : getGate opts req = some { status := 405 } := by
        simp [getGate, horigin, hauth, hsid]
      rw [Serves, handle, handleGet, hgate] at hserves
      obtain ⟨-, hr⟩ := Program.serves_done.mp hserves
      cases hr
      decide
    · have hgate : getGate opts req = none := by
        simp [getGate, horigin, hauth, hsid]
      simp only [Serves, handle, handleGet, hgate, serves_call] at hserves
      obtain ⟨x, u, hx, hserves⟩ := hserves
      cases x with
      | none =>
        obtain ⟨-, hr⟩ := Program.serves_done.mp hserves
        cases hr
        decide
      | some k =>
        obtain ⟨x, v, -, hserves⟩ := serves_call.mp hserves
        obtain ⟨-, hr⟩ := Program.serves_done.mp hserves
        cases hr

theorem delete_badRequest_iff (horigin : originAllowed req opts.allowedOrigins = true) :
    BadRequest opts .delete req w ↔
      (opts.bearerValidator.isSome = true ∧ 1 < req.authorizations.length) ∨
        (authorize opts req = none ∧ req.header "Mcp-Session-Id" = none) := by
  cases hauth : authorize opts req with
  | some res =>
    have hgate : deleteGate opts req = some res := by simp [deleteGate, horigin, hauth]
    have hhandle : handle opts .delete req = respond res := by rw [handle, handleDelete, hgate]
    simpa using badRequest_of_authorize hhandle hauth
  | none =>
    have hfew := few_of_authorize hauth
    cases hsid : req.header "Mcp-Session-Id" with
    | none =>
      have hgate : deleteGate opts req = some { status := 400 } := by
        simp [deleteGate, horigin, hauth, hsid]
      have hhandle : handle opts .delete req = respond { status := 400 } := by
        rw [handle, handleDelete, hgate]
      exact iff_of_true ((badRequest_of_respond hhandle).mpr rfl) (.inr ⟨rfl, rfl⟩)
    | some sid =>
      refine iff_of_false (not_badRequest ?_) (by simpa using hfew)
      intro w' res hserves
      have hgate : deleteGate opts req = none := by simp [deleteGate, horigin, hauth, hsid]
      simp only [Serves, handle, handleDelete, hgate, serves_call] at hserves
      obtain ⟨x, u, hx, hserves⟩ := hserves
      cases x with
      | none =>
        obtain ⟨-, hr⟩ := Program.serves_done.mp hserves
        cases hr
        decide
      | some k =>
        obtain ⟨x, v, -, hserves⟩ := serves_call.mp hserves
        obtain ⟨x, v, -, hserves⟩ := serves_call.mp hserves
        obtain ⟨x, v, -, hserves⟩ := serves_call.mp hserves
        obtain ⟨-, hr⟩ := Program.serves_done.mp hserves
        cases hr
        decide

/-- In every state of the host, a request from an allowed origin with an unsupported version is
rejected exactly if it is a POST, or carries several Authorization headers past a validator, or is a
DELETE without a session id that the bearer check lets through. -/
theorem version_rejected_iff (codec : Codec) (opts : Options) (verb : Verb) (req : Request)
    (v : String) (horigin : originAllowed req opts.allowedOrigins = true)
    (hversion : req.header "MCP-Protocol-Version" = some v)
    (hbad : validProtocolVersionHeader v = false) (w : World codec) :
    BadRequest opts verb req w ↔ RejectsVersion opts verb req := by
  cases verb with
  | post => exact iff_of_true (post_badRequest horigin hversion hbad) (.inl rfl)
  | get =>
    rw [get_badRequest_iff horigin, RejectsVersion]
    simp
  | delete =>
    rw [delete_badRequest_iff horigin, RejectsVersion]
    simp

def outdated : Request where
  headers := [("Mcp-Session-Id", "a"), ("MCP-Protocol-Version", "1999-01-01")]
  body := ""

/-- A host with one session. -/
def hosting (codec : Codec) : World codec where
  host := fresh.insert "a"
  transport _ := SessionTransport.fresh

def anyCodec : Codec where
  parse _ := none
  dump _ := none

theorem outdated_post_rejected : BadRequest {} .post outdated (hosting anyCodec) :=
  (version_rejected_iff anyCodec {} .post outdated "1999-01-01" rfl rfl rfl _).mpr (.inl rfl)

/-- The GET opens the stream of the session, and the DELETE ends the session. -/
theorem outdated_served :
    (∃ w', Serves {} .get outdated (hosting anyCodec) w' (.stream 0) ∧
      (w'.transport 0).getActive = true) ∧
    ∃ w', Serves {} .delete outdated (hosting anyCodec) w' (.response { status := 204 }) ∧
      w'.host.sessions.lookup "a" = none := by
  have hlookup : (hosting anyCodec).host.sessions.lookup "a" = some 0 := by decide
  have hfind := @Performs.find anyCodec (hosting anyCodec) "a"
  rw [hlookup] at hfind
  constructor
  · have hget : Serves {} .get outdated (hosting anyCodec) _ (.stream 0) :=
      .perform hfind (.perform (.enterGetStream .enterGet) .done)
    exact ⟨_, hget, rfl⟩
  · have hdelete : Serves {} .delete outdated (hosting anyCodec) _ (.response { status := 204 }) :=
      .perform (.take hlookup) (.perform .invokeSessionClosed
        (.perform (.close (.close rfl) (.drain rfl)) (.perform .join .done)))
    exact ⟨_, hdelete, by decide⟩

end Mcp.Http
