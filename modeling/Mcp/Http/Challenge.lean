import Mcp.Error
import Mcp.Http.Bearer
import Mcp.Library.AuthParams
import Mcp.Library.Lines

/-! What the client reads in a WWW-Authenticate challenge of the host. -/
namespace Mcp.Http

open Threads AuthParams

/-- The options that start() looks at before it binds. -/
structure HostOptions extends Options where
  host : String := "127.0.0.1"
  path : String := "/mcp"
  allowInsecureHttp : Bool := false

def HostOptions.isLoopback (opts : HostOptions) : Bool :=
  opts.host == "127.0.0.1" || opts.host == "::1" || opts.host == "localhost"

/-- What start() throws before it registers a handler. -/
def HostOptions.start (opts : HostOptions) : Except Exception Unit :=
  if !validQuotedParam opts.authRealm then
    .error (.std ("HttpServerHost: auth_realm contains a control or quoting " ++
      "character — refusing to splice into the WWW-Authenticate header"))
  else if !validQuotedParam opts.resourceMetadataUrl then
    .error (.std ("HttpServerHost: resource_metadata_url contains a control " ++
      "or quoting character — refusing to splice into the WWW-Authenticate header"))
  else if opts.path.toList.head? ≠ some '/' then
    .error (.std "HttpServerHost: path must begin with '/'")
  else if opts.bearerValidator.isSome && !opts.isLoopback && !opts.allowInsecureHttp then
    .error (.std ("HttpServerHost: bearer authentication is configured but " ++
      "the host is binding to a non-loopback address (\"" ++ opts.host ++
      "\") and the SDK is on plain HTTP. Set Options::allow_insecure_http=true to acknowledge " ++
      "that TLS termination happens elsewhere (typically a reverse proxy), or bind to " ++
      "127.0.0.1/::1 for development."))
  else .ok ()

variable {opts : HostOptions} {req : Request} {res : Response} {realm url error scope : String}

/-- A parameter, unless its value is empty. -/
def param (name value : String) : List Param :=
  if value.isEmpty then [] else [(name.toList, value.toList)]

/-- What a challenge says: the realm, and the other parameters that are not empty. -/
def challengeParams (realm url error scope : String) : List Param :=
  ("realm".toList, realm.toList) ::
    (param "error" error ++ param "scope" scope ++ param "resource_metadata" url)

/-- The error of a refusal, and the scopes that the validator asks for, if they can be quoted. -/
inductive Tells (opts : Options) (req : Request) : String → String → Prop where
  | request : Tokenless req → Tells opts req "invalid_request" ""
  | token {validate value token} : opts.bearerValidator = some validate →
      req.authorizations = [value] → Bears value token →
      (validate token).status = .invalidToken → Tells opts req "invalid_token" ""
  | scope {validate value token} : opts.bearerValidator = some validate →
      req.authorizations = [value] → Bears value token →
      (validate token).status = .insufficientScope →
      Tells opts req "insufficient_scope" (if validQuotedParam (validate token).requiredScopes
        then (validate token).requiredScopes else "")

theorem start_ok (h : opts.start = .ok ()) : validQuotedParam opts.authRealm = true ∧
    validQuotedParam opts.resourceMetadataUrl = true := by
  unfold HostOptions.start at h
  split at h
  · cases h
  · split at h
    · cases h
    · next hrealm hurl => exact ⟨by simpa using hrealm, by simpa using hurl⟩

theorem validQuotedParam_iff {s : String} : validQuotedParam s = true ↔
    ∀ c ∈ s.toList, c ≠ '"' ∧ c ≠ '\\' ∧ 32 ≤ c.toNat := by
  simp [validQuotedParam, and_assoc]

/-- What is spliced in for a value. -/
theorem toList_param (before name : String)
    (h : before.toList = ',' :: ' ' :: name.toList ++ ['=', '"']) (value : String) :
    (if value.isEmpty then "" else before ++ value ++ "\"").toList =
      (param name value).flatMap ([',', ' '] ++ Param.text ·) := by
  unfold param
  split
  · rfl
  · simp [Param.text, h]

/-- The spliced value is the written form of its parameters. -/
theorem buildBearerChallenge_eq (realm url error scope : String) :
    (buildBearerChallenge realm url error scope).toList =
      render "Bearer".toList (challengeParams realm url error scope) := by
  have herror := toList_param ", error=\"" "error" (by decide) error
  have hscope := toList_param ", scope=\"" "scope" (by decide) scope
  have hurl := toList_param ", resource_metadata=\"" "resource_metadata" (by decide) url
  have hrealm : ("Bearer realm=\"" ++ realm ++ "\"").toList =
      "Bearer".toList ++ ' ' :: Param.text ("realm".toList, realm.toList) := by
    simp [Param.text]
  have hparams : [',', ' '].intercalate
      ((challengeParams realm url error scope).map Param.text) =
      Param.text ("realm".toList, realm.toList) ++
        (param "error" error ++ param "scope" scope ++ param "resource_metadata" url).flatMap
          ([',', ' '] ++ Param.text ·) := by
    rw [challengeParams, List.map_cons, Bytes.intercalate_cons, List.flatMap_map]
  unfold buildBearerChallenge
  rw [String.toList_append, String.toList_append, String.toList_append, hrealm, herror, hscope,
    hurl, render, hparams]
  simp only [List.flatMap_append, List.append_assoc, List.cons_append]

/-- What a refusal with a challenge tells. -/
theorem tells_of_authorize {opts : Options} {name value : String}
    (h : authorize opts req = some res) (hmem : (name, value) ∈ res.headers) :
    ∃ error scope, Tells opts req error scope ∧
      value = buildBearerChallenge opts.authRealm opts.resourceMetadataUrl error scope := by
  cases hvalidator : opts.bearerValidator with
  | none =>
    rw [authorize, hvalidator] at h
    cases h
  | some validate =>
    rcases authorize_checks hvalidator req with ⟨res', hres, htokenless, -, hheaders⟩ |
      ⟨value', token, hsingle, hbears, hverdict⟩
    · cases h.symm.trans hres
      have hvalue := congrArg Prod.snd (hheaders _ hmem)
      exact ⟨_, _, .request htokenless, hvalue⟩
    · rw [h, Options.verdict] at hverdict
      cases hstatus : (validate token).status with
      | allow => simp [hstatus] at hverdict
      | invalidToken =>
        rw [hstatus] at hverdict
        cases hverdict
        have hvalue := congrArg Prod.snd (List.mem_singleton.mp hmem)
        exact ⟨_, _, .token hvalidator hsingle hbears hstatus, hvalue⟩
      | insufficientScope =>
        rw [hstatus] at hverdict
        cases hverdict
        have hvalue := congrArg Prod.snd (List.mem_singleton.mp hmem)
        exact ⟨_, _, .scope hvalidator hsingle hbears hstatus, hvalue⟩

theorem validQuotedParam_tells {opts : Options} (h : Tells opts req error scope) :
    validQuotedParam error = true ∧ validQuotedParam scope = true := by
  cases h with
  | request | token => exact ⟨by decide, by decide⟩
  | scope =>
    refine ⟨by decide, ?_⟩
    split
    · next hscope => exact hscope
    · rfl

theorem mem_param {name value : String} {p : Param} (h : p ∈ param name value) :
    p = (name.toList, value.toList) := by
  unfold param at h
  split at h
  · cases h
  · exact List.mem_singleton.mp h

theorem plain_of_valid {name value : String} (hname : name.toList ≠ [])
    (htchar : name.toList.all isTchar = true) (h : validQuotedParam value = true) :
    Param.Plain (name.toList, value.toList) := by
  rw [validQuotedParam_iff] at h
  refine ⟨⟨hname, List.all_eq_true.mp htchar⟩, ?_, ?_⟩
  · exact fun hmem => (h _ hmem).1 rfl
  · exact fun hmem => (h _ hmem).2.1 rfl

theorem plain_challengeParams (hrealm : validQuotedParam realm = true)
    (hurl : validQuotedParam url = true) (herror : validQuotedParam error = true)
    (hscope : validQuotedParam scope = true) :
    ∀ p ∈ challengeParams realm url error scope, p.Plain := by
  intro p hp
  rcases List.mem_cons.mp hp with rfl | hp
  · exact plain_of_valid (by simp) (by decide) hrealm
  · rcases List.mem_append.mp hp with hp | hp
    · rcases List.mem_append.mp hp with hp | hp
      · rw [mem_param hp]
        exact plain_of_valid (by simp) (by decide) herror
      · rw [mem_param hp]
        exact plain_of_valid (by simp) (by decide) hscope
    · rw [mem_param hp]
      exact plain_of_valid (by simp) (by decide) hurl

/-- No control character. -/
def printable (s : String) : Bool := s.toList.all (32 ≤ ·.toNat)

theorem printable_append (s t : String) : printable (s ++ t) = (printable s && printable t) := by
  rw [printable, String.toList_append, List.all_append]
  rfl

theorem printable_of_valid {s : String} (h : validQuotedParam s = true) : printable s = true := by
  rw [validQuotedParam_iff] at h
  simpa [printable] using fun c hc => (h c hc).2.2

theorem printable_param (before : String) (hbefore : printable before = true)
    {value : String} (h : validQuotedParam value = true) :
    printable (if value.isEmpty then "" else before ++ value ++ "\"") = true := by
  split
  · rfl
  · rw [printable_append, printable_append, hbefore, printable_of_valid h]
    rfl

theorem printable_challenge (hrealm : validQuotedParam realm = true)
    (hurl : validQuotedParam url = true) (herror : validQuotedParam error = true)
    (hscope : validQuotedParam scope = true) :
    printable (buildBearerChallenge realm url error scope) = true := by
  have herror' := printable_param ", error=\"" (by decide) herror
  have hscope' := printable_param ", scope=\"" (by decide) hscope
  have hurl' := printable_param ", resource_metadata=\"" (by decide) hurl
  unfold buildBearerChallenge
  simp only [printable_append, printable_of_valid hrealm, herror', hscope', hurl']
  decide

/-- For a host that start() has not refused: every challenge of the bearer check is free of control
characters, and is read back as the realm, the error, the scope and the metadata URL, the last two
unless they are empty, and nothing else. -/
theorem challenge_read_back (opts : HostOptions) (hstart : opts.start = .ok ()) (req : Request)
    (res : Response) (hres : authorize opts.toOptions req = some res) (name value : String)
    (hmem : (name, value) ∈ res.headers) :
    (∀ c ∈ value.toList, 32 ≤ c.toNat) ∧ ∃ error scope, Tells opts.toOptions req error scope ∧
      read value.toList = some ("Bearer".toList,
        challengeParams opts.authRealm opts.resourceMetadataUrl error scope) := by
  obtain ⟨error, scope, htells, hvalue⟩ := tells_of_authorize hres hmem
  obtain ⟨hrealm, hurl⟩ := start_ok hstart
  obtain ⟨herror, hscope⟩ := validQuotedParam_tells htells
  refine ⟨?_, error, scope, htells, ?_⟩
  · have hprintable := printable_challenge hrealm hurl herror hscope
    rw [← hvalue] at hprintable
    simpa [printable] using hprintable
  · rw [hvalue, buildBearerChallenge_eq]
    exact read_render (List.all_eq_true.mp (by decide)) (List.cons_ne_nil _ _)
      (plain_challengeParams hrealm hurl herror hscope)

/-- Values that look like parameters. -/
def spoofing : HostOptions where
  authRealm := "a, error=b"
  bearerValidator := some fun _ => { status := .insufficientScope, requiredScopes := "x, realm=y" }

def tokened : Request where
  headers := [("Authorization", "Bearer t")]
  body := ""

theorem spoofing_read_back : ∃ value : String, (∀ c ∈ value.toList, 32 ≤ c.toNat) ∧
    ∃ error scope, Tells spoofing.toOptions tokened error scope ∧
      read value.toList = some ("Bearer".toList,
        challengeParams spoofing.authRealm spoofing.resourceMetadataUrl error scope) :=
  ⟨_, challenge_read_back spoofing rfl tokened _ rfl _ _ (List.mem_singleton.mpr rfl)⟩

end Mcp.Http
