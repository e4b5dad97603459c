import Mcp.Http.Bearer

/-! The requests that the client transport makes, at the gates of the host and at its preflight. -/
namespace Mcp.Http

/-- What the headers of a request depend on: the options, and what the transport has at the time. -/
structure ClientOptions where
  protocolVersion : String := "2025-11-25"
  extraHeaders : List (String × String) := []

/-- The Authorization header, if there is a token. -/
def bearerHeader (accessToken : String) : List (String × String) :=
  if accessToken.isEmpty then [] else [("Authorization", "Bearer " ++ accessToken)]

/-- process_send(). The last header is httplib's, for the type of the body. -/
def ClientOptions.postRequest (c : ClientOptions) (sessionId : Option String)
    (accessToken frame : String) : Request where
  headers := [("Accept", "application/json, text/event-stream"),
      ("MCP-Protocol-Version", c.protocolVersion)] ++
    (sessionId.map fun sid => ("Mcp-Session-Id", sid)).toList ++ bearerHeader accessToken ++
    c.extraHeaders ++ [("Content-Type", "application/json")]
  body := frame

/-- run_get_stream(). -/
def ClientOptions.getRequest (c : ClientOptions) (sessionId accessToken lastEventId : String) :
    Request where
  headers := [("Accept", "text/event-stream"), ("MCP-Protocol-Version", c.protocolVersion),
      ("Mcp-Session-Id", sessionId)] ++ bearerHeader accessToken ++
    (if lastEventId.isEmpty then [] else [("Last-Event-ID", lastEventId)]) ++ c.extraHeaders
  body := ""

/-- The DELETE of close(). -/
def ClientOptions.deleteRequest (c : ClientOptions) (sessionId accessToken : String) :
    Request where
  headers := [("MCP-Protocol-Version", c.protocolVersion), ("Mcp-Session-Id", sessionId)] ++
    bearerHeader accessToken ++ c.extraHeaders
  body := ""

/-- The Access-Control-Allow-Origin of an answer, empty if there is to be none. -/
def resolveCorsOrigin (req : Request) (allow : List String) : String :=
  match req.header "Origin" with
  | none => ""
  | some origin =>
    if origin.isEmpty then ""
    else
      match allow.find? (fun a => a == "*" || a == origin) with
      | none => ""
      | some a => if a == "*" then "*" else origin

/-- OPTIONS on the path of the host. -/
def preflight (opts : Options) (req : Request) : Response :=
  let acao := resolveCorsOrigin req opts.allowedOrigins
  if acao.isEmpty then { status := 403 }
  else
    { status := 204
      headers := [("Access-Control-Allow-Origin", acao),
        ("Access-Control-Allow-Methods", "GET, POST, DELETE, OPTIONS"),
        ("Access-Control-Allow-Headers", "Authorization, Content-Type, Mcp-Session-Id, " ++
          "MCP-Protocol-Version, Last-Event-ID, Accept"),
        ("Access-Control-Expose-Headers", "Mcp-Session-Id, WWW-Authenticate"),
        ("Access-Control-Max-Age", "600")] }

variable {opts : Options} {req : Request} {c : ClientOptions}
  {sessionId : Option String} {sid accessToken lastEventId frame name : String}
  {hs hs' : List (String × String)}

section Headers

def headerIn (hs : List (String × String)) (name : String) : Option String :=
  (hs.find? (fun h => sameName h.1 name)).map Prod.snd

theorem headerIn_append :
    headerIn (hs ++ hs') name = (headerIn hs name).or (headerIn hs' name) := by
  simp only [headerIn, List.find?_append]
  cases hs.find? (fun h => sameName h.1 name) <;> rfl

theorem header_eq : req.header name = headerIn req.headers name := rfl

/-- The names of the headers that the transport makes itself, without Authorization. -/
def ownNames : List String :=
  ["Accept", "MCP-Protocol-Version", "Mcp-Session-Id", "Last-Event-ID", "Content-Type"]

/-- A request whose other headers, before and behind the token and the extra ones, are the
transport's own. -/
structure Made (c : ClientOptions) (accessToken : String) (req : Request) : Prop where
  headers : ∃ before between behind, req.headers =
    before ++ bearerHeader accessToken ++ between ++ c.extraHeaders ++ behind ∧
      ∀ h ∈ before ++ between ++ behind, h.1 ∈ ownNames

theorem made_post : Made c accessToken (c.postRequest sessionId accessToken frame) := by
  refine ⟨_, [], [("Content-Type", "application/json")], by rw [List.append_nil]; rfl, ?_⟩
  cases sessionId <;> simp [ownNames]

theorem made_get : Made c accessToken (c.getRequest sid accessToken lastEventId) := by
  refine ⟨_, _, [], by rw [List.append_nil]; rfl, ?_⟩
  intro h hh
  split at hh <;> simp [ownNames] at hh ⊢ <;> grind

theorem made_delete : Made c accessToken (c.deleteRequest sid accessToken) := by
  refine ⟨_, [], [], by rw [List.append_nil, List.append_nil]; rfl, ?_⟩
  simp [ownNames]

theorem not_own {name' : String} (h : name' ∈ ownNames) :
    sameName name' "Origin" = false ∧ sameName name' "Authorization" = false := by
  revert name'
  decide

theorem bearer_not_origin : ∀ h ∈ bearerHeader accessToken, sameName h.1 "Origin" = false := by
  unfold bearerHeader
  split
  · simp
  · simpa using (by decide : sameName "Authorization" "Origin" = false)

theorem headerIn_eq_none (h : ∀ x ∈ hs, sameName x.1 name = false) : headerIn hs name = none := by
  rw [headerIn, Option.map_eq_none_iff, List.find?_eq_none]
  intro x hx
  simp [h x hx]

/-- The origin of such a request is that of an extra header. -/
theorem Made.origin (h : Made c accessToken req) :
    req.header "Origin" = headerIn c.extraHeaders "Origin" := by
  obtain ⟨before, between, behind, hheaders, hown⟩ := h.headers
  have hnone : ∀ part : List (String × String), (∀ x ∈ part, x ∈ before ++ between ++ behind) →
      headerIn part "Origin" = none := fun part hpart =>
    headerIn_eq_none fun x hx => (not_own (hown x (hpart x hx))).1
  rw [header_eq, hheaders]
  simp only [headerIn_append]
  rw [hnone before (by simp +contextual), hnone between (by simp +contextual),
    hnone behind (by simp +contextual), headerIn_eq_none bearer_not_origin]
  simp

/-- Its tokens are the transport's own, if it has one, and those of extra headers. -/
theorem Made.authorizations (h : Made c accessToken req) : req.authorizations =
    (if accessToken.isEmpty then [] else ["Bearer " ++ accessToken]) ++
      (c.extraHeaders.filter fun h => sameName h.1 "Authorization").map Prod.snd := by
  obtain ⟨before, between, behind, hheaders, hown⟩ := h.headers
  have hnone : ∀ part : List (String × String), (∀ x ∈ part, x ∈ before ++ between ++ behind) →
      part.filter (fun h => sameName h.1 "Authorization") = [] := by
    intro part hpart
    rw [List.filter_eq_nil_iff]
    intro x hx
    simp [(not_own (hown x (hpart x hx))).2]
  rw [Request.authorizations, hheaders]
  simp only [List.filter_append]
  rw [hnone before (by simp +contextual), hnone between (by simp +contextual),
    hnone behind (by simp +contextual)]
  have hself : sameName "Authorization" "Authorization" = true := by decide
  unfold bearerHeader
  split <;> simp [hself]

/-- The host's allow list has the origin that extra headers give, if they give one. -/
def ClientOptions.OriginAllowed (c : ClientOptions) (opts : Options) : Prop :=
  ∀ origin, headerIn c.extraHeaders "Origin" = some origin →
    "*" ∈ opts.allowedOrigins ∨ origin ∈ opts.allowedOrigins

theorem Made.originAllowed (h : Made c accessToken req) :
    Http.originAllowed req opts.allowedOrigins = true ↔ c.OriginAllowed opts := by
  rw [Http.originAllowed, h.origin, ClientOptions.OriginAllowed]
  cases headerIn c.extraHeaders "Origin" with
  | none => simp
  | some origin =>
    simp only [List.any_eq_true, Bool.or_eq_true, beq_iff_eq, Option.some.injEq, forall_eq']
    constructor
    · rintro ⟨a, ha, rfl | rfl⟩
      · exact .inl ha
      · exact .inr ha
    · rintro (ha | ha)
      · exact ⟨_, ha, .inl rfl⟩
      · exact ⟨_, ha, .inr rfl⟩

/-- The host has no validator, or the client gives it one token, which is not blank and which the
validator allows without the blanks around it. -/
def ClientOptions.Authorized (c : ClientOptions) (opts : Options) (accessToken : String) : Prop :=
  ∀ validate, opts.bearerValidator = some validate → ∃ value token,
    (if accessToken.isEmpty then [] else ["Bearer " ++ accessToken]) ++
      (c.extraHeaders.filter fun h => sameName h.1 "Authorization").map Prod.snd = [value] ∧
    Bears value token ∧ (validate token).status = .allow

theorem Made.authorized (h : Made c accessToken req) :
    authorize opts req = none ↔ c.Authorized opts accessToken := by
  unfold ClientOptions.Authorized
  rw [← h.authorizations]
  cases hvalidator : opts.bearerValidator with
  | none => simp [authorize, hvalidator]
  | some validate =>
    simp only [Option.some.injEq, forall_eq']
    rcases authorize_checks hvalidator req with ⟨res, hres, htokenless, -⟩ |
      ⟨value, token, hsingle, hbears, hres⟩
    · rw [hres]
      constructor
      · intro hnone
        cases hnone
      · rintro ⟨value, token, hsingle, hbears, -⟩
        exact absurd hbears (htokenless value token hsingle)
    · rw [hres, verdict_eq_none]
      constructor
      · exact fun hallow => ⟨value, token, hsingle, hbears, hallow⟩
      · rintro ⟨value', token', hsingle', hbears', hallow⟩
        obtain rfl : value = value' := by simpa using hsingle.symm.trans hsingle'
        rwa [bears_unique hbears hbears']

/-- No extra header says anything else about the version or the session. -/
def ClientOptions.Plain (c : ClientOptions) : Prop :=
  ∀ h ∈ c.extraHeaders, sameName h.1 "MCP-Protocol-Version" = false ∧
    sameName h.1 "Mcp-Session-Id" = false

/-- Whichever of several headers is found, if all of that name say the same. -/
theorem header_of_forall {value : String} (hmem : (name, value) ∈ req.headers)
    (hall : ∀ h ∈ req.headers, sameName h.1 name = true → h.2 = value) :
    req.header name = some value := by
  have hself : sameName name name = true := by simp [sameName]
  cases hfind : req.headers.find? (fun h => sameName h.1 name) with
  | none => exact absurd hself (by simpa using List.find?_eq_none.mp hfind _ hmem)
  | some h =>
    have hname : sameName h.1 name = true := by simpa using List.find?_some hfind
    have hvalue := hall h (List.mem_of_find?_eq_some hfind) hname
    rw [Request.header, hfind, ← hvalue]
    rfl

end Headers

section Gates

/-- The value of a header that the transport makes once, and no extra header. -/
theorem Made.header_own (h : Made c accessToken req) {value : String}
    (hown : ∀ x ∈ req.headers, x.1 = name → x.2 = value) (hmem : (name, value) ∈ req.headers)
    (hname : name ∈ ownNames) (hextra : ∀ x ∈ c.extraHeaders, sameName x.1 name = false) :
    req.header name = some value := by
  obtain ⟨before, between, behind, hheaders, hmade⟩ := h.headers
  have hsame : ∀ name' ∈ ownNames, ∀ name ∈ ownNames, sameName name' name = true →
      name' = name := by decide
  have hbearer : ∀ name ∈ ownNames, sameName "Authorization" name = false := by decide
  refine header_of_forall hmem fun x hx hxname => hown x hx ?_
  rw [hheaders] at hx
  simp only [List.mem_append] at hx
  rcases hx with (((hx | hx) | hx) | hx) | hx
  · exact hsame _ (hmade x (by simp [hx])) _ hname hxname
  · unfold bearerHeader at hx
    split at hx
    · cases hx
    · rw [List.mem_singleton.mp hx, hbearer _ hname] at hxname
      cases hxname
  · exact hsame _ (hmade x (by simp [hx])) _ hname hxname
  · rw [hextra x hx] at hxname
    cases hxname
  · exact hsame _ (hmade x (by simp [hx])) _ hname hxname

theorem ClientOptions.Plain.ne (hc : c.Plain) {h : String × String} (hh : h ∈ c.extraHeaders) :
    h.1 ≠ "MCP-Protocol-Version" ∧ h.1 ≠ "Mcp-Session-Id" := by
  obtain ⟨hversion, hsession⟩ := hc h hh
  constructor
  · intro he
    simp [he, sameName] at hversion
  · intro he
    simp [he, sameName] at hsession

theorem bearer_name {h : String × String} (hh : h ∈ bearerHeader accessToken) :
    h.1 = "Authorization" := by
  unfold bearerHeader at hh
  split at hh
  · cases hh
  · rw [List.mem_singleton.mp hh]

theorem version_post (hc : c.Plain) :
    (c.postRequest sessionId accessToken frame).header "MCP-Protocol-Version" =
      some c.protocolVersion := by
  refine made_post.header_own ?_ (by simp [ClientOptions.postRequest]) (by decide)
    fun x hx => (hc x hx).1
  intro x hx hname
  simp only [ClientOptions.postRequest, List.mem_append, List.mem_cons, List.not_mem_nil,
    or_false, Option.mem_toList, Option.map_eq_some_iff] at hx
  rcases hx with (((((rfl | rfl) | ⟨sid, -, rfl⟩) | hx) | hx) | rfl)
  · simp at hname
  · rfl
  · simp at hname
  · simp [bearer_name hx] at hname
  · exact absurd hname (hc.ne hx).1
  · simp at hname

theorem session_get (hc : c.Plain) :
    (c.getRequest sid accessToken lastEventId).header "Mcp-Session-Id" = some sid := by
  refine made_get.header_own ?_ (by simp [ClientOptions.getRequest]) (by decide)
    fun x hx => (hc x hx).2
  intro x hx hname
  simp only [ClientOptions.getRequest, List.mem_append, List.mem_cons, List.not_mem_nil,
    or_false] at hx
  rcases hx with ((((rfl | rfl | rfl) | hx) | hx) | hx)
  · simp at hname
  · simp at hname
  · rfl
  · simp [bearer_name hx] at hname
  · split at hx
    · cases hx
    · rw [List.mem_singleton.mp hx] at hname
      simp at hname
  · exact absurd hname (hc.ne hx).2

theorem session_delete (hc : c.Plain) :
    (c.deleteRequest sid accessToken).header "Mcp-Session-Id" = some sid := by
  refine made_delete.header_own ?_ (by simp [ClientOptions.deleteRequest]) (by decide)
    fun x hx => (hc x hx).2
  intro x hx hname
  simp only [ClientOptions.deleteRequest, List.mem_append, List.mem_cons, List.not_mem_nil,
    or_false] at hx
  rcases hx with (((rfl | rfl) | hx) | hx)
  · simp at hname
  · rfl
  · simp [bearer_name hx] at hname
  · exact absurd hname (hc.ne hx).2

/-- Whom the gates of the host let in: a POST with an allowed origin, a supported version and an
allowed token; a GET of a session, and a DELETE, whatever the version. -/
theorem client_is_let_in (opts : Options) (c : ClientOptions) (hc : c.Plain)
    (sessionId : Option String) (sid accessToken lastEventId frame : String) :
    (postGate opts (c.postRequest sessionId accessToken frame) = none ↔ c.OriginAllowed opts ∧
      validProtocolVersionHeader c.protocolVersion = true ∧ c.Authorized opts accessToken) ∧
    (getGate opts (c.getRequest sid accessToken lastEventId) = none ↔
      c.OriginAllowed opts ∧ c.Authorized opts accessToken ∧ sid ≠ "") ∧
    (deleteGate opts (c.deleteRequest sid accessToken) = none ↔
      c.OriginAllowed opts ∧ c.Authorized opts accessToken) := by
  refine ⟨?_, ?_, ?_⟩
  · have hmade : Made c accessToken (c.postRequest sessionId accessToken frame) := made_post
    rw [← hmade.originAllowed, ← hmade.authorized, postGate, version_post hc]
    cases originAllowed _ opts.allowedOrigins with
    | false => simp
    | true => cases hv : validProtocolVersionHeader c.protocolVersion <;> simp [hv]
  · have hmade : Made c accessToken (c.getRequest sid accessToken lastEventId) := made_get
    have hsid : (c.getRequest sid accessToken lastEventId).sessionId = sid := by
      rw [Request.sessionId, session_get hc]
      rfl
    rw [← hmade.originAllowed, ← hmade.authorized, getGate, hsid]
    cases originAllowed _ opts.allowedOrigins <;> simp
  · have hmade : Made c accessToken (c.deleteRequest sid accessToken) := made_delete
    rw [← hmade.originAllowed, ← hmade.authorized, deleteGate, session_delete hc]
    cases originAllowed _ opts.allowedOrigins <;> simp

/-- With a token and an extra header, at a host that has no list of origins. -/
theorem lets_in_a_token : ∃ (opts : Options) (c : ClientOptions),
    c.extraHeaders = [("X-Trace", "7")] ∧ opts.bearerValidator.isSome = true ∧
      postGate opts (c.postRequest none "t1" "{}") = none := by
  let opts : Options :=
    { bearerValidator := some fun token =>
        { status := if token == "t1" then .allow else .invalidToken } }
  let c : ClientOptions := { extraHeaders := [("X-Trace", "7")] }
  have hplain : c.Plain := by
    intro h hh
    rw [List.mem_singleton.mp hh]
    decide
  have hlets := (client_is_let_in opts c hplain none "s1" "t1" "" "{}").1
  refine ⟨opts, c, rfl, rfl, hlets.mpr ⟨?_, by decide, ?_⟩⟩
  · intro origin horigin
    simp [c, headerIn, show sameName "X-Trace" "Origin" = false by decide] at horigin
  · intro validate hvalidate
    cases hvalidate
    exact ⟨"Bearer t1", "t1", by decide, bears_iff.mpr (by decide), by decide⟩

end Gates

section Preflight

/-- A comma-separated header with these names. -/
def Lists (value : String) (names : List String) : Prop :=
  value = ", ".intercalate names ∧ ∀ name ∈ names, ',' ∉ name.toList

/-- The answer to a preflight with which a page of the origin may make a request with the method
and the headers of these names. -/
structure Grants (res : Response) (origin method : String) (names : List String) : Prop where
  status : res.status = 204
  allowOrigin : ∃ value, ("Access-Control-Allow-Origin", value) ∈ res.headers ∧
    (value = "*" ∨ value = origin)
  allowMethods : ∃ value methods, ("Access-Control-Allow-Methods", value) ∈ res.headers ∧
    Lists value methods ∧ method ∈ methods
  allowHeaders : ∃ value allowed, ("Access-Control-Allow-Headers", value) ∈ res.headers ∧
    Lists value allowed ∧ ∀ name ∈ names, name ∈ allowed

variable {origin method : String} {names : List String}

/-- What is advertised is the star or the origin itself, if the gates would let it through. -/
theorem resolveCorsOrigin_cases (horigin : req.header "Origin" = some origin) (ho : origin ≠ "")
    (allow : List String) :
    originAllowed req allow = true ∧
        (resolveCorsOrigin req allow = "*" ∨ resolveCorsOrigin req allow = origin) ∨
      originAllowed req allow = false ∧ resolveCorsOrigin req allow = "" := by
  rw [originAllowed, resolveCorsOrigin, horigin]
  simp only [String.isEmpty_iff, ho, if_false]
  cases hfind : allow.find? (fun a => a == "*" || a == origin) with
  | none =>
    refine .inr ⟨?_, rfl⟩
    rw [List.find?_eq_none] at hfind
    rw [List.any_eq_false]
    exact hfind
  | some a =>
    have ha : (a == "*" || a == origin) = true := by
      simpa using List.find?_some hfind
    refine .inl ⟨List.any_eq_true.mpr ⟨a, List.mem_of_find?_eq_some hfind, ha⟩, ?_⟩
    simp only
    split
    · exact .inl rfl
    · exact .inr rfl

theorem preflight_grants (horigin : req.header "Origin" = some origin) (ho : origin ≠ "")
    (hmethod : method ∈ ["GET", "POST", "DELETE"])
    (hnames : ∀ name ∈ names, name ∈ "Authorization" :: ownNames) :
    Grants (preflight opts req) origin method names ↔
      originAllowed req opts.allowedOrigins = true := by
  rcases resolveCorsOrigin_cases horigin ho opts.allowedOrigins with ⟨hallowed, hacao⟩ |
    ⟨hallowed, hacao⟩
  · have hne : (resolveCorsOrigin req opts.allowedOrigins).isEmpty = false := by
      rcases hacao with hacao | hacao <;> simp [hacao, ho]
    simp only [hallowed, iff_true, preflight, hne]
    refine ⟨rfl, ⟨_, .head _, hacao⟩, ⟨_, ["GET", "POST", "DELETE", "OPTIONS"], .tail _ (.head _),
      ⟨by decide, by decide⟩, ?_⟩, ⟨_, ["Authorization", "Content-Type", "Mcp-Session-Id",
        "MCP-Protocol-Version", "Last-Event-ID", "Accept"], .tail _ (.tail _ (.head _)),
      ⟨by decide, by decide⟩, fun name hname => ?_⟩⟩
    · simp only [List.mem_cons] at hmethod ⊢
      tauto
    · have hname := hnames name hname
      simp only [ownNames, List.mem_cons] at hname ⊢
      tauto
  · simp only [hallowed, Bool.false_eq_true, iff_false, preflight, hacao]
    exact fun hgrants => absurd hgrants.status (by decide)

/-- A refused token is not answered as a refused origin is. -/
theorem authorize_ne : authorize opts req ≠ some originNotAllowed := by
  cases hvalidator : opts.bearerValidator with
  | none => simp [authorize, hvalidator]
  | some validate =>
    rcases authorize_checks hvalidator req with ⟨res, hres, -, hstatus, -⟩ |
      ⟨value, token, -, -, hres⟩
    · rw [hres]
      rintro ⟨rfl⟩
      revert hstatus
      split <;> simp [originNotAllowed]
    · rw [hres, Options.verdict]
      split <;> simp [Options.challenge, originNotAllowed]

theorem postGate_origin :
    postGate opts req = some originNotAllowed ↔ originAllowed req opts.allowedOrigins = false := by
  rw [postGate]
  cases originAllowed req opts.allowedOrigins with
  | false => simp
  | true =>
    refine iff_of_false ?_ (by simp)
    cases req.header "MCP-Protocol-Version" with
    | none => exact authorize_ne
    | some version =>
      cases hversion : validProtocolVersionHeader version with
      | false => simp [hversion, originNotAllowed]
      | true => simpa [hversion] using authorize_ne

/-- What GET and DELETE do: the origin, the token, and an answer that is not a refused origin's. -/
theorem gate_origin {missing : Option Response} (hmissing : missing ≠ some originNotAllowed) :
    (if !originAllowed req opts.allowedOrigins then some originNotAllowed
      else (authorize opts req).or missing) = some originNotAllowed ↔
      originAllowed req opts.allowedOrigins = false := by
  cases originAllowed req opts.allowedOrigins with
  | false => simp
  | true =>
    refine iff_of_false ?_ (by simp)
    cases hres : authorize opts req with
    | none => simpa using hmissing
    | some res =>
      have hne : authorize opts req ≠ some originNotAllowed := authorize_ne
      simpa [hres] using hne

/-- Such a request with one extra header, its origin. -/
theorem Made.granted (h : Made c accessToken req) (hc : c.extraHeaders = [("Origin", origin)])
    (ho : origin ≠ "") {asked : Request} (hasked : asked.header "Origin" = some origin)
    (hmethod : method ∈ ["GET", "POST", "DELETE"]) :
    Grants (preflight opts asked) origin method ((req.headers.map Prod.fst).erase "Origin") ↔
      ¬Http.originAllowed req opts.allowedOrigins = false := by
  have horigin : req.header "Origin" = some origin := by
    rw [h.origin, hc]
    simp [headerIn, sameName]
  have hnames : ∀ name ∈ (req.headers.map Prod.fst).erase "Origin",
      name ∈ "Authorization" :: ownNames := by
    obtain ⟨before, between, behind, hheaders, hmade⟩ := h.headers
    have hbefore : "Origin" ∉ (before ++ bearerHeader accessToken ++ between).map Prod.fst := by
      simp only [List.map_append, List.mem_append, List.mem_map]
      rintro ((⟨x, hx, hname⟩ | ⟨x, hx, hname⟩) | ⟨x, hx, hname⟩)
      · exact absurd (hname ▸ hmade x (by simp [hx])) (by decide)
      · exact absurd ((bearer_name hx).symm.trans hname) (by decide)
      · exact absurd (hname ▸ hmade x (by simp [hx])) (by decide)
    rw [hheaders, hc, List.append_assoc, List.map_append, List.erase_append_right _ hbefore]
    intro name hname
    simp only [List.map_append, List.singleton_append, List.map_cons, List.erase_cons_head,
      List.mem_append, List.mem_map] at hname
    rcases hname with ((⟨x, hx, rfl⟩ | ⟨x, hx, rfl⟩) | ⟨x, hx, rfl⟩) | ⟨x, hx, rfl⟩
    · exact .tail _ (hmade x (by simp [hx]))
    · exact bearer_name hx ▸ .head _
    · exact .tail _ (hmade x (by simp [hx]))
    · exact .tail _ (hmade x (by simp [hx]))
  rw [preflight_grants hasked ho hmethod hnames, Bool.not_eq_false, Http.originAllowed,
    Http.originAllowed, hasked, horigin]

end Preflight

end Mcp.Http
