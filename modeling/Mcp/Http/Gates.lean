import Mathlib.Data.List.DropRight
import Mathlib.Data.List.Infix

/-! What an HTTP request must pass before the host looks at its session. -/
namespace Mcp.Http

/-- Header names are compared without regard to case. -/
structure Request where
  headers : List (String × String)
  body : String

structure Response where
  status : ℕ
  headers : List (String × String) := []
  content : String := ""
  deriving DecidableEq, Repr

inductive BearerStatus where
  | allow
  | invalidToken
  | insufficientScope
  deriving DecidableEq, Repr

structure BearerOutcome where
  status : BearerStatus := .invalidToken
  requiredScopes : String := ""

structure Options where
  allowedOrigins : List String := []
  bearerValidator : Option (String → BearerOutcome) := none
  authRealm : String := "mcp"
  resourceMetadataUrl : String := ""

def toLower (c : Char) : Char :=
  if 'A' ≤ c ∧ c ≤ 'Z' then Char.ofNat (c.toNat + 32) else c

def sameName (a b : String) : Bool := a.toList.map toLower == b.toList.map toLower

/-- `req.headers.find(name)`. -/
def Request.header (req : Request) (name : String) : Option String :=
  (req.headers.find? (fun h => sameName h.1 name)).map Prod.snd

def Request.countHeader (req : Request) (name : String) : ℕ :=
  req.headers.countP (fun h => sameName h.1 name)

def originAllowed (req : Request) (allow : List String) : Bool :=
  match req.header "Origin" with
  | none => true
  | some origin => allow.any (fun a => a == "*" || a == origin)

/-- No control character, no quote and no backslash. -/
def validQuotedParam (s : String) : Bool :=
  s.toList.all (fun c => c != '"' && c != '\\' && 32 ≤ c.toNat)

def buildBearerChallenge (realm metadataUrl errorCode scope : String) : String :=
  "Bearer realm=\"" ++ realm ++ "\"" ++
    (if errorCode.isEmpty then "" else ", error=\"" ++ errorCode ++ "\"") ++
    (if scope.isEmpty then "" else ", scope=\"" ++ scope ++ "\"") ++
    (if metadataUrl.isEmpty then "" else ", resource_metadata=\"" ++ metadataUrl ++ "\"")

/-- Space or tab. -/
def isOws (c : Char) : Bool := c == ' ' || c == '\t'

/-- The scheme in any case, and then a space or a tab. -/
def startsWithBearerCi (s : String) : Bool :=
  (s.toList.take 6).map toLower == "bearer".toList && (s.toList[6]?).any isOws

def trimOws (s : String) : String := String.ofList ((s.toList.dropWhile isOws).rdropWhile isOws)

def validProtocolVersionHeader (v : String) : Bool :=
  v == "2025-03-26" || v == "2025-06-18" || v == "2025-11-25"

/-- The challenge of a 401 or a 403. -/
def Options.challenge (opts : Options) (status : ℕ) (errorCode scope content : String) :
    Response where
  status := status
  headers := [("WWW-Authenticate",
    buildBearerChallenge opts.authRealm opts.resourceMetadataUrl errorCode scope)]
  content := content

/-- The response of a request that is not authorized. -/
def authorize (opts : Options) (req : Request) : Option Response :=
  match opts.bearerValidator with
  | none => none
  | some validate =>
    match req.header "Authorization" with
    | none => some (opts.challenge 401 "invalid_request" "" "missing Authorization header")
    | some hdr =>
      if 1 < req.countHeader "Authorization" then
        some { status := 400, content := "multiple Authorization headers" }
      else if !startsWithBearerCi hdr then
        some (opts.challenge 401 "invalid_request" "" "expected Bearer scheme")
      else
        let token := trimOws (String.ofList (hdr.toList.drop 7))
        if token.isEmpty then
          some (opts.challenge 401 "invalid_request" "" "empty bearer token")
        else
          match (validate token).status with
          | .allow => none
          | .invalidToken => some (opts.challenge 401 "invalid_token" "" "invalid bearer token")
          | .insufficientScope =>
            let scopes := (validate token).requiredScopes
            some (opts.challenge 403 "insufficient_scope"
              (if validQuotedParam scopes then scopes else "") "insufficient scope")

def originNotAllowed : Response := { status := 403, content := "Origin not allowed" }

/-- The gates of POST: origin, protocol version, bearer. -/
def postGate (opts : Options) (req : Request) : Option Response :=
  if !originAllowed req opts.allowedOrigins then some originNotAllowed
  else
    match req.header "MCP-Protocol-Version" with
    | none => authorize opts req
    | some v =>
      if validProtocolVersionHeader v then authorize opts req
      else some { status := 400, content := "unsupported MCP-Protocol-Version: " ++ v }

/-- The session id a request carries, empty when it carries none. -/
def Request.sessionId (req : Request) : String := (req.header "Mcp-Session-Id").getD ""

/-- GET: origin, bearer, and a session id to look for. -/
def getGate (opts : Options) (req : Request) : Option Response :=
  if !originAllowed req opts.allowedOrigins then some originNotAllowed
  else (authorize opts req).or (if req.sessionId.isEmpty then some { status := 405 } else none)

/-- DELETE: origin, bearer, and the header itself. -/
def deleteGate (opts : Options) (req : Request) : Option Response :=
  if !originAllowed req opts.allowedOrigins then some originNotAllowed
  else (authorize opts req).or
    (if (req.header "Mcp-Session-Id").isNone then some { status := 400 } else none)

/-- `req.body.find("\"initialize\"") != npos`. -/
def Request.isInitializeBody (req : Request) : Bool :=
  decide ("\"initialize\"".toList <:+: req.body.toList)

end Mcp.Http
