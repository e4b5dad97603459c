import Mcp.Protocol.Elicitation
import Mcp.Protocol.Sampling
import Mcp.Session.Dispatch

/-! What the client answers requests with: the lambdas that the setters put around the user's
handlers. -/
namespace Mcp.Client

section Lambdas

variable (jsonWhat : JsonException → String)

/-- The handler of sampling/createMessage around the user's. -/
def samplingRequestHandler (h : CreateMessageRequestParams → Except Exception CreateMessageResult) :
    RequestHandler := fun params =>
  if params.isNull then raise ErrorCode.invalidParams "sampling/createMessage requires params"
  else
    match params.get CreateMessageRequestParams with
    | .ok parsed => do
      let result ← h parsed
      return .of result
    | .error e =>
      match e.what jsonWhat with
      | some what => raise ErrorCode.invalidParams ("invalid sampling params: " ++ what)
      | none => .error e

/-- The handler of elicitation/create around the user's, with the encoding of its result. An `Error`
goes through as it is. -/
def elicitationRequestHandler (h : ElicitRequestParams → Except Exception Json) :
    RequestHandler := fun params =>
  if params.isNull then raise ErrorCode.invalidParams "elicitation/create requires params"
  else
    match params.get ElicitRequestParams with
    | .ok parsed => h parsed
    | .error (.error e) => .error (.error e)
    | .error e =>
      match e.what jsonWhat with
      | some what => raise ErrorCode.invalidParams ("invalid elicitation params: " ++ what)
      | none => .error e

end Lambdas

/-- The members that the decoder of elicitation/create reads first, in its order. -/
def elicitMembers (params : Json) : List String :=
  match params.find "mode" with
  | none => ["message", "requestedSchema"]
  | some (.string mode) =>
    if mode = "form" then ["message", "requestedSchema"]
    else if mode = "url" then ["message", "url", "elicitationId"]
    else []
  | some _ => []

/-- The first of the members that is no string is not there at all. -/
def firstMissing (j : Json) : List String → Bool
  | [] => false
  | key :: keys =>
    match j.find key with
    | none => true
    | some (.string _) => firstMissing j keys
    | some _ => false

/-- How the decoder fails where a member is missing, and where none is. -/
inductive DecodeError : Bool → Exception → Prop where
  | missing (message : String) :
      DecodeError true (.error { code := ErrorCode.parseError, message })
  | invalid (message : String) :
      DecodeError false (.error { code := ErrorCode.invalidParams, message })
  | mistyped : DecodeError false (.json .typeError)

variable {α : Type} {j : Json} {key : String} {keys : List String} {e : Exception}
  {f : String → Except Exception α}

/-- One member is read, and then the others. -/
theorem decodeError_cons (h : (require String j key >>= f) = .error e)
    (hrest : ∀ s, j.find key = some (.string s) → f s = .error e →
      DecodeError (firstMissing j keys) e) :
    DecodeError (firstMissing j (key :: keys)) e := by
  unfold require at h
  unfold firstMissing
  cases hfind : j.find key with
  | none =>
    simp only [hfind] at h ⊢
    cases h
    exact .missing _
  | some v =>
    simp only [hfind] at h ⊢
    cases v with
    | string s => exact hrest s hfind h
    | _ =>
      cases h
      exact .mistyped

theorem form_error (h : j.get ElicitFormRequestParams = .error e) :
    DecodeError (firstMissing j ["message", "requestedSchema"]) e := by
  refine decodeError_cons h fun message _ h => ?_
  unfold require at h
  unfold firstMissing
  cases hschema : j.find "requestedSchema" with
  | none =>
    simp only [hschema] at h ⊢
    cases h
    exact .missing _
  | some schema =>
    simp only [hschema, get_json] at h ⊢
    cases schema with
    | object kvs => cases h
    | _ =>
      cases h
      exact .invalid _

theorem url_error (h : j.get ElicitUrlRequestParams = .error e) :
    DecodeError (firstMissing j ["message", "url", "elicitationId"]) e := by
  refine decodeError_cons h fun message _ h => ?_
  refine decodeError_cons h fun url _ h => ?_
  refine decodeError_cons h fun elicitationId _ h => ?_
  cases h

theorem error_of_return {β : Type} {r : Except Exception α} {g : α → β}
    (h : (r >>= fun a => pure (g a)) = .error e) : r = .error e := by
  cases r with
  | ok a => cases h
  | error e' =>
    cases h
    rfl

/-- The decoder throws an `Error` for a missing member, and for no other reason a parse error. -/
theorem elicit_error (h : j.get ElicitRequestParams = .error e) :
    DecodeError (firstMissing j (elicitMembers j)) e := by
  change (elicitMode j >>= fun mode => _) = .error e at h
  unfold elicitMode at h
  unfold elicitMembers
  cases hmode : j.find "mode" with
  | none =>
    simp only [hmode] at h ⊢
    exact form_error (error_of_return h)
  | some v =>
    cases v with
    | string mode =>
      simp only [hmode] at h ⊢
      change (if mode = "form" then _ else if mode = "url" then _ else _) = _ at h
      by_cases hform : mode = "form"
      · rw [if_pos hform] at h ⊢
        exact form_error (error_of_return h)
      · rw [if_neg hform] at h ⊢
        by_cases hurl : mode = "url"
        · rw [if_pos hurl] at h ⊢
          exact url_error (error_of_return h)
        · rw [if_neg hurl] at h ⊢
          cases h
          exact .invalid _
    | _ =>
      simp only [hmode] at h ⊢
      cases h
      exact .invalid _

end Mcp.Client
