import Mcp.Protocol.Envelope

/-! The envelope codec is a round trip, in memory and from any accepted frame. -/
namespace Mcp

/-- Params other than an engaged null, which the wire cannot tell from absent ones. -/
def JsonRpcMessage.PlainParams : JsonRpcMessage → Prop
  | .request r => r.params ≠ some .null
  | .notification n => n.params ≠ some .null
  | .response _ => True

@[simp] theorem get_of_requestId (id : RequestId) : (Json.of id).get RequestId = .ok id := by
  cases id <;> rfl

theorem of_requestId_ne_null (id : RequestId) : Json.of id ≠ .null := by
  cases id <;> nofun

theorem takeOptionalJson_of_find {j : Json} {key : String} {v : Option Json}
    (h : j.find key = v) (hv : v ≠ some .null) : takeOptionalJson j key = v := by
  unfold takeOptionalJson
  split <;> simp_all

theorem checkJsonrpc_of_find {j : Json}
    (h : j.find "jsonrpc" = some (.of kJsonrpcVersion)) : checkJsonrpc j = .ok () := by
  simp [checkJsonrpc, require, h, bind, Except.bind, pure, Except.pure]

/-- The members of an encoded request. -/
theorem find_request (r : JsonRpcRequest) (key : String) :
    (Json.of r).find key =
      if key = "params" then r.params
      else if key = "method" then some (.of r.method)
      else if key = "id" then some (.of r.id)
      else if key = "jsonrpc" then some (.of kJsonrpcVersion)
      else none := by
  change r.toJson.find key = _
  cases hp : r.params with
  | none =>
    simp only [JsonRpcRequest.toJson, hp, putOptional]
    by_cases hk : key = "params"
    · simp [Json.find_set, hk]
    · simp [Json.find_set, hk]
  | some params => simp [JsonRpcRequest.toJson, find_putOptional, Json.find_set, hp]

theorem find_notification (n : JsonRpcNotification) (key : String) :
    (Json.of n).find key =
      if key = "params" then n.params
      else if key = "method" then some (.of n.method)
      else if key = "jsonrpc" then some (.of kJsonrpcVersion)
      else none := by
  change n.toJson.find key = _
  cases hp : n.params with
  | none =>
    simp only [JsonRpcNotification.toJson, hp, putOptional]
    by_cases hk : key = "params"
    · simp [Json.find_set, hk]
    · simp [Json.find_set, hk]
  | some params => simp [JsonRpcNotification.toJson, find_putOptional, Json.find_set, hp]

theorem find_errorObject (e : ErrorObject) (key : String) :
    (Json.of e).find key =
      if key = "data" then (if e.hasData then some e.data else none)
      else if key = "message" then some (.of e.message)
      else if key = "code" then some (.of e.code)
      else none := by
  change e.toJson.find key = _
  by_cases hk : key = "data"
  · cases hd : e.hasData <;> simp [ErrorObject.toJson, Json.find_set, hd, hk]
  · cases hd : e.hasData <;> simp [ErrorObject.toJson, Json.find_set, hd, hk]

/-- The members of an encoded response, by outcome. -/
theorem find_response (r : JsonRpcResponse) (key : String) :
    (Json.of r).find key =
      match r.outcome with
      | .result result =>
        if key = "result" then some result
        else if key = "id" then some ((r.id.map Json.of).getD .null)
        else if key = "jsonrpc" then some (.of kJsonrpcVersion)
        else none
      | .error e =>
        if key = "error" then some (.of e)
        else if key = "id" then some ((r.id.map Json.of).getD .null)
        else if key = "jsonrpc" then some (.of kJsonrpcVersion)
        else none := by
  change r.toJson.find key = _
  cases ho : r.outcome <;> cases hi : r.id <;>
    simp [JsonRpcResponse.toJson, Json.find_set, ho, hi]

theorem get_of_request {r : JsonRpcRequest} (hp : r.params ≠ some .null) :
    (Json.of r).get JsonRpcRequest = .ok r := by
  change JsonRpcRequest.fromJson (.of r) = _
  have hv : checkJsonrpc (.of r) = .ok () := checkJsonrpc_of_find (by simp [find_request])
  have hi : getAt RequestId (.of r) "id" = .ok r.id := by simp [getAt, find_request]
  have hm : require String (.of r) "method" = .ok r.method := by simp [require, find_request]
  have ht : takeOptionalJson (.of r) "params" = r.params :=
    takeOptionalJson_of_find (by simp [find_request]) hp
  simp [JsonRpcRequest.fromJson, hv, hi, hm, ht, bind, Except.bind, pure, Except.pure]

theorem get_of_notification {n : JsonRpcNotification} (hp : n.params ≠ some .null) :
    (Json.of n).get JsonRpcNotification = .ok n := by
  change JsonRpcNotification.fromJson (.of n) = _
  have hv : checkJsonrpc (.of n) = .ok () := checkJsonrpc_of_find (by simp [find_notification])
  have hm : require String (.of n) "method" = .ok n.method := by simp [require, find_notification]
  have ht : takeOptionalJson (.of n) "params" = n.params :=
    takeOptionalJson_of_find (by simp [find_notification]) hp
  simp [JsonRpcNotification.fromJson, hv, hm, ht, bind, Except.bind, pure, Except.pure]

/-- Null data is not written, and absent data is read as null. -/
@[simp] theorem get_of_errorObject (e : ErrorObject) : (Json.of e).get ErrorObject = .ok e := by
  change ErrorObject.fromJson (.of e) = _
  have hc : require Int32 (.of e) "code" = .ok e.code := by simp [require, find_errorObject]
  have hm : require String (.of e) "message" = .ok e.message := by
    simp [require, find_errorObject]
  have hd : ((Json.of e).find "data").getD .null = e.data := by
    obtain ⟨code, message, data⟩ := e
    cases data <;> simp [find_errorObject, ErrorObject.hasData, Json.isNull]
  simp [ErrorObject.fromJson, hc, hm, hd, bind, Except.bind, pure, Except.pure]

theorem responseId_of (r : JsonRpcResponse) : responseId (.of r) = .ok r.id := by
  have hf : (Json.of r).find "id" = some ((r.id.map Json.of).getD .null) := by
    cases ho : r.outcome <;> simp [find_response, ho]
  unfold responseId
  rw [hf]
  cases r.id with
  | none => rfl
  | some id =>
    have hne := of_requestId_ne_null id
    simp [bind, Except.bind, pure, Except.pure]

@[simp] theorem get_of_response (r : JsonRpcResponse) :
    (Json.of r).get JsonRpcResponse = .ok r := by
  change JsonRpcResponse.fromJson (.of r) = _
  have hv : checkJsonrpc (.of r) = .ok () := by
    apply checkJsonrpc_of_find
    cases ho : r.outcome <;> simp [find_response, ho]
  have hi := responseId_of r
  obtain ⟨id, outcome⟩ := r
  cases outcome with
  | result result =>
    simp [JsonRpcResponse.fromJson, hv, hi, getAt, Json.contains, find_response, bind, Except.bind,
      pure, Except.pure]
  | error e =>
    simp [JsonRpcResponse.fromJson, hv, hi, getAt, Json.contains, find_response, bind, Except.bind,
      pure, Except.pure]

theorem parseMessage_of_request {r : JsonRpcRequest} (hp : r.params ≠ some .null) :
    parseMessage (.of r) = .ok (.request r) := by
  have ho : (Json.of r).isObject = true := by
    change r.toJson.isObject = true
    cases hp : r.params <;> simp [JsonRpcRequest.toJson, putOptional, hp]
  simp [parseMessage, ho, Json.contains, find_request, get_of_request hp, bind, Except.bind, pure,
    Except.pure]

theorem parseMessage_of_notification {n : JsonRpcNotification} (hp : n.params ≠ some .null) :
    parseMessage (.of n) = .ok (.notification n) := by
  have ho : (Json.of n).isObject = true := by
    change n.toJson.isObject = true
    cases hp : n.params <;> simp [JsonRpcNotification.toJson, putOptional, hp]
  simp [parseMessage, ho, Json.contains, find_notification, get_of_notification hp, bind,
    Except.bind, pure, Except.pure]

theorem parseMessage_of_response (r : JsonRpcResponse) :
    parseMessage (.of r) = .ok (.response r) := by
  have ho : (Json.of r).isObject = true := by
    change r.toJson.isObject = true
    cases ho : r.outcome <;> simp [JsonRpcResponse.toJson, ho]
  cases hr : r.outcome <;>
    simp [parseMessage, ho, Json.contains, find_response, hr, bind, Except.bind, pure, Except.pure]

theorem parseMessage_serializeMessage {m : JsonRpcMessage} (hm : m.PlainParams) :
    parseMessage (serializeMessage m) = .ok m := by
  cases m with
  | request r => exact parseMessage_of_request hm
  | notification n => exact parseMessage_of_notification hm
  | response r => exact parseMessage_of_response r

/-- A `bind` that succeeded ran both halves. -/
theorem bind_eq_ok {α β : Type} {x : Except Exception α} {f : α → Except Exception β} {b : β}
    (h : (x >>= f) = .ok b) : ∃ a, x = .ok a ∧ f a = .ok b := by
  cases x with
  | error e => cases h
  | ok a => exact ⟨a, rfl, h⟩

theorem params_of_get_request {j : Json} {r : JsonRpcRequest} (h : j.get JsonRpcRequest = .ok r) :
    r.params ≠ some .null := by
  obtain ⟨-, -, h⟩ := bind_eq_ok h
  obtain ⟨id, -, h⟩ := bind_eq_ok h
  obtain ⟨method, -, h⟩ := bind_eq_ok h
  cases h
  exact takeOptionalJson_ne_null j "params"

theorem params_of_get_notification {j : Json} {n : JsonRpcNotification}
    (h : j.get JsonRpcNotification = .ok n) : n.params ≠ some .null := by
  obtain ⟨-, -, h⟩ := bind_eq_ok h
  obtain ⟨method, -, h⟩ := bind_eq_ok h
  cases h
  exact takeOptionalJson_ne_null j "params"

theorem find_of_require {α : Type} [FromJson α] {j : Json} {key : String} {a : α}
    (h : require α j key = .ok a) : ∃ v, j.find key = some v ∧ v.get α = .ok a := by
  unfold require at h
  split at h
  · cases h
  · next v hv => exact ⟨v, hv, h⟩

theorem find_of_getAt {α : Type} [FromJson α] {j : Json} {key : String} {a : α}
    (h : getAt α j key = .ok a) : ∃ v, j.find key = some v ∧ v.get α = .ok a := by
  unfold getAt at h
  split at h
  · cases h
  · next v hv => exact ⟨v, hv, h⟩

/-- An accepted request has an id and a method, and these are what it was decoded to. -/
theorem members_of_get_request {j : Json} {r : JsonRpcRequest}
    (h : j.get JsonRpcRequest = .ok r) :
    (∃ v, j.find "id" = some v ∧ v.get RequestId = .ok r.id) ∧
      ∃ v, j.find "method" = some v ∧ v.get String = .ok r.method := by
  obtain ⟨-, -, h⟩ := bind_eq_ok h
  obtain ⟨id, hid, h⟩ := bind_eq_ok h
  obtain ⟨method, hmethod, h⟩ := bind_eq_ok h
  cases h
  exact ⟨find_of_getAt hid, find_of_require hmethod⟩

theorem request_of_parseMessage {j : Json} {r : JsonRpcRequest}
    (h : parseMessage j = .ok (.request r)) :
    j.contains "method" = true ∧ j.get JsonRpcRequest = .ok r := by
  unfold parseMessage at h
  split at h
  · cases h
  · dsimp only at h
    split at h
    · next hm =>
      obtain ⟨r', hr, h⟩ := bind_eq_ok h
      cases h
      exact ⟨(Bool.and_eq_true_iff.mp hm).1, hr⟩
    · split at h
      · obtain ⟨n, -, h⟩ := bind_eq_ok h
        cases h
      · split at h
        · obtain ⟨r', -, h⟩ := bind_eq_ok h
          cases h
        · cases h

/-- A decoder never engages params with null. -/
theorem plainParams_of_parseMessage {j : Json} {m : JsonRpcMessage}
    (h : parseMessage j = .ok m) : m.PlainParams := by
  unfold parseMessage at h
  split at h
  · cases h
  · dsimp only at h
    split at h
    · obtain ⟨r, hr, h⟩ := bind_eq_ok h
      cases h
      exact params_of_get_request hr
    · split at h
      · obtain ⟨n, hn, h⟩ := bind_eq_ok h
        cases h
        exact params_of_get_notification hn
      · split at h
        · obtain ⟨r, -, h⟩ := bind_eq_ok h
          cases h
          trivial
        · cases h

/-- Encoding then decoding gives a message back, and what was decoded once decodes the same
again after encoding. -/
theorem envelope_round_trip :
    (∀ m : JsonRpcMessage, m.PlainParams → parseMessage (serializeMessage m) = .ok m) ∧
    (∀ (j : Json) (m : JsonRpcMessage), parseMessage j = .ok m →
      parseMessage (serializeMessage m) = .ok m) := by
  constructor
  · intro m hm
    exact parseMessage_serializeMessage hm
  · intro j m hj
    exact parseMessage_serializeMessage (plainParams_of_parseMessage hj)

end Mcp
