import Mcp.Session.Dispatch

/-! A request is answered exactly once if and only if what its handler came to is well-formed
UTF-8. -/
namespace Mcp

section WellFormed

mutual

/-- Every string in the value, keys included, is well-formed. -/
def Json.isUtf8 : Json → Bool
  | .string s => decide (Utf8.Valid s.toList)
  | .array xs => elementsUtf8 xs
  | .object kvs => membersUtf8 kvs
  | _ => true

def elementsUtf8 : List Json → Bool
  | [] => true
  | x :: xs => x.isUtf8 && elementsUtf8 xs

def membersUtf8 : List (String × Json) → Bool
  | [] => true
  | (key, v) :: kvs => decide (Utf8.Valid key.toList) && (v.isUtf8 && membersUtf8 kvs)

end

theorem isUtf8_of_lookup {kvs : List (String × Json)} (h : membersUtf8 kvs = true) {key : String}
    {v : Json} (hv : kvs.lookup key = some v) : v.isUtf8 = true := by
  induction kvs with
  | nil => cases hv
  | cons kv kvs ih =>
    obtain ⟨k, w⟩ := kv
    simp only [membersUtf8, Bool.and_eq_true] at h
    rw [Json.lookup_cons] at hv
    split at hv
    · cases hv
      exact h.2.1
    · exact ih h.2.2 hv

theorem isUtf8_of_find {j : Json} (h : j.isUtf8 = true) {key : String} {v : Json}
    (hv : j.find key = some v) : v.isUtf8 = true := by
  cases j with
  | object kvs => exact isUtf8_of_lookup (by simpa [Json.isUtf8] using h) hv
  | _ => cases hv

theorem membersUtf8_assign (key : String) (v : Json) {kvs : List (String × Json)}
    (h : kvs.lookup key = none) :
    membersUtf8 (Json.assign key v kvs) = membersUtf8 ((key, v) :: kvs) := by
  induction kvs with
  | nil => rfl
  | cons kv kvs ih =>
    obtain ⟨k, w⟩ := kv
    rw [Json.lookup_cons] at h
    have hne : key ≠ k := by
      rintro rfl
      simp at h
    rw [if_neg hne] at h
    by_cases hlt : key < k
    · simp only [Json.assign, hne, hlt, if_false, if_true]
    · simp only [Json.assign, hne, hlt, if_false, membersUtf8, ih h]
      cases decide (Utf8.Valid key.toList) <;> cases v.isUtf8 <;> simp

/-- A new member is one more thing to be well-formed. -/
theorem isUtf8_set {j : Json} (hj : j.isAssignable = true) {key : String} (v : Json)
    (h : j.find key = none) :
    (j.set key v).isUtf8 = (decide (Utf8.Valid key.toList) && (v.isUtf8 && j.isUtf8)) := by
  cases j with
  | null => simp [Json.set, Json.isUtf8, membersUtf8]
  | object kvs => exact membersUtf8_assign key v h
  | _ => cases hj

@[simp] theorem isUtf8_emptyObject : Json.emptyObject.isUtf8 = true := by
  simp [Json.emptyObject, Json.isUtf8, membersUtf8]

@[simp] theorem isUtf8_of_string (s : String) :
    (Json.of s).isUtf8 = decide (Utf8.Valid s.toList) := by
  simp [Json.of, ToJson.toJson, Json.isUtf8]

@[simp] theorem isUtf8_of_int32 (i : Int32) : (Json.of i).isUtf8 = true := by
  simp [Json.of, ToJson.toJson, Json.isUtf8]

end WellFormed

/-- What `dump` and `parse` make of ill-formed strings: neither lets one through. -/
structure Codec.Strict (codec : Codec) : Prop where
  dump_iff : ∀ j, (codec.dump j).isSome ↔ j.isUtf8 = true
  parse_utf8 : ∀ raw j, codec.parse raw = some j → j.isUtf8 = true

def Outcome.isUtf8 : Outcome → Bool
  | .result j => j.isUtf8
  | .error e => decide (Utf8.Valid e.message.toList) && e.data.isUtf8

theorem isUtf8_errorObject (e : ErrorObject) :
    (Json.of e).isUtf8 = (Outcome.error e).isUtf8 := by
  change e.toJson.isUtf8 = _
  cases hd : e.hasData with
  | false =>
    have hnull : e.data = .null := by
      cases h : e.data <;> simp_all [ErrorObject.hasData, Json.isNull]
    simp [ErrorObject.toJson, hd, isUtf8_set, Json.find_set, Outcome.isUtf8, hnull, Json.isUtf8]
  | true =>
    simp [ErrorObject.toJson, hd, isUtf8_set, Json.find_set, Outcome.isUtf8, Bool.and_comm]

theorem isUtf8_response {resp : JsonRpcResponse} {id : RequestId} (hid : resp.id = some id)
    (hutf8 : (Json.of id).isUtf8 = true) :
    (Json.of resp).isUtf8 = resp.outcome.isUtf8 := by
  change resp.toJson.isUtf8 = _
  cases ho : resp.outcome with
  | result j =>
    simp [JsonRpcResponse.toJson, ho, hid, isUtf8_set, Json.find_set, hutf8, Outcome.isUtf8,
      kJsonrpcVersion]
  | error e =>
    simp [JsonRpcResponse.toJson, ho, hid, isUtf8_set, Json.find_set, hutf8, isUtf8_errorObject,
      kJsonrpcVersion]

theorem isUtf8_of_requestId {v : Json} {id : RequestId} (hv : v.isUtf8 = true)
    (h : RequestId.fromJson v = .ok id) : (Json.of id).isUtf8 = true := by
  cases id with
  | integer i => simp [Json.of, ToJson.toJson, RequestId.toJson, Json.isUtf8]
  | string s =>
    cases v with
    | string s' =>
      cases h
      exact hv
    | float q =>
      simp only [RequestId.fromJson] at h
      split at h <;> cases h
    | _ => cases h

/-- What came in well-formed has a well-formed id and method. -/
theorem isUtf8_of_parseMessage {j : Json} {req : JsonRpcRequest} (hj : j.isUtf8 = true)
    (h : parseMessage j = .ok (.request req)) :
    (Json.of req.id).isUtf8 = true ∧ Utf8.Valid req.method.toList := by
  obtain ⟨-, hget⟩ := request_of_parseMessage h
  obtain ⟨⟨v, hv, hid⟩, w, hw, hmethod⟩ := members_of_get_request hget
  refine ⟨isUtf8_of_requestId (isUtf8_of_find hj hv) hid, ?_⟩
  have hutf8 := isUtf8_of_find hj hw
  cases w with
  | string s =>
    cases hmethod
    simpa [Json.isUtf8] using hutf8
  | _ => cases hmethod

section Answered

variable {jsonWhat : JsonException → String} {codec : Codec}
  {handlers : String → Option RequestHandler} {raw : String} {j : Json} {req : JsonRpcRequest}

/-- What the handler returned or threw is well-formed, as far as it is put into the response. -/
def Writable (jsonWhat : JsonException → String) : Option (Except Exception Json) → Prop
  | none => True
  | some (.ok j) => j.isUtf8 = true
  | some (.error (.error e)) => Utf8.Valid e.message.toList ∧ e.data.isUtf8 = true
  | some (.error (.json e)) => Utf8.Valid (jsonWhat e).toList
  | some (.error (.std what)) => Utf8.Valid what.toList
  | some (.error .other) => True

theorem isUtf8_respondTo (hmethod : Utf8.Valid req.method.toList)
    (run : Option (Except Exception Json)) :
    (respondTo jsonWhat req run).outcome.isUtf8 = true ↔ Writable jsonWhat run := by
  cases run with
  | none =>
    simp [respondTo, methodNotFound, Outcome.isUtf8, Writable, Json.isUtf8, hmethod]
  | some r =>
    cases r with
    | ok j => simp [respondTo, outcomeOf, Outcome.isUtf8, Writable]
    | error e =>
      cases e with
      | error e => simp [respondTo, outcomeOf, Outcome.isUtf8, Writable]
      | json e => simp [respondTo, outcomeOf, Outcome.isUtf8, Writable, Json.isUtf8]
      | std what => simp [respondTo, outcomeOf, Outcome.isUtf8, Writable, Json.isUtf8]
      | other => simp [respondTo, outcomeOf, Outcome.isUtf8, Writable, Json.isUtf8]

namespace Session

theorem handleFrame_request (hraw : codec.parse raw = some j)
    (hreq : parseMessage j = .ok (.request req)) :
    handleFrame jsonWhat codec handlers raw =
      (codec.dump (.of (respondTo jsonWhat req
        ((handlers req.method).map fun handler => handler (req.params.getD .null))))).toList := by
  simp [handleFrame, hraw, hreq, handleRequest, sendMessage, serializeMessage]

theorem dump_isSome_iff (hcodec : codec.Strict) (hraw : codec.parse raw = some j)
    (hreq : parseMessage j = .ok (.request req)) (run : Option (Except Exception Json)) :
    (codec.dump (.of (respondTo jsonWhat req run))).isSome ↔ Writable jsonWhat run := by
  obtain ⟨hid, hmethod⟩ := isUtf8_of_parseMessage (hcodec.parse_utf8 _ _ hraw) hreq
  rw [hcodec.dump_iff, isUtf8_response rfl hid, isUtf8_respondTo hmethod]

theorem unanswered_of_not_writable (hcodec : codec.Strict) (hraw : codec.parse raw = some j)
    (hreq : parseMessage j = .ok (.request req))
    (h : ¬Writable jsonWhat
      ((handlers req.method).map fun handler => handler (req.params.getD .null))) :
    handleFrame jsonWhat codec handlers raw = [] := by
  rw [← dump_isSome_iff hcodec hraw hreq, Option.isSome_iff_ne_none, not_not] at h
  rw [handleFrame_request hraw hreq, h]
  rfl

/-- A request is answered by exactly one frame, which carries its id, if and only if what its
handler returned or threw can be written. -/
theorem one_response_iff (hcodec : codec.Strict) (hraw : codec.parse raw = some j)
    (hreq : parseMessage j = .ok (.request req)) :
    (∃ (frame : String) (resp : JsonRpcResponse),
        handleFrame jsonWhat codec handlers raw = [frame] ∧ resp.id = some req.id ∧
          codec.dump (.of resp) = some frame) ↔
      Writable jsonWhat
        ((handlers req.method).map fun handler => handler (req.params.getD .null)) := by
  constructor
  · rintro ⟨frame, resp, hframe, -, -⟩
    by_contra h
    rw [unanswered_of_not_writable hcodec hraw hreq h] at hframe
    cases hframe
  · intro h
    rw [← dump_isSome_iff hcodec hraw hreq] at h
    obtain ⟨frame, hframe⟩ := Option.isSome_iff_exists.mp h
    refine ⟨frame, _, ?_, rfl, hframe⟩
    rw [handleFrame_request hraw hreq, hframe]
    rfl

end Session

end Answered

namespace Session

def callText : String :=
  "\x7b\"jsonrpc\":\"2.0\",\"id\":1,\"method\":\"tools/call\"\x7d"

def callJson : Json :=
  .object [("id", .unsigned 1), ("jsonrpc", .string "2.0"), ("method", .string "tools/call")]

def call : JsonRpcRequest where
  id := .integer 1
  method := "tools/call"
  params := none

def okText : Json → String
  | .object [("id", .integer 1), ("jsonrpc", .string "2.0"), ("result", .object [])] =>
    "\x7b\"id\":1,\"jsonrpc\":\"2.0\",\"result\":\x7b\x7d\x7d"
  | _ => "null"

/-- The codec on the texts of one call: the request, and the response with an empty result. -/
def callCodec : Codec where
  parse text := if text = callText then some callJson else none
  dump j := if j.isUtf8 then some (okText j) else none

theorem callCodec_strict : callCodec.Strict where
  dump_iff := by
    intro j
    simp [callCodec]
  parse_utf8 := by
    intro raw j h
    simp only [callCodec] at h
    split at h
    · cases h
      simp [callJson, Json.isUtf8, membersUtf8]
    · cases h

theorem parse_callJson : parseMessage callJson = .ok (.request call) := by
  have hget : callJson.get JsonRpcRequest = .ok call := by
    change JsonRpcRequest.fromJson callJson = _
    have hv : checkJsonrpc callJson = .ok () := checkJsonrpc_of_find rfl
    have hi : getAt RequestId callJson "id" = .ok call.id := rfl
    have hm : require String callJson "method" = .ok "tools/call" := rfl
    have ht : takeOptionalJson callJson "params" = none := rfl
    simp [JsonRpcRequest.fromJson, hv, hi, hm, ht, bind, Except.bind, pure, Except.pure, call]
  have ho : callJson.isObject = true := rfl
  have hc : callJson.contains "id" = true ∧ callJson.contains "method" = true := ⟨rfl, rfl⟩
  simp [parseMessage, ho, hc, hget, bind, Except.bind, pure, Except.pure]

/-- A tool that returns the byte 0xFF in a string is called, and its caller hears nothing. -/
theorem unwritable_result_unanswered :
    callCodec.Strict ∧ callCodec.parse callText = some callJson ∧
      parseMessage callJson = .ok (.request call) ∧
      handleFrame (fun _ => "") callCodec
        (fun _ => some fun _ => .ok (.object [("text", .string "\xff")])) callText = [] := by
  have hraw : callCodec.parse callText = some callJson := by simp [callCodec]
  refine ⟨callCodec_strict, hraw, parse_callJson, ?_⟩
  apply unanswered_of_not_writable callCodec_strict hraw parse_callJson
  simp [Writable, Json.isUtf8, membersUtf8, Utf8.Valid, Utf8.run, Utf8.step, Utf8.owed]

/-- A tool that returns an empty object is answered. -/
theorem empty_result_answered :
    ∃ (frame : String) (resp : JsonRpcResponse),
      handleFrame (fun _ => "") callCodec (fun _ => some fun _ => .ok .emptyObject) callText =
        [frame] ∧ resp.id = some call.id ∧ callCodec.dump (.of resp) = some frame := by
  apply (one_response_iff callCodec_strict (by simp [callCodec]) parse_callJson).mpr
  simp [Writable]

end Session

end Mcp
