import Mcp.Http.Routing

/-! Which POST bodies the host waits an answer for, and which the Session takes for requests. -/
namespace Mcp

variable {j v : Json} {id : RequestId} {req : JsonRpcRequest}

/-- A string, an integer, or a float that is a whole number of 64 bits. -/
def Json.IsId : Json → Prop
  | .string _ | .integer _ | .unsigned _ => True
  | .float q => ∃ i : Int64, q = i.toInt
  | _ => False

/-- What the request decoder asks of a frame. -/
structure Enveloped (j : Json) : Prop where
  version : j.find "jsonrpc" = some (.of kJsonrpcVersion)
  id : ∃ v, j.find "id" = some v ∧ v.IsId
  method : ∃ m : String, j.find "method" = some (.of m)

@[simp] theorem truncate_intCast (z : ℤ) : truncate (z : ℚ) = z := by
  simp [truncate]

@[simp] theorem castInt64_toInt (i : Int64) : castInt64 (i.toInt : ℚ) = i := by
  have hle : Int64.minValue.toInt ≤ i.toInt ∧ i.toInt ≤ Int64.maxValue.toInt :=
    ⟨i.minValue_le_toInt, i.toInt_le⟩
  rw [castInt64, truncate_intCast, if_pos hle, Int64.ofInt_toInt]

theorem isId_of_fromJson (h : RequestId.fromJson v = .ok id) : v.IsId := by
  cases v with
  | string s | integer i | unsigned u => trivial
  | float q =>
    simp only [RequestId.fromJson] at h
    split at h
    · cases h
    · next hq => exact ⟨castInt64 q, (not_not.mp hq).symm⟩
  | null | boolean _ | array _ | object _ => cases h

theorem fromJson_of_isId (h : v.IsId) : ∃ id, RequestId.fromJson v = .ok id := by
  cases v with
  | string s => exact ⟨_, rfl⟩
  | integer i => exact ⟨_, rfl⟩
  | unsigned u => exact ⟨_, rfl⟩
  | float q =>
    obtain ⟨i, rfl⟩ := h
    exact ⟨.integer i, by simp [RequestId.fromJson]⟩
  | null | boolean _ | array _ | object _ => exact h.elim

theorem Json.IsId.not_null (h : v.IsId) : v.isNull = false := by
  cases v with
  | null => exact h.elim
  | _ => rfl

theorem find_of_checkJsonrpc (h : checkJsonrpc j = .ok ()) :
    j.find "jsonrpc" = some (.of kJsonrpcVersion) := by
  obtain ⟨version, hv, h⟩ := bind_eq_ok h
  obtain ⟨v, hfind, hget⟩ := find_of_require hv
  have hversion : version = kJsonrpcVersion := by
    by_contra hne
    rw [if_pos hne] at h
    cases h
  cases v with
  | string s =>
    cases hget
    rw [hfind, hversion]
    rfl
  | _ => cases hget

theorem isObject_of_find {key : String} (h : j.find key = some v) : j.isObject = true := by
  cases j with
  | object kvs => rfl
  | _ => cases h

/-- A frame is dispatched as a request just when it has the three members of one. -/
theorem enveloped_iff : (∃ req, parseMessage j = .ok (.request req)) ↔ Enveloped j := by
  constructor
  · rintro ⟨req, h⟩
    obtain ⟨-, hget⟩ := request_of_parseMessage h
    obtain ⟨⟨v, hid, hv⟩, ⟨m, hmethod, hm⟩⟩ := members_of_get_request hget
    obtain ⟨_, hversion, -⟩ := bind_eq_ok hget
    refine ⟨find_of_checkJsonrpc hversion, ⟨v, hid, isId_of_fromJson hv⟩, ?_⟩
    cases m with
    | string s => exact ⟨s, hmethod⟩
    | _ => cases hm
  · rintro ⟨hversion, ⟨v, hid, hv⟩, ⟨m, hmethod⟩⟩
    obtain ⟨id, hfrom⟩ := fromJson_of_isId hv
    have hget : j.get JsonRpcRequest =
        .ok { id, method := m, params := takeOptionalJson j "params" } := by
      change JsonRpcRequest.fromJson j = _
      have hi : getAt RequestId j "id" = .ok id := by
        rw [getAt, hid]
        exact hfrom
      have hm : require String j "method" = .ok m := by simp [require, hmethod]
      simp [JsonRpcRequest.fromJson, checkJsonrpc_of_find hversion, hi, hm, bind, Except.bind,
        pure, Except.pure]
    have ho := isObject_of_find hid
    exact ⟨_, by simp [parseMessage, ho, Json.contains, hid, hmethod, hget, bind, Except.bind, pure,
      Except.pure]; rfl⟩

namespace Http.SessionTransport

open Transition

variable {codec : Codec} {s s' : State codec} {t p : ℕ} {raw : String}

/-- `deliver_request_or_notification` has a future for the POST of thread `t`. -/
def State.Awaits (s : State codec) (t : ℕ) : Prop :=
  ∃ f p, s.pc t = .handing f ∧ f.reply = some p

/-- `handle_frame` hands the frame to `handle_request`. -/
def Requested (codec : Codec) (raw : String) : Prop :=
  ∃ j req, codec.parse raw = some j ∧ parseMessage j = .ok (.request req)

/-- The host looks at two members only. -/
theorem deliver_awaits_iff : (s.deliver t raw).Awaits t ↔
    ∃ j, codec.parse raw = some j ∧ hasId j = true ∧ j.contains "method" = true := by
  simp only [State.Awaits, State.deliver]
  cases codec.parse raw with
  | none => simp [State.setPC]
  | some j =>
    simp only [Option.some.injEq, exists_eq_left', ← Bool.and_eq_true]
    cases hasId j && j.contains "method" <;> simp [State.setPC]

theorem requested_iff : Requested codec raw ↔ ∃ j, codec.parse raw = some j ∧ Enveloped j := by
  constructor
  · rintro ⟨j, req, hj, hreq⟩
    exact ⟨j, hj, enveloped_iff.mp ⟨req, hreq⟩⟩
  · rintro ⟨j, hj, hen⟩
    obtain ⟨req, hreq⟩ := enveloped_iff.mpr hen
    exact ⟨j, req, hj, hreq⟩

/-- Every request is awaited. -/
theorem members_of_enveloped {j : Json} (h : Enveloped j) :
    hasId j = true ∧ j.contains "method" = true := by
  obtain ⟨-, ⟨v, hid, hv⟩, ⟨m, hmethod⟩⟩ := h
  exact ⟨by simp [hasId, hid, hv.not_null], by simp [Json.contains, hmethod]⟩

/-- A body is a request to the host if and only if it is one to the Session, just when a body with
a method and an id that is not null has the version, and an id and a method of the right type. -/
theorem awaited_iff_requested (codec : Codec) (s s' : State codec) (t : ℕ) (raw : String)
    (hpost : Step codec s (.post t raw) s') :
    (s'.Awaits t ↔ Requested codec raw) ↔
      ∀ j, codec.parse raw = some j → hasId j = true → j.contains "method" = true →
        Enveloped j := by
  cases hpost
  rw [deliver_awaits_iff, requested_iff]
  constructor
  · intro hiff j hj hid hmethod
    obtain ⟨j', hj', hen⟩ := hiff.mp ⟨j, hj, hid, hmethod⟩
    cases hj.symm.trans hj'
    exact hen
  · intro hall
    constructor
    · rintro ⟨j, hj, hid, hmethod⟩
      exact ⟨j, hj, hall j hj hid hmethod⟩
    · rintro ⟨j, hj, hen⟩
      exact ⟨j, hj, members_of_enveloped hen⟩

/-- A ping is awaited and dispatched. -/
theorem ping_awaited_and_requested :
    (ready.deliver 0 pingText).Awaits 0 ↔ Requested pingCodec pingText := by
  apply (awaited_iff_requested pingCodec ready _ 0 pingText (.post rfl)).mpr
  intro j hj _ _
  cases hj
  exact ⟨rfl, ⟨_, rfl, trivial⟩, ⟨_, rfl⟩⟩

def bareText : String := "\x7b\"id\":1,\"method\":\"ping\"\x7d"
def bareJson : Json := .object [("id", .unsigned 1), ("method", .string "ping")]

/-- The text codec on one frame. -/
def bareCodec : Codec where
  parse text := if text = bareText then some bareJson else none
  dump _ := none

/-- The POST of a ping without a version waits for an answer nobody owes it, until its 504. -/
theorem bare_ping_times_out : ∃ s₀ s₁ s₂ s₃ : State bareCodec,
    (machine bareCodec).Reachable Free s₀ ∧ s₀.closed = false ∧
    (s₀.started && s₀.listening) = true ∧ Step bareCodec s₀ (.post 0 bareText) s₁ ∧
    s₁.Awaits 0 ∧ ¬Requested bareCodec bareText ∧
    Step bareCodec s₁ (.handOver 0) s₂ ∧ s₂.pc 0 = .waiting 0 ∧ s₂.owed 0 = none ∧
    Step bareCodec s₂ (.timeOut 0) s₃ ∧
    s₃.pc 0 = .responding { status := 504, content := "handler timed out" } := by
  have h₀ : (machine bareCodec).Reachable Free fresh := .initial rfl
  have h₁ := reachable_step (a := .onMessage) h₀ trivial .onMessage
  have h₂ := reachable_step (a := .start) h₁ trivial .start
  refine ⟨_, _, _, _, h₂, rfl, rfl, .post rfl, ?_, ?_, .handOver rfl, rfl, rfl, .timeOut rfl, rfl⟩
  · exact deliver_awaits_iff.mpr ⟨bareJson, rfl, rfl, rfl⟩
  · rw [requested_iff]
    rintro ⟨j, hj, hen⟩
    cases hj
    cases hen.version

end Http.SessionTransport

end Mcp
