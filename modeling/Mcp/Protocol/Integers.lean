import Mcp.Protocol.RoundTrip
import Mcp.Session.Dispatch
import Mcp.Protocol.Sampling
import Mcp.Tasks.Store

/-! The integers of the wire, and what the decoders make of them. -/
namespace Mcp

open Tasks

/-- A progress token: the original kind is preserved. -/
inductive ProgressToken where
  | string (s : String)
  | integer (i : Int64)
  deriving DecidableEq, Repr

/-- Whole floats are accepted, as they are for a RequestId. -/
def ProgressToken.fromJson (j : Json) : Except Exception ProgressToken :=
  match j with
  | .string s => .ok (.string s)
  | .integer _ | .unsigned _ => do
    let i ← j.getInt64
    return .integer i
  | .float v =>
    let truncated := castInt64 v
    if (truncated.toInt : ℚ) ≠ v then
      raise ErrorCode.parseError "progressToken must be an integer (got fractional number)"
    else .ok (.integer truncated)
  | _ => raise ErrorCode.parseError "progressToken must be a string or integer"

instance : FromJson ProgressToken := ⟨ProgressToken.fromJson⟩

structure ProgressNotificationParams where
  progressToken : ProgressToken
  progress : ℚ
  total : Option ℚ
  message : Option String

def ProgressNotificationParams.fromJson (j : Json) :
    Except Exception ProgressNotificationParams := do
  let progressToken ← getAt ProgressToken j "progressToken"
  let progress ← getAt ℚ j "progress"
  let total ← takeOptional ℚ j "total"
  let message ← takeOptional String j "message"
  return { progressToken, progress, total, message }

instance : FromJson ProgressNotificationParams := ⟨ProgressNotificationParams.fromJson⟩

/-- The number that is stored, of either kind. -/
inductive Json.IsInteger : Json → ℤ → Prop where
  | integer (i : Int64) : IsInteger (.integer i) i.toInt
  | unsigned (u : UInt64) : IsInteger (.unsigned u) u.toNat

/-- The integer of a request id, if it is one. -/
def RequestId.number : RequestId → Option ℤ
  | .string _ => none
  | .integer i => some i.toInt

def ProgressToken.number : ProgressToken → Option ℤ
  | .string _ => none
  | .integer i => some i.toInt

/-- The members of the wire that are decoded to integers. -/
inductive IntegerField where
  | requestId
  | responseId
  | progressToken
  | maxTokens
  | requestedTtl
  | taskTtl
  | pollInterval
  | resourceSize
  | linkSize
  | total
  | errorCode

namespace IntegerField

def member : IntegerField → String
  | requestId | responseId => "id"
  | progressToken => "progressToken"
  | maxTokens => "maxTokens"
  | requestedTtl | taskTtl => "ttl"
  | pollInterval => "pollInterval"
  | resourceSize | linkSize => "size"
  | total => "total"
  | errorCode => "code"

/-- The struct is decoded, and the number is what its member holds. -/
def decode (f : IntegerField) (o : Json) : Except Exception (Option ℤ) :=
  match f with
  | requestId => do return (← o.get JsonRpcRequest).id.number
  | responseId => do return (← o.get JsonRpcResponse).id.bind RequestId.number
  | progressToken => do return (← o.get ProgressNotificationParams).progressToken.number
  | maxTokens => do return some (← o.get CreateMessageRequestParams).maxTokens.toInt
  | requestedTtl => do return (← o.get TaskAugmentation).ttl.map Int64.toInt
  | taskTtl => do return (← o.get Task).ttl.map Int64.toInt
  | pollInterval => do return (← o.get Task).pollInterval.map Int64.toInt
  | resourceSize => do return (← o.get Resource).size.map Int64.toInt
  | linkSize => do return (← o.get ResourceLink).size.map Int64.toInt
  | total => do return (← o.get CompletionValues).total.map Int64.toInt
  | errorCode => do return some (← o.get ErrorObject).code.toInt

/-- The cast that the decoder applies to what is stored. -/
def cast (f : IntegerField) (n : ℤ) : ℤ :=
  match f with
  | errorCode => (Int32.ofInt n).toInt
  | _ => (Int64.ofInt n).toInt

/-- The numbers that the member can take as they are. -/
def Fits (f : IntegerField) (n : ℤ) : Prop :=
  match f with
  | maxTokens => True
  | errorCode => -2 ^ 31 ≤ n ∧ n < 2 ^ 31
  | _ => n < 2 ^ 63

end IntegerField

section Readers

variable {o j : Json} {n : ℤ} {key : String}

theorem range_of_integer (h : j.IsInteger n) : -2 ^ 63 ≤ n ∧ n < 2 ^ 64 := by
  cases h with
  | integer i =>
    have hle := i.le_toInt
    have hlt := i.toInt_lt
    omega
  | unsigned u =>
    have hlt := u.toNat_lt
    omega

/-- A stored integer is cast to 64 bits. -/
theorem get_int64_of_integer (h : j.IsInteger n) : j.get Int64 = .ok (Int64.ofInt n) := by
  cases h with
  | integer i => exact congrArg _ (Int64.ofInt_toInt i).symm
  | unsigned u =>
    have hcast : u.toInt64 = Int64.ofInt u.toNat := Int64.toBitVec.inj (by simp)
    exact congrArg _ hcast

/-- To an `int`, it is narrowed. -/
theorem get_int32_of_integer (h : j.IsInteger n) : j.get Int32 = .ok (Int32.ofInt n) := by
  cases h with
  | integer i => rfl
  | unsigned u =>
    have hcast : u.toUInt32.toInt32 = Int32.ofInt u.toNat := Int32.toBitVec.inj (by
      apply BitVec.eq_of_toNat_eq
      simp)
    exact congrArg _ hcast

theorem int64_kept_iff (h : j.IsInteger n) : (Int64.ofInt n).toInt = n ↔ n < 2 ^ 63 := by
  obtain ⟨hle, -⟩ := range_of_integer h
  constructor
  · intro he
    rw [← he]
    exact Int64.toInt_lt _
  · exact Int64.toInt_ofInt_of_le hle

theorem int32_kept_iff (n : ℤ) : (Int32.ofInt n).toInt = n ↔ -2 ^ 31 ≤ n ∧ n < 2 ^ 31 := by
  constructor
  · intro he
    rw [← he]
    exact ⟨Int32.le_toInt _, Int32.toInt_lt _⟩
  · rintro ⟨hle, hlt⟩
    exact Int32.toInt_ofInt_of_le hle hlt

theorem get_requestId_of_integer (h : j.IsInteger n) :
    j.get RequestId = .ok (.integer (Int64.ofInt n)) := by
  have hread : j.get RequestId = (j.get Int64 >>= fun i => pure (.integer i)) := by
    cases h <;> rfl
  rw [hread, get_int64_of_integer h]
  rfl

theorem get_progressToken_of_integer (h : j.IsInteger n) :
    j.get ProgressToken = .ok (.integer (Int64.ofInt n)) := by
  have hread : j.get ProgressToken = (j.get Int64 >>= fun i => pure (.integer i)) := by
    cases h <;> rfl
  rw [hread, get_int64_of_integer h]
  rfl

theorem takeOptional_of_integer (h : j.IsInteger n) (hfind : o.find key = some j) :
    takeOptional Int64 o key = .ok (some (Int64.ofInt n)) := by
  have hread : engaged Int64 (some j) = (j.get Int64 >>= fun i => pure (some i)) := by
    cases h <;> rfl
  unfold takeOptional
  rw [hfind, hread, get_int64_of_integer h]
  rfl

/-- maxTokens is checked before it is cast. -/
theorem maxTokens_of_integer {i : Int64} (h : j.IsInteger n) (hi : maxTokensFromJson j = .ok i) :
    i.toInt = n ∧ 0 ≤ n := by
  cases h with
  | integer i' =>
    simp only [maxTokensFromJson] at hi
    split at hi
    · cases hi
    · next hneg =>
      cases hi
      refine ⟨rfl, ?_⟩
      rw [Int64.lt_iff_toInt_lt] at hneg
      simpa using hneg
  | unsigned u =>
    simp only [maxTokensFromJson] at hi
    split at hi
    · cases hi
    · split at hi
      · cases hi
      · next hfits =>
        cases hi
        have hlt : u.toNat < 2 ^ 63 := by
          have hmax : Int64.maxValue.toInt.toNat = 2 ^ 63 - 1 := by decide
          omega
        have hcast : u.toInt64 = Int64.ofInt u.toNat := Int64.toBitVec.inj (by simp)
        rw [hcast]
        exact ⟨(int64_kept_iff (.unsigned u)).mpr (by omega), by omega⟩

end Readers

section Structs

variable {o j : Json} {n : ℤ} {a : Option ℤ}

theorem responseId_of_get {r : JsonRpcResponse} (h : o.get JsonRpcResponse = .ok r) :
    responseId o = .ok r.id := by
  obtain ⟨-, -, h⟩ := bind_eq_ok h
  obtain ⟨id, hid, h⟩ := bind_eq_ok h
  rw [hid]
  dsimp only at h
  split at h
  · cases h
  · split at h
    · obtain ⟨result, -, h⟩ := bind_eq_ok h
      cases h
      rfl
    · obtain ⟨e, -, h⟩ := bind_eq_ok h
      cases h
      rfl

theorem responseId_of_integer (h : j.IsInteger n) (hfind : o.find "id" = some j) :
    responseId o = .ok (some (.integer (Int64.ofInt n))) := by
  have hread : responseId o = (j.get RequestId >>= fun id => pure (some id)) := by
    unfold responseId
    rw [hfind]
    cases h <;> rfl
  rw [hread, get_requestId_of_integer h]
  rfl

theorem times_of_get_task {t : Task} (h : o.get Task = .ok t) :
    takeOptional Int64 o "ttl" = .ok t.ttl ∧
      takeOptional Int64 o "pollInterval" = .ok t.pollInterval := by
  obtain ⟨taskId, -, h⟩ := bind_eq_ok h
  obtain ⟨status, -, h⟩ := bind_eq_ok h
  obtain ⟨createdAt, -, h⟩ := bind_eq_ok h
  obtain ⟨lastUpdatedAt, -, h⟩ := bind_eq_ok h
  obtain ⟨statusMessage, -, h⟩ := bind_eq_ok h
  obtain ⟨ttl, httl, h⟩ := bind_eq_ok h
  obtain ⟨pollInterval, hpoll, h⟩ := bind_eq_ok h
  cases h
  exact ⟨httl, hpoll⟩

/-- What a decoder that accepts the object makes of the number: it is cast, and nothing is added
to it or taken from it. -/
theorem decode_of_integer {f : IntegerField} (hf : f ≠ .maxTokens) (h : j.IsInteger n)
    (hfind : o.find f.member = some j) (ha : f.decode o = .ok a) : a = some (f.cast n) := by
  cases f with
  | requestId =>
    obtain ⟨r, hr, ha⟩ := bind_eq_ok ha
    obtain ⟨⟨v, hv, hid⟩, -⟩ := members_of_get_request hr
    cases hfind.symm.trans hv
    rw [get_requestId_of_integer h] at hid
    cases ha
    rw [← Except.ok.inj hid]
    rfl
  | responseId =>
    obtain ⟨r, hr, ha⟩ := bind_eq_ok ha
    have hid := responseId_of_get hr
    rw [responseId_of_integer h hfind] at hid
    cases ha
    rw [← Except.ok.inj hid]
    rfl
  | progressToken =>
    obtain ⟨p, hp, ha⟩ := bind_eq_ok ha
    obtain ⟨token, htoken, hp⟩ := bind_eq_ok hp
    obtain ⟨progress, -, hp⟩ := bind_eq_ok hp
    obtain ⟨total, -, hp⟩ := bind_eq_ok hp
    obtain ⟨message, -, hp⟩ := bind_eq_ok hp
    obtain ⟨v, hv, htoken⟩ := find_of_getAt htoken
    cases hfind.symm.trans hv
    rw [get_progressToken_of_integer h] at htoken
    cases hp
    cases ha
    rw [← Except.ok.inj htoken]
    rfl
  | maxTokens => exact absurd rfl hf
  | requestedTtl =>
    obtain ⟨t, ht, ha⟩ := bind_eq_ok ha
    obtain ⟨ttl, httl, ht⟩ := bind_eq_ok ht
    cases (takeOptional_of_integer h hfind).symm.trans httl
    cases ht
    cases ha
    rfl
  | taskTtl =>
    obtain ⟨t, ht, ha⟩ := bind_eq_ok ha
    have httl := (takeOptional_of_integer h hfind).symm.trans (times_of_get_task ht).1
    cases ha
    rw [← Except.ok.inj httl]
    rfl
  | pollInterval =>
    obtain ⟨t, ht, ha⟩ := bind_eq_ok ha
    have hpoll := (takeOptional_of_integer h hfind).symm.trans (times_of_get_task ht).2
    cases ha
    rw [← Except.ok.inj hpoll]
    rfl
  | resourceSize | linkSize =>
    obtain ⟨r, hr, ha⟩ := bind_eq_ok ha
    obtain ⟨uri, -, hr⟩ := bind_eq_ok hr
    obtain ⟨name, -, hr⟩ := bind_eq_ok hr
    obtain ⟨title, -, hr⟩ := bind_eq_ok hr
    obtain ⟨description, -, hr⟩ := bind_eq_ok hr
    obtain ⟨mimeType, -, hr⟩ := bind_eq_ok hr
    obtain ⟨annotations, -, hr⟩ := bind_eq_ok hr
    obtain ⟨size, hsize, hr⟩ := bind_eq_ok hr
    obtain ⟨icons, -, hr⟩ := bind_eq_ok hr
    cases (takeOptional_of_integer h hfind).symm.trans hsize
    cases hr
    cases ha
    rfl
  | total =>
    obtain ⟨v, hv, ha⟩ := bind_eq_ok ha
    obtain ⟨values, -, hv⟩ := bind_eq_ok hv
    obtain ⟨total, htotal, hv⟩ := bind_eq_ok hv
    obtain ⟨hasMore, -, hv⟩ := bind_eq_ok hv
    cases (takeOptional_of_integer h hfind).symm.trans htotal
    cases hv
    cases ha
    rfl
  | errorCode =>
    obtain ⟨e, he, ha⟩ := bind_eq_ok ha
    obtain ⟨code, hcode, he⟩ := bind_eq_ok he
    obtain ⟨message, -, he⟩ := bind_eq_ok he
    obtain ⟨v, hv, hcode⟩ := find_of_require hcode
    cases hfind.symm.trans hv
    rw [get_int32_of_integer h] at hcode
    cases he
    cases ha
    rw [← Except.ok.inj hcode]
    rfl

theorem decode_maxTokens (h : j.IsInteger n) (hfind : o.find "maxTokens" = some j)
    (ha : IntegerField.maxTokens.decode o = .ok a) : a = some n ∧ 0 ≤ n := by
  obtain ⟨p, hp, ha⟩ := bind_eq_ok ha
  obtain ⟨messages, -, hp⟩ := bind_eq_ok hp
  obtain ⟨mt, hmt, hp⟩ := bind_eq_ok hp
  obtain ⟨v, hv, hmt⟩ := find_of_getAt hmt
  cases hfind.symm.trans hv
  obtain rfl : j = mt := Except.ok.inj hmt
  obtain ⟨maxTokens, hmax, hp⟩ := bind_eq_ok hp
  obtain ⟨modelPreferences, -, hp⟩ := bind_eq_ok hp
  obtain ⟨systemPrompt, -, hp⟩ := bind_eq_ok hp
  obtain ⟨includeContext, -, hp⟩ := bind_eq_ok hp
  obtain ⟨temperature, -, hp⟩ := bind_eq_ok hp
  obtain ⟨stopSequences, -, hp⟩ := bind_eq_ok hp
  obtain ⟨tools, -, hp⟩ := bind_eq_ok hp
  obtain ⟨toolChoice, -, hp⟩ := bind_eq_ok hp
  obtain ⟨hkept, hnonneg⟩ := maxTokens_of_integer h hmax
  cases hp
  cases ha
  exact ⟨congrArg some hkept, hnonneg⟩

end Structs

section Wire

variable {j j₁ j₂ : Json} {n n₁ n₂ : ℤ}

/-- A struct with the number in its member, and no more than what is required. -/
def IntegerField.sample (f : IntegerField) (j : Json) : Json :=
  match f with
  | requestId => .object [("id", j), ("jsonrpc", .string "2.0"), ("method", .string "ping")]
  | responseId => .object [("id", j), ("jsonrpc", .string "2.0"), ("result", .null)]
  | progressToken => .object [("progress", .unsigned 0), ("progressToken", j)]
  | maxTokens => .object [("maxTokens", j), ("messages", .array [])]
  | requestedTtl => .object [("ttl", j)]
  | taskTtl => .object [("createdAt", .string ""), ("lastUpdatedAt", .string ""),
      ("status", .string "working"), ("taskId", .string ""), ("ttl", j)]
  | pollInterval => .object [("createdAt", .string ""), ("lastUpdatedAt", .string ""),
      ("pollInterval", j), ("status", .string "working"), ("taskId", .string "")]
  | resourceSize | linkSize => .object [("name", .string ""), ("size", j), ("uri", .string "")]
  | total => .object [("total", j), ("values", .array [])]
  | errorCode => .object [("code", j), ("message", .string "")]

theorem find_sample (f : IntegerField) (j : Json) : (f.sample j).find f.member = some j := by
  cases f <;> rfl

theorem decode_sample {f : IntegerField} (hf : f ≠ .maxTokens) (h : j.IsInteger n) :
    ∃ a, f.decode (f.sample j) = .ok a := by
  cases f with
  | maxTokens => exact absurd rfl hf
  | _ => cases h <;> exact ⟨_, rfl⟩

theorem cast_kept_iff {f : IntegerField} (hf : f ≠ .maxTokens) (h : j.IsInteger n) :
    f.cast n = n ↔ f.Fits n := by
  cases f with
  | maxTokens => exact absurd rfl hf
  | errorCode => exact int32_kept_iff n
  | _ => exact int64_kept_iff h

/-- A member is decoded to the number it holds, or not at all, if the number fits. -/
theorem decode_kept_iff (f : IntegerField) (h : j.IsInteger n) :
    (∀ o a, o.find f.member = some j → f.decode o = .ok a →
      a = some n ∧ (f = .maxTokens → 0 ≤ n)) ↔ f.Fits n := by
  by_cases hf : f = .maxTokens
  · subst f
    refine ⟨fun _ => trivial, ?_⟩
    intro _ o a hfind ha
    obtain ⟨hkept, hnonneg⟩ := decode_maxTokens h hfind ha
    exact ⟨hkept, fun _ => hnonneg⟩
  · constructor
    · intro hkept
      obtain ⟨a, ha⟩ := decode_sample hf h
      obtain ⟨ha', -⟩ := hkept _ a (find_sample f j) ha
      have hcast := decode_of_integer hf h (find_sample f j) ha
      apply (cast_kept_iff hf h).mp
      exact Option.some.inj (hcast.symm.trans ha')
    · intro hfits o a hfind ha
      have hcast := decode_of_integer hf h hfind ha
      rw [(cast_kept_iff hf h).mpr hfits] at hcast
      exact ⟨hcast, fun he => absurd he hf⟩

/-- The response carries the id as it was decoded. -/
theorem find_id_respondTo {jsonWhat : JsonException → String} {req : JsonRpcRequest}
    {run : Option (Except Exception Json)} :
    (serializeMessage (.response (respondTo jsonWhat req run))).find "id" = some (.of req.id) := by
  have hfind := find_response (respondTo jsonWhat req run) "id"
  change (Json.of (respondTo jsonWhat req run)).find "id" = _
  rw [hfind]
  cases (respondTo jsonWhat req run).outcome <;> rfl

theorem response_echoes_iff {jsonWhat : JsonException → String} {o : Json} {req : JsonRpcRequest}
    {run : Option (Except Exception Json)} (h : j.IsInteger n) (ho : o.find "id" = some j)
    (hreq : o.get JsonRpcRequest = .ok req) :
    (∃ j', (serializeMessage (.response (respondTo jsonWhat req run))).find "id" = some j' ∧
      j'.IsInteger n) ↔ n < 2 ^ 63 := by
  obtain ⟨⟨v, hv, hid⟩, -⟩ := members_of_get_request hreq
  cases ho.symm.trans hv
  rw [get_requestId_of_integer h] at hid
  rw [find_id_respondTo, ← int64_kept_iff h, ← Except.ok.inj hid]
  constructor
  · rintro ⟨j', hj', hn⟩
    cases hj'
    generalize hi : Int64.ofInt n = i at hn ⊢
    cases hn
    rfl
  · intro hkept
    refine ⟨_, rfl, ?_⟩
    have hn := Json.IsInteger.integer (Int64.ofInt n)
    rwa [hkept] at hn

/-- Two integers are cast to one id if they are 2^64 apart. -/
theorem ids_differ_iff (h₁ : j₁.IsInteger n₁) (h₂ : j₂.IsInteger n₂) (hne : n₁ ≠ n₂) :
    j₁.get RequestId ≠ j₂.get RequestId ↔ n₁ ≠ n₂ + 2 ^ 64 ∧ n₂ ≠ n₁ + 2 ^ 64 := by
  have hr₁ := range_of_integer h₁
  have hr₂ := range_of_integer h₂
  rw [get_requestId_of_integer h₁, get_requestId_of_integer h₂]
  have hsame : Int64.ofInt n₁ = Int64.ofInt n₂ ↔ n₁.bmod (2 ^ 64) = n₂.bmod (2 ^ 64) := by
    rw [Int64.ofInt_eq_iff_bmod_eq_toInt, Int64.toInt_ofInt]
    rfl
  simp only [ne_eq, Except.ok.injEq, RequestId.integer.injEq, hsame, Int.bmod_def]
  omega

/-- Every member but maxTokens is cast without a look at its range: a number is kept, or refused,
if it fits, an id comes back if it is less than 2^63, and two ids stay apart unless the distance
between them is 2^64. -/
theorem wire_integers_kept_iff {j : Json} {n : ℤ} (h : j.IsInteger n) :
    (∀ f : IntegerField,
      ((∀ o a, o.find f.member = some j → f.decode o = .ok a →
        a = some n ∧ (f = .maxTokens → 0 ≤ n)) ↔ f.Fits n)) ∧
    (∀ (jsonWhat : JsonException → String) (run : Option (Except Exception Json)) (o : Json)
      (req : JsonRpcRequest), o.find "id" = some j → o.get JsonRpcRequest = .ok req →
      ((∃ j', (serializeMessage (.response (respondTo jsonWhat req run))).find "id" = some j' ∧
        j'.IsInteger n) ↔ n < 2 ^ 63)) ∧
    (∀ (j' : Json) (n' : ℤ), j'.IsInteger n' → n ≠ n' →
      (j.get RequestId ≠ j'.get RequestId ↔ n ≠ n' + 2 ^ 64 ∧ n' ≠ n + 2 ^ 64)) := by
  refine ⟨?_, ?_, ?_⟩
  · intro f
    exact decode_kept_iff f h
  · intro jsonWhat run o req ho hreq
    exact response_echoes_iff h ho hreq
  · intro j' n' h' hne
    exact ids_differ_iff h h' hne

/-- 2^63 - 1 is the largest id that comes back, and 2^63 is not mistaken for -1. -/
theorem largest_id_kept :
    (∃ a, IntegerField.requestId.decode
        (IntegerField.requestId.sample (.unsigned 9223372036854775807)) = .ok a ∧
      a = some 9223372036854775807) ∧
    (Json.unsigned 9223372036854775808).get RequestId ≠ (Json.integer (-1)).get RequestId := by
  constructor
  · refine ⟨_, rfl, ?_⟩
    have hfits : IntegerField.requestId.Fits (9223372036854775807 : UInt64).toNat :=
      show ((9223372036854775807 : UInt64).toNat : ℤ) < 2 ^ 63 by decide
    have hfind := find_sample .requestId (.unsigned 9223372036854775807)
    have hkept := ((wire_integers_kept_iff (.unsigned _)).1 .requestId).mpr hfits
    exact (hkept _ _ hfind rfl).1
  · have hdiffer := (wire_integers_kept_iff (.unsigned 9223372036854775808)).2.2
    exact (hdiffer _ _ (.integer (-1)) (by decide)).mpr (by decide)

/-- The id 2^64 - 1 is decoded, and answered, as -1, which is an id of its own. -/
theorem largest_unsigned_id_negated :
    ∃ req, (IntegerField.requestId.sample (.unsigned 18446744073709551615)).get JsonRpcRequest =
        .ok req ∧
      (serializeMessage (.response (respondTo (fun _ => "") req none))).find "id" =
        some (.integer (-1)) ∧
      (Json.unsigned 18446744073709551615).get RequestId = (Json.integer (-1)).get RequestId :=
  ⟨_, rfl, rfl, rfl⟩

end Wire

end Mcp
