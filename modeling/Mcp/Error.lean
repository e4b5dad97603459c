import Mcp.Json

/-! Error objects, what the modelled functions throw, and `get<T>()` on JSON values. -/
namespace Mcp

namespace ErrorCode

def parseError : Int32 := -32700
def invalidRequest : Int32 := -32600
def methodNotFound : Int32 := -32601
def invalidParams : Int32 := -32602
def internalError : Int32 := -32603
def urlElicitationRequired : Int32 := -32042

end ErrorCode

/-- The JSON-RPC error object; `data` is null when absent on the wire. -/
structure ErrorObject where
  code : Int32
  message : String
  data : Json := .null

def ErrorObject.hasData (e : ErrorObject) : Bool := !e.data.isNull

/-- The exceptions of the JSON library, by class. -/
inductive JsonException where
  | parseError
  | typeError
  | outOfRange
  deriving DecidableEq, Repr

/-- What a modelled function can throw. -/
inductive Exception where
  | error (e : ErrorObject)
  | json (e : JsonException)
  | std (what : String)
  | other

/-- `throw Error(code, message)`. -/
def raise {α : Type} (code : Int32) (message : String) : Except Exception α :=
  .error (.error { code, message })

/-- The `to_json` overload of a type. -/
class ToJson (α : Type) where
  toJson : α → Json

/-- The `from_json` overload of a type. -/
class FromJson (α : Type) where
  fromJson : Json → Except Exception α

/-- `nlohmann::json(a)`. -/
def Json.of {α : Type} [ToJson α] (a : α) : Json := ToJson.toJson a

/-- `j.get<T>()`. -/
def Json.get (α : Type) [FromJson α] (j : Json) : Except Exception α := FromJson.fromJson j

/-- A double cast to an integer type drops its fraction. -/
def truncate (q : ℚ) : ℤ := if q < 0 then ⌈q⌉ else ⌊q⌋

/-- `static_cast<int64_t>(double)`; the standard leaves a value out of range undefined, and the
model takes what the x86-64 instruction gives. -/
def castInt64 (q : ℚ) : Int64 :=
  if Int64.minValue.toInt ≤ truncate q ∧ truncate q ≤ Int64.maxValue.toInt then
    Int64.ofInt (truncate q)
  else Int64.minValue

/-- `static_cast<int>(double)`, as above. -/
def castInt32 (q : ℚ) : Int32 :=
  if Int32.minValue.toInt ≤ truncate q ∧ truncate q ≤ Int32.maxValue.toInt then
    Int32.ofInt (truncate q)
  else Int32.minValue

/-- `static_cast<double>` of an integer: 53 significant bits, ties to even. -/
def castDouble (i : ℤ) : ℚ :=
  let n := i.natAbs
  let unit := 2 ^ (Nat.log2 n - 52)
  let up := unit < 2 * (n % unit) ∨ (unit = 2 * (n % unit) ∧ n / unit % 2 = 1)
  i.sign * ((n / unit + if up then 1 else 0) * unit : ℕ)

namespace Json

def getBoolean : Json → Except Exception Bool
  | .boolean b => .ok b
  | _ => .error (.json .typeError)

def getString : Json → Except Exception String
  | .string s => .ok s
  | _ => .error (.json .typeError)

/-- Stored integers are cast, whichever kind they are stored as. -/
def getInt64 : Json → Except Exception Int64
  | .integer i => .ok i
  | .unsigned u => .ok u.toInt64
  | .float q => .ok (castInt64 q)
  | _ => .error (.json .typeError)

/-- A narrower arithmetic type also reads a boolean. -/
def getInt32 : Json → Except Exception Int32
  | .integer i => .ok i.toInt32
  | .unsigned u => .ok u.toUInt32.toInt32
  | .float q => .ok (castInt32 q)
  | .boolean b => .ok (if b then 1 else 0)
  | _ => .error (.json .typeError)

def getDouble : Json → Except Exception ℚ
  | .float q => .ok q
  | .integer i => .ok (castDouble i.toInt)
  | .unsigned u => .ok (castDouble u.toNat)
  | _ => .error (.json .typeError)

/-- `get<std::vector<T>>()`: the first element that fails decides. -/
def getArray (α : Type) [FromJson α] : Json → Except Exception (List α)
  | .array xs => xs.mapM (Json.get α)
  | _ => .error (.json .typeError)

end Json

instance : FromJson Json := ⟨.ok⟩
instance : FromJson String := ⟨Json.getString⟩
instance : FromJson Int64 := ⟨Json.getInt64⟩
instance : FromJson Int32 := ⟨Json.getInt32⟩
instance : FromJson Bool := ⟨Json.getBoolean⟩
instance : FromJson ℚ := ⟨Json.getDouble⟩
instance {α : Type} [FromJson α] : FromJson (List α) := ⟨Json.getArray α⟩

instance : ToJson Json := ⟨id⟩
instance : ToJson String := ⟨.string⟩
instance : ToJson Int64 := ⟨.integer⟩
instance : ToJson Int32 := ⟨fun i => .integer i.toInt64⟩
instance : ToJson Bool := ⟨.boolean⟩
instance : ToJson ℚ := ⟨.float⟩
instance {α : Type} [ToJson α] : ToJson (List α) := ⟨fun xs => .array (xs.map Json.of)⟩

@[simp] theorem get_json (j : Json) : j.get Json = .ok j := rfl

@[simp] theorem of_json (j : Json) : Json.of j = j := rfl

@[simp] theorem get_of_string (s : String) : (Json.of s).get String = .ok s := rfl

@[simp] theorem get_of_int32 (i : Int32) : (Json.of i).get Int32 = .ok i := by
  simp [Json.of, Json.get, ToJson.toJson, FromJson.fromJson, Json.getInt32]

/-- Pull a required field. -/
def require (α : Type) [FromJson α] (j : Json) (key : String) : Except Exception α :=
  match j.find key with
  | none => raise ErrorCode.parseError ("missing required field: " ++ key)
  | some v => v.get α

/-- `j.at(key).get<T>()`. -/
def getAt (α : Type) [FromJson α] (j : Json) (key : String) : Except Exception α :=
  match j.find key with
  | none => .error (.json (if j.isObject then .outOfRange else .typeError))
  | some v => v.get α

/-- What an iterator into a value points at; the end and null both count as absent. -/
def engaged (α : Type) [FromJson α] : Option Json → Except Exception (Option α)
  | none | some .null => .ok none
  | some v => do
    let a ← v.get α
    return some a

/-- Pull an optional field. -/
def takeOptional (α : Type) [FromJson α] (j : Json) (key : String) :
    Except Exception (Option α) := engaged α (j.find key)

/-- Read an optional raw value; null counts as absent. -/
def takeOptionalJson (j : Json) (key : String) : Option Json :=
  match j.find key with
  | none | some .null => none
  | some v => some v

/-- If `value` is engaged, write it under `key`. -/
def putOptional {α : Type} [ToJson α] (j : Json) (key : String) (value : Option α) : Json :=
  match value with
  | none => j
  | some v => j.set key (.of v)

@[simp] theorem isAssignable_putOptional {α : Type} [ToJson α] (j : Json) (key : String)
    (value : Option α) : (putOptional j key value).isAssignable = j.isAssignable := by
  cases value <;> simp [putOptional]

@[simp] theorem isNull_putOptional {α : Type} [ToJson α] (j : Json) (key : String)
    (value : Option α) : (putOptional j key value).isNull = (j.isNull && value.isNone) := by
  cases value <;> simp [putOptional]

theorem find_putOptional {α : Type} [ToJson α] {j : Json} (hj : j.isAssignable = true)
    (key key' : String) (value : Option α) :
    (putOptional j key value).find key' =
      if key' = key then (value.map Json.of).or (j.find key') else j.find key' := by
  cases value <;> simp [putOptional, Json.find_set hj]

/-- Whatever was read is not an engaged null. -/
theorem takeOptionalJson_ne_null (j : Json) (key : String) :
    takeOptionalJson j key ≠ some .null := by
  unfold takeOptionalJson
  split <;> simp_all

end Mcp
