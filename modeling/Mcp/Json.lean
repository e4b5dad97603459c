import Mathlib.Data.Rat.Floor

/-! JSON values as `nlohmann::json` holds them. A `std::string` is a Lean `String` whose
characters stand for its bytes. -/
namespace Mcp

/-- A number keeps the kind it is stored as; a double is the rational it denotes. -/
inductive Json where
  | null
  | boolean (b : Bool)
  | integer (i : Int64)
  | unsigned (u : UInt64)
  | float (q : ℚ)
  | string (s : String)
  | array (xs : List Json)
  | object (kvs : List (String × Json))
  deriving Inhabited

namespace Json

/-- The empty object. -/
def emptyObject : Json := .object []

def isNull : Json → Bool
  | .null => true
  | _ => false

def isObject : Json → Bool
  | .object _ => true
  | _ => false

def isNumberFloat : Json → Bool
  | .float _ => true
  | _ => false

/-- `find(key)`: only an object has members. -/
def find (j : Json) (key : String) : Option Json :=
  match j with
  | .object kvs => kvs.lookup key
  | _ => none

def contains (j : Json) (key : String) : Bool := (j.find key).isSome

/-- Members are kept sorted by key, as `std::map` keeps them. -/
def assign (key : String) (v : Json) : List (String × Json) → List (String × Json)
  | [] => [(key, v)]
  | (k, w) :: kvs =>
    if key = k then (key, v) :: kvs
    else if key < k then (key, v) :: (k, w) :: kvs
    else (k, w) :: assign key v kvs

/-- `j[key] = v`: null becomes an object first; other values are left alone (the library
throws there, and no modelled function assigns to one). -/
def set (j : Json) (key : String) (v : Json) : Json :=
  match j with
  | .object kvs => .object (assign key v kvs)
  | .null => .object [(key, v)]
  | j => j

theorem lookup_cons (key k : String) (w : Json) (kvs : List (String × Json)) :
    ((k, w) :: kvs).lookup key = if key = k then some w else kvs.lookup key := by
  by_cases h : key = k
  · simp [h]
  · simp [List.lookup_cons, beq_false_of_ne h, h]

theorem lookup_assign (key key' : String) (v : Json) (kvs : List (String × Json)) :
    (assign key v kvs).lookup key' = if key' = key then some v else kvs.lookup key' := by
  induction kvs with
  | nil => simp only [assign, lookup_cons, List.lookup_nil]
  | cons kv kvs ih =>
    obtain ⟨k, w⟩ := kv
    by_cases hk : key = k
    · subst k
      by_cases h : key' = key <;> simp [assign, lookup_cons, h]
    · by_cases hlt : key < k
      · simp only [assign, hk, hlt, if_true, if_false, lookup_cons]
      · simp only [assign, hk, hlt, if_false, lookup_cons, ih]
        by_cases h : key' = k
        · simp [h, Ne.symm hk]
        · simp [h]

/-- Values that `j[key] = v` can assign into. -/
def isAssignable (j : Json) : Bool := j.isObject || j.isNull

theorem find_set {j : Json} (hj : j.isAssignable = true) (key key' : String) (v : Json) :
    (j.set key v).find key' = if key' = key then some v else j.find key' := by
  cases j <;> simp_all [isAssignable, isObject, isNull, set, find, lookup_assign, lookup_cons]

@[simp] theorem isAssignable_set (j : Json) (key : String) (v : Json) :
    (j.set key v).isAssignable = j.isAssignable := by
  cases j <;> rfl

@[simp] theorem isObject_set (j : Json) (key : String) (v : Json) :
    (j.set key v).isObject = j.isAssignable := by
  cases j <;> rfl

@[simp] theorem isNull_set (j : Json) (key : String) (v : Json) :
    (j.set key v).isNull = false := by
  cases j <;> rfl

@[simp] theorem isNull_emptyObject : emptyObject.isNull = false := rfl

@[simp] theorem isAssignable_emptyObject : emptyObject.isAssignable = true := by
  simp [emptyObject, isAssignable, isObject]

@[simp] theorem find_emptyObject (key : String) : emptyObject.find key = none := by
  simp [emptyObject, find]

end Json

/-- The text codec of the JSON library: `dump` fails on a string that is not UTF-8. -/
structure Codec where
  parse : String → Option Json
  dump : Json → Option String

end Mcp
