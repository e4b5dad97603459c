import Mcp.Error
import Mcp.Library.Paged

/-! Offset cursors and pages. -/
namespace Mcp.Server

/-- A `std::vector`: its size fits a `std::ptrdiff_t`. -/
structure StdVector (α : Type) where
  items : List α
  length_lt : items.length < 2 ^ 63

/-- The size of the vector as a `std::size_t`. -/
def StdVector.size {α : Type} (v : StdVector α) : UInt64 := v.items.length.toUInt64

def invalidCursor {α : Type} (s : String) : Except Exception α :=
  raise ErrorCode.invalidParams ("invalid pagination cursor: " ++ s)

/-- The loop of `decodeCursor` over what is left of the cursor. -/
def decodeDigits (s : String) (value : UInt64) : List Char → Except Exception UInt64
  | [] => .ok value
  | c :: cs =>
    if c < '0' ∨ '9' < c then invalidCursor s
    else
      let digit := (c.toNat - '0'.toNat).toUInt64
      -- the largest value, less the digit, so that the next line cannot wrap
      if (UInt64.ofNat (2 ^ 64 - 1) - digit) / 10 < value then invalidCursor s
      else decodeDigits s (value * 10 + digit) cs

/-- An empty or missing cursor means start at 0. -/
def decodeCursor : Option String → Except Exception UInt64
  | none => .ok 0
  | some s =>
    if s.isEmpty then .ok 0
    -- longer than the longest 64-bit number
    else if 20 < s.length then invalidCursor s
    else decodeDigits s 0 s.toList

/-- The vector over an iterator range; a reversed range asks for more than a vector can hold. -/
def slice {α : Type} (v : StdVector α) (first last : UInt64) : Except Exception (List α) :=
  if first ≤ last then .ok ((v.items.drop first.toNat).take (last.toNat - first.toNat))
  else .error (.std "cannot create std::vector larger than max_size()")

/-- A page from `offset` on, and the cursor of the next one. -/
def paginate {α : Type} (v : StdVector α) (offset pageSize : UInt64) :
    Except Exception (List α × Option String) :=
  if v.size ≤ offset then .ok ([], none)
  else if pageSize = 0 ∨ v.size ≤ offset + pageSize then do
    let page ← slice v offset v.size
    return (page, none)
  else do
    let next := offset + pageSize
    let page ← slice v offset next
    return (page, some (toString next.toNat))

/-- What each list handler does with the items it has collected. -/
def listPage {α : Type} (v : StdVector α) (pageSize : UInt64) (cursor : Option String) :
    Except Exception (List α × Option String) := do
  let offset ← decodeCursor cursor
  paginate v offset pageSize

end Mcp.Server
