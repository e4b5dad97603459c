import Mathlib.Data.Int.Notation
import Mathlib.Data.Nat.Notation
import Mcp.Library.Incremental
import Mcp.Library.Lines

/-! The server-sent events that the client reads and the host writes. -/
namespace Mcp.Http

structure SseEvent where
  data : Bytes := []
  id : Option Bytes := none
  retryMs : Option Int32 := none
  deriving DecidableEq

/-- `std::isspace` in the C locale. -/
def isSpace (c : Char) : Bool := c ∈ [' ', '\t', '\n', '\x0b', '\x0c', '\r']

/-- `std::stoi`; none when it throws. What follows the number is ignored. -/
def stoi (s : Bytes) : Option Int32 :=
  let s := s.dropWhile isSpace
  let (sign, s) : ℤ × Bytes := match s with
    | '-' :: s => (-1, s)
    | '+' :: s => (1, s)
    | s => (1, s)
  let digits := s.takeWhile Char.isDigit
  let v := sign * Nat.ofDigitChars 10 digits 0
  if !digits.isEmpty ∧ Int32.minValue.toInt ≤ v ∧ v ≤ Int32.maxValue.toInt then some (Int32.ofInt v)
  else none

/-- The field of a line that is not a comment, and its value. -/
def splitField (line : Bytes) : Bytes × Bytes :=
  match line.dropWhile (· ≠ ':') with
  | [] => (line, [])
  | _ :: value =>
    (line.takeWhile (· ≠ ':'), match value with
      | ' ' :: value => value
      | value => value)

/-- What one line of an event adds. -/
def parseLine (se : SseEvent) (line : Bytes) : SseEvent :=
  let line := line.stripCr
  if line = [] ∨ line.head? = some ':' then se
  else
    let (field, value) := splitField line
    if field = "data".toList then
      { se with data := (if se.data = [] then [] else se.data ++ ['\n']) ++ value }
    else if field = "id".toList then { se with id := some value }
    else if field = "retry".toList then
      match stoi value with
      | some v => if 0 ≤ v then { se with retryMs := some v } else se
      | none => se
    else se

def parseEvent (event : Bytes) : SseEvent := event.lines.foldl parseLine {}

/-- The callback is not called for an event without any of the fields. -/
def SseEvent.report (se : SseEvent) : List SseEvent :=
  if se.data ≠ [] ∨ se.id.isSome ∨ se.retryMs.isSome then [se] else []

/-- What follows a terminator at the front of the buffer. -/
def afterTerminator (buf : Bytes) : Option Bytes :=
  if buf.take 2 = ['\n', '\n'] then some (buf.drop 2)
  else if buf.take 4 = ['\r', '\n', '\r', '\n'] then some (buf.drop 4)
  else none

/-- The text before the first terminator, and what follows that. -/
def splitEvent : Bytes → Option (Bytes × Bytes)
  | [] => none
  | c :: cs =>
    match afterTerminator (c :: cs) with
    | some rest => some ([], rest)
    | none => (splitEvent cs).map fun (event, rest) => (c :: event, rest)

section Scan

variable {buf rest more event : Bytes}

theorem afterTerminator_eq_some : afterTerminator buf = some rest ↔
    buf = '\n' :: '\n' :: rest ∨ buf = '\r' :: '\n' :: '\r' :: '\n' :: rest := by
  constructor
  · intro h
    unfold afterTerminator at h
    split at h
    · next htake =>
      cases h
      left
      rw [← List.take_append_drop 2 buf, htake]
      rfl
    · split at h
      · next htake =>
        cases h
        right
        rw [← List.take_append_drop 4 buf, htake]
        rfl
      · cases h
  · rintro (rfl | rfl) <;> rfl

/-- A terminator that begins in the buffer and ends behind it leaves no room for another one in
between. -/
theorem afterTerminator_append_eq_none {r : Bytes × Bytes} (h : afterTerminator buf = none)
    (hs : splitEvent buf = some r) : afterTerminator (buf ++ more) = none := by
  cases ha : afterTerminator (buf ++ more) with
  | none => rfl
  | some rest =>
    rcases afterTerminator_eq_some.mp ha with he | he
    · rcases buf with _ | ⟨a, _ | ⟨b, tail⟩⟩ <;> simp_all [splitEvent, afterTerminator]
    · rcases buf with _ | ⟨a, _ | ⟨b, _ | ⟨c, _ | ⟨d, tail⟩⟩⟩⟩ <;>
        simp_all [splitEvent, afterTerminator]

theorem splitEvent_append (h : splitEvent buf = some (event, rest)) (more : Bytes) :
    splitEvent (buf ++ more) = some (event, rest ++ more) := by
  induction buf generalizing event with
  | nil => cases h
  | cons c cs ih =>
    cases ha : afterTerminator (c :: cs) with
    | some rest' =>
      have hmore : afterTerminator (c :: cs ++ more) = some (rest' ++ more) := by
        rcases afterTerminator_eq_some.mp ha with he | he <;>
          exact afterTerminator_eq_some.mpr (by simp [he])
      simp only [splitEvent, ha, Option.some.injEq, Prod.mk.injEq] at h
      obtain ⟨rfl, rfl⟩ := h
      simp only [List.cons_append] at hmore ⊢
      simp only [splitEvent, hmore]
    | none =>
      have hmore : afterTerminator (c :: cs ++ more) = none := afterTerminator_append_eq_none ha h
      simp only [splitEvent, ha, Option.map_eq_some_iff, Prod.mk.injEq, Prod.exists] at h
      obtain ⟨event', rest', h', rfl, rfl⟩ := h
      simp only [List.cons_append] at hmore ⊢
      simp only [splitEvent, hmore, ih h', Option.map_some]

theorem length_of_splitEvent (h : splitEvent buf = some (event, rest)) :
    rest.length < buf.length := by
  induction buf generalizing event with
  | nil => cases h
  | cons c cs ih =>
    cases ha : afterTerminator (c :: cs) with
    | some rest' =>
      simp only [splitEvent, ha, Option.some.injEq, Prod.mk.injEq] at h
      obtain ⟨-, rfl⟩ := h
      rcases afterTerminator_eq_some.mp ha with he | he <;> rw [he] <;>
        simp only [List.length_cons] <;> omega
    | none =>
      simp only [splitEvent, ha, Option.map_eq_some_iff, Prod.mk.injEq, Prod.exists] at h
      obtain ⟨event', rest', h', -, rfl⟩ := h
      have hlt := ih h'
      rw [List.length_cons]
      omega

end Scan

/-- One round of the loop of `drain_sse`. -/
def sseReader : Incremental.Reader Char SseEvent where
  next buf := (splitEvent buf).map fun (event, rest) => ((parseEvent event).report, rest)
  shorter := by
    intro buf out rest h
    obtain ⟨⟨event, rest'⟩, hs, he⟩ := Option.map_eq_some_iff.mp h
    cases he
    exact length_of_splitEvent hs
  stable := by
    intro buf out rest h more
    obtain ⟨⟨event, rest'⟩, hs, he⟩ := Option.map_eq_some_iff.mp h
    cases he
    simp [splitEvent_append hs more]

theorem next_of_splitEvent {buf event rest : Bytes} (h : splitEvent buf = some (event, rest)) :
    sseReader.next buf = some ((parseEvent event).report, rest) := by
  simp [sseReader, h]

/-- The events of a buffer, and the tail that stays in it. -/
def drainSse (buf : Bytes) : List SseEvent × Bytes := sseReader.drain buf

/-- The content receiver of the GET stream, chunk after chunk: all that has been handed to the
callback, and the buffer. -/
def receive (buf : Bytes) (chunks : List Bytes) : List SseEvent × Bytes :=
  sseReader.feed buf chunks

/-- However a stream is cut into chunks, its events and what is left of it are the same. -/
theorem receive_eq_drainSse (chunks : List Bytes) :
    receive [] chunks = drainSse chunks.flatten :=
  Incremental.Reader.feed_eq_drain rfl chunks

end Mcp.Http
