import Mcp.Http.Sse

/-! What the host writes on the GET stream is what the client reads there. -/
namespace Mcp.Http

/-- A frame that the host can send as one event. -/
structure WireFrame where
  text : Bytes
  ne_nil : text ≠ []
  no_cr : '\r' ∉ text
  no_lf : '\n' ∉ text

/-- What one call of the content provider finds in the queue; nothing for fifteen seconds. -/
abbrev Tick := Option WireFrame

/-- What the call writes. -/
def Tick.write : Tick → Bytes
  | some frame => "data: ".toList ++ frame.text ++ "\n\n".toList
  | none => ":\n\n".toList

/-- The bytes of the stream. -/
def stream (ticks : List Tick) : Bytes := ticks.flatMap Tick.write

def frames (ticks : List Tick) : List Bytes := ticks.filterMap fun tick => tick.map (·.text)

/-- What the client hands to `deliver_frame`. -/
def delivered (events : List SseEvent) : List Bytes := (events.map (·.data)).filter (· ≠ [])

variable {text rest : Bytes} {ticks : List Tick}

theorem splitEvent_of_not_mem (hcr : '\r' ∉ text) (hlf : '\n' ∉ text) (rest : Bytes) :
    splitEvent (text ++ '\n' :: '\n' :: rest) = some (text, rest) := by
  induction text with
  | nil => rfl
  | cons c cs ih =>
    have hr : c ≠ '\r' := fun h => hcr (by simp [h])
    have hn : c ≠ '\n' := fun h => hlf (by simp [h])
    have hnone : afterTerminator (c :: cs ++ '\n' :: '\n' :: rest) = none := by
      simp [afterTerminator, hr, hn]
    have hcs := ih (fun h => hcr (by simp [h])) (fun h => hlf (by simp [h]))
    simp only [List.cons_append] at hnone ⊢
    simp only [splitEvent, hnone, hcs, Option.map_some]

theorem parseEvent_of_not_mem (hlf : '\n' ∉ text) : parseEvent text = parseLine {} text := by
  rw [parseEvent, Bytes.lines_of_not_mem hlf]
  rfl

theorem parseEvent_data (frame : WireFrame) :
    parseEvent ("data: ".toList ++ frame.text) = { data := frame.text } := by
  have hcr : '\r' ∉ "data: ".toList ++ frame.text := by simp [frame.no_cr]
  have hlf : '\n' ∉ "data: ".toList ++ frame.text := by simp [frame.no_lf]
  have hfield : splitField ("data: ".toList ++ frame.text) = ("data".toList, frame.text) := rfl
  have hhead : ¬("data: ".toList ++ frame.text = [] ∨
      ("data: ".toList ++ frame.text).head? = some ':') := by simp
  rw [parseEvent_of_not_mem hlf]
  simp only [parseLine, Bytes.stripCr_of_not_mem hcr, if_neg hhead, hfield, if_true,
    List.nil_append]

/-- What the client reads of one write. -/
def Tick.events : Tick → List SseEvent
  | some frame => [{ data := frame.text }]
  | none => []

theorem next_write (tick : Tick) (rest : Bytes) :
    sseReader.next (tick.write ++ rest) = some (tick.events, rest) := by
  cases tick with
  | none => rfl
  | some frame =>
    have hcr : '\r' ∉ "data: ".toList ++ frame.text := by simp [frame.no_cr]
    have hlf : '\n' ∉ "data: ".toList ++ frame.text := by simp [frame.no_lf]
    have hsplit := splitEvent_of_not_mem hcr hlf rest
    have hwrite : Tick.write (some frame) ++ rest =
        ("data: ".toList ++ frame.text) ++ '\n' :: '\n' :: rest :=
      List.append_assoc ("data: ".toList ++ frame.text) "\n\n".toList rest
    rw [hwrite, next_of_splitEvent hsplit, parseEvent_data]
    simp [SseEvent.report, Tick.events, frame.ne_nil]

theorem delivered_events (ticks : List Tick) :
    delivered (ticks.flatMap Tick.events) = frames ticks := by
  induction ticks with
  | nil => rfl
  | cons tick ticks ih =>
    cases tick with
    | none => exact ih
    | some frame =>
      have hkeep : delivered ({ data := frame.text } :: ticks.flatMap Tick.events) =
          frame.text :: delivered (ticks.flatMap Tick.events) := by
        simp [delivered, frame.ne_nil]
      calc delivered ((some frame :: ticks).flatMap Tick.events)
          = delivered ({ data := frame.text } :: ticks.flatMap Tick.events) := rfl
        _ = frame.text :: frames ticks := by rw [hkeep, ih]
        _ = frames (some frame :: ticks) := rfl

/-- Whatever the frames and wherever keepalives and the borders of chunks fall: the client delivers
the frames, once each and in order, and its buffer ends up empty. -/
theorem stream_read_back {ticks : List Tick} {chunks : List Bytes}
    (hcut : chunks.flatten = stream ticks) :
    delivered (receive [] chunks).1 = frames ticks ∧ (receive [] chunks).2 = [] := by
  have hread : receive [] chunks = (ticks.flatMap Tick.events, []) := by
    calc receive [] chunks
        = sseReader.drain ([] ++ chunks.flatten) := Incremental.Reader.feed_eq_drain rfl chunks
      _ = sseReader.drain (ticks.flatMap Tick.write) := by rw [hcut, List.nil_append, stream]
      _ = (ticks.flatMap Tick.events, []) :=
        Incremental.Reader.drain_flatMap next_write ticks
  rw [hread]
  exact ⟨delivered_events ticks, rfl⟩

/-- A frame that itself looks like a field, behind a keepalive and cut inside its prefix. -/
def pretender : WireFrame where
  text := " data: :".toList
  ne_nil := by decide
  no_cr := by decide
  no_lf := by decide

theorem pretender_read_back :
    delivered (receive [] [":\n\nda".toList, "ta:  data: :\n".toList, "\n".toList]).1 =
        [" data: :".toList] ∧
      (receive [] [":\n\nda".toList, "ta:  data: :\n".toList, "\n".toList]).2 = [] :=
  @stream_read_back [none, some pretender] _ rfl

end Mcp.Http
