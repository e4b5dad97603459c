import Mathlib.Data.List.Chain
import Mcp.Http.Sse

/-! What `drain_sse` reads of a stream, against the grammar of server-sent events. -/
namespace Mcp.Http.Grammar

open Bytes

/-- A line of a stream. A carriage return inside the text would itself end a line. -/
structure Line where
  text : Bytes
  crlf : Bool
  noCr : '\r' ∉ text
  noLf : '\n' ∉ text

/-- What stands before the line feed. -/
def Line.body (l : Line) : Bytes := if l.crlf then l.text ++ ['\r'] else l.text

def Line.bytes (l : Line) : Bytes := l.body ++ ['\n']

def bytes (ls : List Line) : Bytes := ls.flatMap Line.bytes

/-- The values of the lines that have this field. -/
def values (field : String) (ls : List Line) : List Bytes :=
  ls.filterMap fun l =>
    if (splitField l.text).1 = field.toList then some (splitField l.text).2 else none

/-- A delay in ASCII digits and nothing else, if an `int` holds it. -/
def delay (value : Bytes) : Option Int32 :=
  let v := Nat.ofDigitChars 10 value 0
  if value ≠ [] ∧ value.all Char.isDigit ∧ (v : ℤ) ≤ Int32.maxValue.toInt then some (Int32.ofNat v)
  else none

/-- The event that the grammar reads from the lines before a blank one. -/
def eventOf (block : List Line) : SseEvent where
  data := ['\n'].intercalate (values "data" block)
  id := (values "id" block).getLast?
  retryMs := ((values "retry" block).filterMap delay).getLast?

/-- What the grammar has read of a stream: its events, and the lines since the last blank one. -/
structure Reading where
  events : List SseEvent := []
  block : List Line := []

def Reading.line (r : Reading) (l : Line) : Reading :=
  if l.text = [] then { events := r.events ++ (eventOf r.block).report }
  else { r with block := r.block ++ [l] }

def reference (ls : List Line) : Reading := ls.foldl Reading.line {}

/-- The blank line ends an event for `drain_sse`: it is a line feed behind some line, or both it
and the line before it end in CRLF. -/
def terminates (before : List Line) (l : Line) : Bool :=
  before.getLast?.any fun p => !l.crlf || p.crlf

/-- What `drain_sse` has read of a stream: its events, and the lines in the buffer, up to the last
blank one of them and since. -/
structure Draining where
  events : List SseEvent := []
  held : List Line := []
  block : List Line := []

def Draining.buffer (d : Draining) : List Line := d.held ++ d.block

/-- The event in the buffer, once it is complete. -/
def parsed (ls : List Line) : SseEvent := (ls.map Line.text).foldl parseLine {}

def Draining.line (d : Draining) (l : Line) : Draining :=
  if l.text = [] then
    if terminates d.buffer l then { events := d.events ++ (parsed d.buffer).report }
    else { d with held := d.buffer ++ [l], block := [] }
  else { d with block := d.block ++ [l] }

def draining (ls : List Line) : Draining := ls.foldl Draining.line {}

/-- How `drain_sse` appends a value to the data of an event. -/
def appended (data value : Bytes) : Bytes := (if data = [] then [] else data ++ ['\n']) ++ value

/-- The delay that `drain_sse` takes from a value. -/
def accepted (value : Bytes) : Option Int32 :=
  match stoi value with
  | some v => if 0 ≤ v then some v else none
  | none => none

/-- At a blank line: an event that ends there for `drain_sse` has no second data line behind an
empty first one, and the delay accepted last since the event before it is its own; an event that
does not end there for `drain_sse` has nothing to report. -/
def Faithful (d : Draining) (l : Line) : Prop :=
  if terminates d.buffer l then
    ((values "data" d.block).length ≤ 1 ∨ (values "data" d.block).head? ≠ some []) ∧
      ((values "retry" d.buffer).filterMap accepted).getLast? = (eventOf d.block).retryMs
  else eventOf d.block = {}

/-- No blank line of the buffer ends an event. -/
def Quiet (ls : List Line) : Prop := ls.IsChain fun p l => l.text = [] → terminates [p] l = false

variable {p l : Line} {ls rest : List Line}

section Bytes

@[simp] theorem bytes_nil : bytes [] = [] := rfl

theorem bytes_cons (l : Line) (ls : List Line) : bytes (l :: ls) = l.bytes ++ bytes ls := rfl

theorem bytes_append (ls rest : List Line) : bytes (ls ++ rest) = bytes ls ++ bytes rest :=
  List.flatMap_append

theorem lf_not_mem_body (l : Line) : '\n' ∉ l.body := by
  cases h : l.crlf <;> simp [Line.body, h, l.noLf]

theorem stripCr_body (l : Line) : l.body.stripCr = l.text := by
  cases h : l.crlf with
  | false => simp [Line.body, h, stripCr_of_not_mem l.noCr]
  | true => simp [Line.body, h, stripCr]

theorem stripCr_text (l : Line) : l.text.stripCr = l.text := stripCr_of_not_mem l.noCr

theorem parseLine_body (se : SseEvent) (l : Line) : parseLine se l.body = parseLine se l.text := by
  rw [parseLine, stripCr_body]
  rw [parseLine, stripCr_text]

end Bytes

section Scan

/-- A character that is no part of a terminator. -/
theorem splitEvent_append_of_not_mem {t s : Bytes} (hcr : '\r' ∉ t) (hlf : '\n' ∉ t) :
    splitEvent (t ++ s) = (splitEvent s).map fun r => (t ++ r.1, r.2) := by
  induction t with
  | nil => simp
  | cons c cs ih =>
    have hr : c ≠ '\r' := fun h => hcr (by simp [h])
    have hn : c ≠ '\n' := fun h => hlf (by simp [h])
    have hnone : afterTerminator (c :: (cs ++ s)) = none := by simp [afterTerminator, hr, hn]
    have hcs := ih (fun h => hcr (by simp [h])) (fun h => hlf (by simp [h]))
    rw [List.cons_append, splitEvent, hnone, hcs, Option.map_map]
    rfl

/-- The line feed of a line that is not followed by another one. -/
theorem splitEvent_lf {buf : Bytes} (h : buf.head? ≠ some '\n') :
    splitEvent ('\n' :: buf) = (splitEvent buf).map fun r => ('\n' :: r.1, r.2) := by
  have hnone : afterTerminator ('\n' :: buf) = none := by
    cases buf with
    | nil => rfl
    | cons c cs =>
      have hc : c ≠ '\n' := fun h' => h (by simp [h'])
      simp [afterTerminator, hc]
  rw [splitEvent, hnone]

theorem splitEvent_cr {buf : Bytes} (h : buf.take 2 ≠ ['\r', '\n']) :
    splitEvent ('\r' :: '\n' :: buf) =
      (splitEvent ('\n' :: buf)).map fun r => ('\r' :: r.1, r.2) := by
  have hnone : afterTerminator ('\r' :: '\n' :: buf) = none := by
    simp [afterTerminator, h]
  rw [splitEvent, hnone]

theorem head_bytes (ls : List Line) : (bytes ls).head? = some '\n' ↔
    ∃ l ∈ ls.head?, l.text = [] ∧ l.crlf = false := by
  cases ls with
  | nil => simp
  | cons l ls =>
    have hlf := l.noLf
    cases ht : l.text with
    | nil => cases hc : l.crlf <;> simp [bytes_cons, Line.bytes, Line.body, ht, hc]
    | cons c cs =>
      rw [ht] at hlf
      have hc : c ≠ '\n' := fun h => hlf (by simp [h])
      cases hcrlf : l.crlf <;> simp [bytes_cons, Line.bytes, Line.body, ht, hcrlf, hc]

theorem take_bytes (ls : List Line) : (bytes ls).take 2 = ['\r', '\n'] ↔
    ∃ l ∈ ls.head?, l.text = [] ∧ l.crlf = true := by
  cases ls with
  | nil => simp
  | cons l ls =>
    have hcr := l.noCr
    cases ht : l.text with
    | nil => cases hc : l.crlf <;> simp [bytes_cons, Line.bytes, Line.body, ht, hc]
    | cons c cs =>
      rw [ht] at hcr
      have hc : c ≠ '\r' := fun h => hcr (by simp [h])
      cases hcrlf : l.crlf <;> simp [bytes_cons, Line.bytes, Line.body, ht, hcrlf, hc]

/-- A line that the next one does not make the last one of an event. -/
theorem splitEvent_line (h : ∀ l ∈ rest.head?, l.text = [] → terminates [p] l = false) :
    splitEvent (bytes (p :: rest)) =
      (splitEvent (bytes rest)).map fun r => (p.bytes ++ r.1, r.2) := by
  have hlf : (bytes rest).head? ≠ some '\n' := by
    intro hhead
    obtain ⟨l, hl, hblank, hcrlf⟩ := (head_bytes rest).mp hhead
    have hquiet := h l hl hblank
    simp [terminates, hcrlf] at hquiet
  cases hp : p.crlf with
  | false =>
    have hbytes : bytes (p :: rest) = p.text ++ '\n' :: bytes rest := by
      simp [bytes_cons, Line.bytes, Line.body, hp]
    rw [hbytes, splitEvent_append_of_not_mem p.noCr p.noLf, splitEvent_lf hlf, Option.map_map]
    simp [Line.bytes, Line.body, hp, Function.comp_def]
  | true =>
    have hcrlf : (bytes rest).take 2 ≠ ['\r', '\n'] := by
      intro htake
      obtain ⟨l, hl, hblank, -⟩ := (take_bytes rest).mp htake
      have hquiet := h l hl hblank
      simp [terminates, hp] at hquiet
    have hbytes : bytes (p :: rest) = p.text ++ '\r' :: '\n' :: bytes rest := by
      simp [bytes_cons, Line.bytes, Line.body, hp]
    rw [hbytes, splitEvent_append_of_not_mem p.noCr p.noLf, splitEvent_cr hcrlf,
      splitEvent_lf hlf, Option.map_map, Option.map_map]
    simp [Line.bytes, Line.body, hp, Function.comp_def]

theorem splitEvent_last (hblank : l.text = []) (h : terminates [p] l = true) :
    splitEvent (bytes [p, l]) = some (if l.crlf then p.text else p.body, []) := by
  cases hl : l.crlf with
  | false =>
    have hbytes : bytes [p, l] = p.body ++ ['\n', '\n'] := by
      simp [bytes_cons, Line.bytes, Line.body, hl, hblank]
    rw [hbytes]
    cases hp : p.crlf <;>
      simp [Line.body, hp, splitEvent_append_of_not_mem p.noCr p.noLf, splitEvent,
        afterTerminator]
  | true =>
    have hp : p.crlf = true := by simpa [terminates, hl] using h
    have hbytes : bytes [p, l] = p.text ++ ['\r', '\n', '\r', '\n'] := by
      simp [bytes_cons, Line.bytes, Line.body, hl, hp, hblank]
    rw [hbytes, splitEvent_append_of_not_mem p.noCr p.noLf]
    simp [splitEvent, afterTerminator]

theorem splitEvent_quiet (h : Quiet ls) : splitEvent (bytes ls) = none := by
  induction ls with
  | nil => rfl
  | cons p rest ih =>
    obtain ⟨hp, hrest⟩ := List.isChain_cons.mp h
    rw [splitEvent_line hp, ih hrest, Option.map_none]

/-- The blank line behind a buffer without a terminator. -/
theorem splitEvent_terminated (hquiet : Quiet (ls ++ [p])) (hblank : l.text = [])
    (h : terminates [p] l = true) : splitEvent (bytes (ls ++ [p, l])) =
      some (bytes ls ++ (if l.crlf then p.text else p.body), []) := by
  induction ls with
  | nil => simpa using splitEvent_last hblank h
  | cons q ls ih =>
    obtain ⟨hq, hrest⟩ := List.isChain_cons.mp hquiet
    have hhead : (ls ++ [p, l]).head? = (ls ++ [p]).head? := by cases ls <;> rfl
    rw [List.cons_append, splitEvent_line (by rwa [hhead]), ih hrest, bytes_cons]
    simp

end Scan

section Events

theorem lines_bytes {e : Bytes} (he : '\n' ∉ e) :
    lines (bytes ls ++ e) = ls.map Line.body ++ [e] := by
  induction ls with
  | nil => simp [lines_of_not_mem he]
  | cons l ls ih =>
    rw [bytes_cons, Line.bytes, List.append_assoc, List.append_assoc, List.singleton_append,
      lines_append_lf (lf_not_mem_body l), ih]
    rfl

theorem foldl_body (se : SseEvent) (ls : List Line) :
    (ls.map Line.body).foldl parseLine se = (ls.map Line.text).foldl parseLine se := by
  induction ls generalizing se with
  | nil => rfl
  | cons l ls ih => rw [List.map_cons, List.foldl_cons, parseLine_body, ih]; rfl

theorem parseEvent_bytes (ls : List Line) (p l : Line) :
    parseEvent (bytes ls ++ (if l.crlf then p.text else p.body)) = parsed (ls ++ [p]) := by
  have hlast : '\n' ∉ (if l.crlf then p.text else p.body) := by
    split
    · exact p.noLf
    · exact lf_not_mem_body p
  rw [parseEvent, lines_bytes hlast, List.foldl_append, foldl_body, parsed, List.map_append,
    List.foldl_append]
  cases l.crlf
  · exact parseLine_body _ p
  · rfl

theorem draining_append (ls : List Line) (l : Line) :
    draining (ls ++ [l]) = (draining ls).line l := by
  rw [draining, List.foldl_append]
  rfl

theorem reference_append (ls : List Line) (l : Line) :
    reference (ls ++ [l]) = (reference ls).line l := by
  rw [reference, List.foldl_append]
  rfl

theorem terminates_append (ls : List Line) (p l : Line) :
    terminates (ls ++ [p]) l = terminates [p] l := by
  simp [terminates]

theorem quiet_append (h : Quiet ls) (hl : l.text = [] → terminates ls l = false) :
    Quiet (ls ++ [l]) := by
  apply List.isChain_append.mpr
  refine ⟨h, List.isChain_singleton l, ?_⟩
  intro p hp l' hl' hblank
  cases Option.mem_def.mp hl'
  obtain ⟨ls', rfl⟩ := List.getLast?_eq_some_iff.mp hp
  rw [← hl hblank, terminates_append]

/-- What one more line gives, behind a buffer without a terminator. -/
theorem drainSse_line {d : Draining} (h : Quiet d.buffer) (l : Line) :
    Quiet (d.line l).buffer ∧ ∃ new, (d.line l).events = d.events ++ new ∧
      drainSse (bytes (d.buffer ++ [l])) = (new, bytes (d.line l).buffer) := by
  have hkept : Quiet (d.buffer ++ [l]) →
      drainSse (bytes (d.buffer ++ [l])) = ([], bytes (d.buffer ++ [l])) := by
    intro hquiet
    apply Incremental.Reader.drain_of_none
    simp [sseReader, splitEvent_quiet hquiet]
  by_cases hblank : l.text = []
  · cases ht : terminates d.buffer l with
    | false =>
      have hquiet : Quiet (d.buffer ++ [l]) := quiet_append h fun _ => ht
      have hline : d.line l = { d with held := d.buffer ++ [l], block := [] } := by
        simp [Draining.line, hblank, ht]
      rw [hline]
      simp only [Draining.buffer, List.append_nil] at hquiet hkept ⊢
      exact ⟨hquiet, [], (List.append_nil _).symm, hkept hquiet⟩
    | true =>
      have hline : d.line l = { events := d.events ++ (parsed d.buffer).report } := by
        simp [Draining.line, hblank, ht]
      obtain ⟨p, hp⟩ : ∃ p, d.buffer.getLast? = some p := by
        cases hlast : d.buffer.getLast? with
        | none => simp [terminates, hlast] at ht
        | some p => exact ⟨p, rfl⟩
      obtain ⟨ls, hbuffer⟩ := List.getLast?_eq_some_iff.mp hp
      rw [hbuffer, terminates_append] at ht
      have hsplit := splitEvent_terminated (hbuffer ▸ h) hblank ht
      have hdrain : drainSse (bytes (d.buffer ++ [l])) = ((parsed d.buffer).report, []) := by
        have hnext := next_of_splitEvent hsplit
        rw [parseEvent_bytes, ← hbuffer] at hnext
        rw [hbuffer, List.append_assoc, List.singleton_append, drainSse,
          Incremental.Reader.drain_of_some hnext, Incremental.Reader.drain_nil, List.append_nil,
          hbuffer]
      rw [hline]
      exact ⟨List.IsChain.nil, _, rfl, hdrain⟩
  · have hquiet : Quiet (d.buffer ++ [l]) := quiet_append h fun hl => absurd hl hblank
    have hline : d.line l = { d with block := d.block ++ [l] } := by
      simp [Draining.line, hblank]
    rw [hline]
    simp only [Draining.buffer, List.append_assoc] at hquiet hkept ⊢
    exact ⟨hquiet, [], (List.append_nil _).symm, hkept hquiet⟩

/-- `drain_sse`, line by line. -/
theorem drainSse_bytes (ls : List Line) : Quiet (draining ls).buffer ∧
    drainSse (bytes ls) = ((draining ls).events, bytes (draining ls).buffer) := by
  induction ls using List.reverseRecOn with
  | nil => exact ⟨List.IsChain.nil, Incremental.Reader.drain_nil⟩
  | append_singleton ls l ih =>
    obtain ⟨hquiet, hdrain⟩ := ih
    obtain ⟨hquiet', new, hevents, hnew⟩ := drainSse_line hquiet l
    rw [draining_append]
    refine ⟨hquiet', ?_⟩
    have happend := Incremental.Reader.drain_append (R := sseReader) (bytes ls) (bytes [l])
    rw [bytes_append] at hnew
    simp only [drainSse] at hdrain hnew ⊢
    rw [bytes_append, happend, hdrain, hnew, hevents]

end Events

section Fields

variable {v : Bytes} {vs : List Bytes} {d : Draining}

theorem values_append (field : String) (ls rest : List Line) :
    values field (ls ++ rest) = values field ls ++ values field rest := List.filterMap_append

theorem values_cons (field : String) (l : Line) (ls : List Line) :
    values field (l :: ls) = values field [l] ++ values field ls := values_append field [l] ls

theorem values_singleton (field : String) (l : Line) : values field [l] =
    if (splitField l.text).1 = field.toList then [(splitField l.text).2] else [] := by
  by_cases h : (splitField l.text).1 = field.toList
  · simp only [values, List.filterMap_cons, if_pos h, List.filterMap_nil]
  · simp only [values, List.filterMap_cons, if_neg h, List.filterMap_nil]

/-- What one line adds, in terms of its value. -/
theorem parseLine_text (se : SseEvent) (l : Line) : parseLine se l.text =
    { data := (values "data" [l]).foldl appended se.data
      id := (values "id" [l]).getLast?.or se.id
      retryMs := ((values "retry" [l]).filterMap accepted).getLast?.or se.retryMs } := by
  have hskip : l.text = [] ∨ l.text.head? = some ':' → (splitField l.text).1 = [] := by
    rintro (h | h)
    · rw [h]
      rfl
    · obtain ⟨cs, hcs⟩ := List.head?_eq_some_iff.mp h
      rw [hcs]
      rfl
  simp only [parseLine, stripCr_text, values_singleton]
  generalize splitField l.text = f at *
  by_cases hblank : l.text = [] ∨ l.text.head? = some ':'
  · rw [if_pos hblank, hskip hblank]
    rfl
  · rw [if_neg hblank]
    obtain ⟨field, value⟩ := f
    dsimp only
    by_cases hdata : field = "data".toList
    · subst hdata
      rfl
    · by_cases hid : field = "id".toList
      · subst hid
        rfl
      · by_cases hretry : field = "retry".toList
        · subst hretry
          simp only [if_neg hdata, if_neg hid, if_true, List.filterMap_cons, accepted]
          cases stoi value with
          | none => rfl
          | some v => by_cases hv : 0 ≤ v <;> simp [hv]
        · simp only [if_neg hdata, if_neg hid, if_neg hretry]
          rfl

theorem foldl_parseLine (se : SseEvent) (ls : List Line) : (ls.map Line.text).foldl parseLine se =
    { data := (values "data" ls).foldl appended se.data
      id := (values "id" ls).getLast?.or se.id
      retryMs := ((values "retry" ls).filterMap accepted).getLast?.or se.retryMs } := by
  induction ls generalizing se with
  | nil => rfl
  | cons l ls ih =>
    rw [List.map_cons, List.foldl_cons, ih, parseLine_text, values_cons "data" l ls,
      values_cons "id" l ls, values_cons "retry" l ls]
    simp only [List.foldl_append, List.filterMap_append, List.getLast?_append, Option.or_assoc]

theorem parsed_eq (ls : List Line) : parsed ls =
    { data := (values "data" ls).foldl appended []
      id := (values "id" ls).getLast?
      retryMs := ((values "retry" ls).filterMap accepted).getLast? } := by
  rw [parsed, foldl_parseLine]
  simp only [Option.or_none]

theorem foldl_appended (hv : v ≠ []) (vs : List Bytes) :
    vs.foldl appended v = ['\n'].intercalate (v :: vs) := by
  rw [intercalate_cons]
  induction vs generalizing v with
  | nil => simp
  | cons w vs ih =>
    have hne : appended v w ≠ [] := by simp [appended, hv]
    rw [List.foldl_cons, ih hne]
    simp [appended, hv]

theorem appended_nil (v : Bytes) : appended [] v = v := rfl

theorem length_foldl_appended_le (vs : List Bytes) :
    (vs.foldl appended []).length ≤ (['\n'].intercalate vs).length := by
  induction vs with
  | nil => exact le_rfl
  | cons v vs ih =>
    by_cases hv : v = []
    · cases vs with
      | nil => simp [hv, appended_nil]
      | cons w vs =>
        rw [hv, List.foldl_cons, appended_nil, List.intercalate_cons_cons]
        apply ih.trans
        simp
    · rw [List.foldl_cons, appended_nil, foldl_appended hv]

/-- An empty first value is lost, unless it is the only one. -/
theorem foldl_appended_eq_iff (vs : List Bytes) :
    vs.foldl appended [] = ['\n'].intercalate vs ↔ vs.length ≤ 1 ∨ vs.head? ≠ some [] := by
  rcases vs with _ | ⟨v, _ | ⟨w, vs⟩⟩
  · simp
  · simp [appended_nil]
  · by_cases hv : v = []
    · have hlt : ((w :: vs).foldl appended []).length <
          (['\n'].intercalate (v :: w :: vs)).length := by
        apply (length_foldl_appended_le (w :: vs)).trans_lt
        simp [hv, List.intercalate_cons_cons]
      constructor
      · intro heq
        rw [List.foldl_cons, hv, appended_nil] at heq
        rw [heq, hv] at hlt
        exact absurd hlt (Nat.lt_irrefl _)
      · simp [hv]
    · rw [List.foldl_cons, appended_nil, foldl_appended hv]
      simp [hv]

end Fields

section Reading

variable {d : Draining} {se se' : SseEvent}

/-- The lines held in front of the block add neither data nor an id to it. -/
def Silent (held : List Line) : Prop :=
  (values "data" held).foldl appended [] = [] ∧ values "id" held = []

theorem report_eq_nil : se.report = [] ↔ se = {} := by
  obtain ⟨data, id, retryMs⟩ := se
  cases id <;> cases retryMs <;> simp [SseEvent.report]

theorem report_inj : se.report = se'.report ↔ se = se' := by
  constructor
  · intro h
    by_cases hnil : se.report = []
    · have hnil' : se'.report = [] := h ▸ hnil
      rw [report_eq_nil.mp hnil, report_eq_nil.mp hnil']
    · have hnil' : se'.report ≠ [] := h ▸ hnil
      unfold SseEvent.report at h hnil hnil'
      split at hnil
      · split at hnil'
        · next hse hse' =>
          rw [if_pos hse, if_pos hse'] at h
          exact List.singleton_inj.mp h
        · exact absurd rfl hnil'
      · exact absurd rfl hnil
  · intro h
    rw [h]

theorem parsed_eq_iff (h : Silent d.held) : parsed d.buffer = eventOf d.block ↔
    ((values "data" d.block).length ≤ 1 ∨ (values "data" d.block).head? ≠ some []) ∧
      ((values "retry" d.buffer).filterMap accepted).getLast? = (eventOf d.block).retryMs := by
  obtain ⟨hdata, hid⟩ := h
  have hdata' : (values "data" d.buffer).foldl appended [] =
      (values "data" d.block).foldl appended [] := by
    rw [Draining.buffer, values_append, List.foldl_append, hdata]
  have hid' : values "id" d.buffer = values "id" d.block := by
    rw [Draining.buffer, values_append, hid, List.nil_append]
  rw [parsed_eq, ← foldl_appended_eq_iff, hdata', hid']
  constructor
  · intro h
    exact ⟨congrArg SseEvent.data h, congrArg SseEvent.retryMs h⟩
  · rintro ⟨h, h'⟩
    rw [h, h']
    rfl

/-- At a blank line: whether `drain_sse` reports what the grammar does. -/
theorem faithful_iff (hsilent : Silent d.held) (hblank : l.text = []) : Faithful d l ↔
    (d.line l).events = d.events ++ (eventOf d.block).report := by
  rw [Faithful, Draining.line, if_pos hblank]
  cases terminates d.buffer l with
  | true =>
    simp only [if_true, List.append_cancel_left_eq]
    rw [report_inj, parsed_eq_iff hsilent]
  | false =>
    simp only [Bool.false_eq_true, if_false, List.self_eq_append_right]
    exact report_eq_nil.symm

theorem silent_line (hsilent : Silent d.held) (h : l.text = [] → Faithful d l) :
    Silent (d.line l).held := by
  unfold Draining.line
  split
  · next hblank =>
    have hfaithful := h hblank
    cases hterm : terminates d.buffer l with
    | true => exact ⟨rfl, rfl⟩
    | false =>
      simp only [Faithful, hterm, Bool.false_eq_true, if_false] at hfaithful ⊢
      have hdata := congrArg SseEvent.data hfaithful
      have hid := congrArg SseEvent.id hfaithful
      have hfield : (splitField l.text).1 = [] := by
        rw [hblank]
        rfl
      obtain ⟨hd, hi⟩ := hsilent
      constructor
      · have hle := length_foldl_appended_le (values "data" d.block)
        simp only [eventOf] at hdata
        rw [hdata, List.length_nil, Nat.le_zero, List.length_eq_zero_iff] at hle
        simp [Draining.buffer, values_append, values_singleton, hfield, hd, hle]
      · have hnone : values "id" d.block = [] := List.getLast?_eq_none_iff.mp hid
        simp [Draining.buffer, values_append, values_singleton, hfield, hi, hnone]
  · exact hsilent

theorem block_eq (ls : List Line) : (draining ls).block = (reference ls).block := by
  induction ls using List.reverseRecOn with
  | nil => rfl
  | append_singleton ls l ih =>
    rw [draining_append, reference_append, Draining.line, Reading.line]
    by_cases hblank : l.text = []
    · rw [if_pos hblank, if_pos hblank]
      split <;> rfl
    · rw [if_neg hblank, if_neg hblank, ih]

/-- What one more line does to the agreement of the two readings. -/
theorem events_append (hevents : (draining ls).events = (reference ls).events)
    (hsilent : Silent (draining ls).held) :
    (draining (ls ++ [l])).events = (reference (ls ++ [l])).events ↔
      (l.text = [] → Faithful (draining ls) l) := by
  rw [draining_append, reference_append]
  by_cases hblank : l.text = []
  · rw [faithful_iff hsilent hblank, hevents, block_eq, Reading.line, if_pos hblank]
    simp [hblank]
  · simp [Draining.line, Reading.line, hblank, hevents]

theorem prefix_append_iff {R : List Line → Line → Prop} :
    (∀ before l', before ++ [l'] <+: ls ++ [l] → R before l') ↔
      (∀ before l', before ++ [l'] <+: ls → R before l') ∧ R ls l := by
  constructor
  · intro h
    refine ⟨fun before l' hpre => h before l' (hpre.trans (List.prefix_append ls [l])), ?_⟩
    exact h ls l List.prefix_rfl
  · rintro ⟨h, hl⟩ before l' hpre
    rcases List.prefix_concat_iff.mp hpre with heq | hpre
    · obtain ⟨rfl, hcons⟩ := List.append_inj' heq rfl
      cases hcons
      exact hl
    · exact h before l' hpre

theorem agree_of_faithful
    (h : ∀ before l, before ++ [l] <+: ls → l.text = [] → Faithful (draining before) l) :
    (draining ls).events = (reference ls).events ∧ Silent (draining ls).held := by
  induction ls using List.reverseRecOn with
  | nil => exact ⟨rfl, rfl, rfl⟩
  | append_singleton ls l ih =>
    obtain ⟨hbefore, hl⟩ := prefix_append_iff.mp h
    obtain ⟨hevents, hsilent⟩ := ih hbefore
    refine ⟨(events_append hevents hsilent).mpr hl, ?_⟩
    rw [draining_append]
    exact silent_line hsilent hl

/-- `drain_sse` reads every event of a stream as the grammar does, up to each of its blank lines,
exactly when it is faithful at each of them. -/
theorem drainSse_eq_reference_iff (ls : List Line) :
    (∀ before l, before ++ [l] <+: ls → l.text = [] →
      (drainSse (bytes (before ++ [l]))).1 = (reference (before ++ [l])).events) ↔
    ∀ before l, before ++ [l] <+: ls → l.text = [] → Faithful (draining before) l := by
  induction ls using List.reverseRecOn with
  | nil => simp
  | append_singleton ls l ih =>
    rw [prefix_append_iff, prefix_append_iff, ih]
    apply and_congr_right
    intro hfaithful
    obtain ⟨hevents, hsilent⟩ := agree_of_faithful hfaithful
    have happend := events_append (l := l) hevents hsilent
    rw [(drainSse_bytes (ls ++ [l])).2]
    constructor
    · intro h hblank
      exact happend.mp (h hblank) hblank
    · intro h hblank
      exact happend.mpr h

/-- A CRLF blank line behind a line that ends in LF. -/
def mixed : List Line :=
  [⟨"data: a".toList, false, by decide, by decide⟩, ⟨[], true, by decide, by decide⟩,
    ⟨"data: b".toList, false, by decide, by decide⟩, ⟨[], false, by decide, by decide⟩]

def emptyFirst : List Line :=
  [⟨"data:".toList, false, by decide, by decide⟩, ⟨"data: x".toList, false, by decide, by decide⟩,
    ⟨[], false, by decide, by decide⟩]

def junkDelay : List Line :=
  [⟨"retry: 5x".toList, false, by decide, by decide⟩, ⟨[], false, by decide, by decide⟩]

theorem grammar_missed :
    ((drainSse (bytes mixed)).1 = [{ data := "a\nb".toList }] ∧
      (reference mixed).events = [{ data := "a".toList }, { data := "b".toList }]) ∧
    ((drainSse (bytes emptyFirst)).1 = [{ data := "x".toList }] ∧
      (reference emptyFirst).events = [{ data := "\nx".toList }]) ∧
    (drainSse (bytes junkDelay)).1 = [{ retryMs := some 5 }] ∧
      (reference junkDelay).events = [] := by
  simp only [(drainSse_bytes _).2]
  decide

end Reading

end Mcp.Http.Grammar
