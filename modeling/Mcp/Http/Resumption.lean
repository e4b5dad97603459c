import Mcp.Http.ClientTransport
import Mcp.Http.SseGrammar
import Mcp.Http.SseStream

/-! The GET worker of the client against a server that numbers its events and, asked with
`Last-Event-ID`, goes on behind the event of that id. -/
namespace Mcp.Http.ClientTransport

open Transition Grammar

/-- The lines of an event, up to the blank line that ends it. -/
structure Block where
  lines : List Line
  ne_nil : lines ≠ []
  noBlank : ∀ l ∈ lines, l.text ≠ []

namespace Block

/-- What the client reads of the block. -/
def event (b : Block) : SseEvent := parsed b.lines

def write (b : Block) : Bytes := bytes b.lines ++ ['\n']

/-- What the block leaves in `last_event_id_`, if anything. -/
def cursor (b : Block) : Option Bytes := b.event.id.filter (· ≠ [])

end Block

/-- What the server writes of some blocks. -/
def written (bs : List Block) : Bytes := bs.flatMap Block.write

def reports (bs : List Block) : List SseEvent := bs.flatMap fun b => b.event.report

/-- The frames of some blocks. -/
def messages (bs : List Block) : List Bytes := delivered (bs.map Block.event)

def numbered (bs : List Block) : List Block := bs.filter fun b => b.cursor.isSome

/-- The part of a log behind the event of an id; all of it for a client that names none. -/
def behind (log : List Block) : Option Bytes → List Block
  | none => log
  | some id => (log.dropWhile fun b => b.cursor ≠ some id).tail

/-- The `Last-Event-ID` of the next GET. -/
def State.lastEventIdHeader (s : State) : Option Bytes :=
  if s.lastEventId = [] then none else some s.lastEventId

/-- All events that the server has for the session, now or later. Each has an id of its own. -/
structure Log where
  blocks : List Block
  isNumbered : ∀ b ∈ blocks, b.cursor.isSome
  distinct : (blocks.map Block.cursor).Nodup

/-- What a connection asked for with `id` may carry: the log from there on, or a part of it, and
between its events comments, delays, and the like. -/
structure Replays (log : Log) (id : Option Bytes) (bs : List Block) : Prop where
  quiet : ∀ b ∈ bs, b.cursor = none → b.event.data = []
  log : numbered bs <+: behind log.blocks id

/-- A connection of the GET stream: the `Last-Event-ID` it was asked for with, what the server
writes on it, and what of that has arrived. -/
structure Connection where
  asked : Option Bytes
  blocks : List Block
  arrived : Bytes

/-- The client, and its latest connection. -/
structure Resumed where
  client : State
  connection : Connection
  /-- The frames that the stream has brought to `on_message_`. -/
  streamed : List Bytes

inductive Resumed.Action where
  | connect (bs : List Block)
  | arrive (chunk : Bytes)
  | event
  | other (a : ClientTransport.Action)

/-- The steps of the GET worker that the connection has a part in. -/
def Streaming : ClientTransport.Action → Prop
  | .getRead | .getChunk _ | .getEvent => True
  | _ => False

/-- No event of the answer to a POST has an id. -/
def Anonymous (l : Resumed) : Resumed.Action → Prop
  | .other (.postEvent t) => ∀ se events, l.client.pc t = .receiving (se :: events) →
      se.id.filter (· ≠ []) = none
  | _ => True

section Steps

variable (settings : Settings) (log : Log)

/-- A connection may break off anywhere, and what has arrived of it comes in chunks of any size. -/
inductive Resumed.Step : Resumed → Resumed.Action → Resumed → Prop where
  | connect {l bs c} : ClientTransport.Step settings l.client .getRead c →
      Replays log l.client.lastEventIdHeader bs →
      Resumed.Step l (.connect bs)
        { l with client := c, connection := ⟨l.client.lastEventIdHeader, bs, []⟩ }
  | arrive {l chunk c} : ClientTransport.Step settings l.client (.getChunk chunk) c →
      l.connection.arrived ++ chunk <+: written l.connection.blocks →
      Resumed.Step l (.arrive chunk) { l with
        client := c
        connection := { l.connection with arrived := l.connection.arrived ++ chunk } }
  | event {l sid se events buf c} : l.client.get = .receiving sid (se :: events) buf →
      ClientTransport.Step settings l.client .getEvent c →
      Resumed.Step l .event { l with client := c, streamed := l.streamed ++ delivered [se] }
  | other {l a c} : ¬Streaming a → ClientTransport.Step settings l.client a c →
      Resumed.Step l (.other a) { l with client := c }

def resumption : System Resumed Resumed.Action where
  Initial l := l = ⟨fresh settings, ⟨none, [], []⟩, []⟩
  Step := Resumed.Step settings log

end Steps

variable {settings : Settings} {log : Log} {l l' : Resumed} {k : Connection}
  {bs ds : List Block} {b : Block}

section Blocks

theorem Block.splitEvent_write (b : Block) :
    ∃ event, splitEvent b.write = some (event, []) ∧ parseEvent event = b.event := by
  let blank : Line := ⟨[], false, by simp, by simp⟩
  obtain ⟨ls, p, hlines⟩ : ∃ ls p, b.lines = ls ++ [p] :=
    ⟨_, _, (List.dropLast_concat_getLast b.ne_nil).symm⟩
  have hwrite : b.write = bytes (ls ++ [p, blank]) := by
    calc b.write = bytes (ls ++ [p]) ++ bytes [blank] := by rw [Block.write, hlines]; rfl
      _ = bytes (ls ++ [p, blank]) := by rw [← bytes_append, List.append_assoc]; rfl
  have hquiet : Quiet (ls ++ [p]) := by
    rw [← hlines]
    refine (List.isChain_iff_getElem.mpr ?_)
    intro i hi hblank
    exact absurd hblank (b.noBlank _ (List.getElem_mem _))
  have hsplit := splitEvent_terminated (l := blank) hquiet rfl rfl
  refine ⟨_, hwrite ▸ hsplit, ?_⟩
  rw [parseEvent_bytes ls p blank, Block.event, hlines]

theorem Block.next_write (b : Block) (rest : Bytes) :
    sseReader.next (b.write ++ rest) = some (b.event.report, rest) := by
  obtain ⟨event, hsplit, hparse⟩ := b.splitEvent_write
  rw [next_of_splitEvent (splitEvent_append hsplit rest), hparse, List.nil_append]

theorem Block.data_of_report (h : b.event.report = []) : b.event.data = [] ∧ b.cursor = none := by
  rw [report_eq_nil.mp h, Block.cursor, report_eq_nil.mp h]
  exact ⟨rfl, rfl⟩

theorem delivered_append (events events' : List SseEvent) :
    delivered (events ++ events') = delivered events ++ delivered events' := by
  simp [delivered]

@[simp] theorem messages_append (bs ds : List Block) :
    messages (bs ++ ds) = messages bs ++ messages ds := by
  rw [messages, List.map_append, delivered_append]
  rfl

@[simp] theorem numbered_append (bs ds : List Block) :
    numbered (bs ++ ds) = numbered bs ++ numbered ds :=
  List.filter_append ..

/-- The first event that some blocks report comes from one of them, behind others that report
nothing. -/
theorem reports_eq_cons {se : SseEvent} {events : List SseEvent} (h : reports bs = se :: events) :
    ∃ silent b ds, bs = silent ++ b :: ds ∧ (∀ b ∈ silent, b.event.report = []) ∧
      b.event = se ∧ reports ds = events := by
  induction bs with
  | nil => cases h
  | cons b bs ih =>
    rw [reports, List.flatMap_cons] at h
    cases hb : b.event.report with
    | nil =>
      rw [hb] at h
      obtain ⟨silent, b', ds, rfl, hsilent, hevent, hds⟩ := ih h
      refine ⟨b :: silent, b', ds, rfl, ?_, hevent, hds⟩
      exact List.forall_mem_cons.mpr ⟨hb, hsilent⟩
    | cons se' tail =>
      have hse : b.event = se' ∧ tail = [] := by
        unfold SseEvent.report at hb
        split at hb
        · simpa using hb
        · cases hb
      rw [hb, hse.2, List.singleton_append, List.cons.injEq] at h
      exact ⟨[], b, bs, rfl, by simp, hse.1.trans h.1, h.2⟩

theorem numbered_silent (h : ∀ b ∈ bs, b.event.report = []) : numbered bs = [] := by
  rw [numbered, List.filter_eq_nil_iff]
  intro b hb
  simp [(Block.data_of_report (h b hb)).2]

end Blocks

section Cursor

/-- The id of the last of some events. -/
def lastCursor (seen : List Block) : Bytes := ((seen.getLast?.bind Block.cursor)).getD []

theorem lastEventId_noteStreamEvent (s : State) (se : SseEvent) :
    (s.noteStreamEvent se).lastEventId = (se.id.filter (· ≠ [])).getD s.lastEventId := by
  simp only [State.noteStreamEvent, State.noteEvent]
  cases se.id with
  | none => rfl
  | some id => by_cases hid : id = [] <;> simp [hid, Option.filter]

/-- The header names the last event seen, and the server goes on behind that one. -/
theorem behind_lastCursor {seen ahead : List Block} {s : State}
    (hlog : log.blocks = seen ++ ahead) (hid : s.lastEventId = lastCursor seen) :
    behind log.blocks s.lastEventIdHeader = ahead := by
  rcases List.eq_nil_or_concat seen with rfl | ⟨before, b, rfl⟩
  · simp [State.lastEventIdHeader, hid, lastCursor, behind, hlog]
  · obtain ⟨id, hcursor⟩ := Option.isSome_iff_exists.mp (log.isNumbered b (by simp [hlog]))
    have hne : id ≠ [] := by
      have hfilter := (Option.filter_eq_some_iff.mp hcursor).2
      simpa using hfilter
    have hheader : s.lastEventIdHeader = some id := by
      simp [State.lastEventIdHeader, hid, lastCursor, hcursor, hne]
    have hbefore : ∀ d ∈ before, d.cursor ≠ some id := by
      intro d hd he
      have hdistinct := log.distinct
      rw [hlog, List.concat_eq_append, List.append_assoc, List.map_append,
        List.nodup_append] at hdistinct
      exact hdistinct.2.2 _ (List.mem_map_of_mem hd) b.cursor (by simp) (he.trans hcursor.symm)
    rw [hheader, behind, hlog, List.concat_eq_append, List.append_assoc,
      List.dropWhile_append_of_pos]
    · simp [hcursor]
    · intro d hd
      simpa using hbefore d hd

theorem messages_numbered (h : b.cursor = none → b.event.data = []) :
    messages (numbered [b]) = delivered [b.event] := by
  cases hb : b.cursor with
  | none => simp [numbered, hb, messages, delivered, h hb]
  | some id => simp [numbered, hb, messages]

theorem lastCursor_numbered (seen : List Block) (b : Block) :
    lastCursor (seen ++ numbered [b]) = b.cursor.getD (lastCursor seen) := by
  cases hb : b.cursor with
  | none => simp [numbered, hb]
  | some id => simp [numbered, hb, lastCursor]

end Cursor

section Steps

/-- What the worker has still to hand over of what it has parsed, and its buffer. -/
def Get.unread : Get → Option (List SseEvent × Bytes)
  | .requesting _ buf => some ([], buf)
  | .receiving _ events buf => some (events, buf)
  | _ => none

theorem unread_afterGet (sid : String) (res : Option Response) :
    (afterGet settings sid res).unread = none := by
  cases res with
  | none => rfl
  | some res =>
    simp only [afterGet]
    split
    · rfl
    · split
      · split <;> rfl
      · split <;> rfl

theorem delivered_noteEvent (s : State) (se : SseEvent) :
    (s.noteEvent se).delivered = s.delivered ++ Http.delivered [se] := by
  simp only [State.noteEvent, Http.delivered]
  by_cases hdata : se.data = [] <;> simp [hdata]

theorem lastEventId_noteEvent (s : State) {se : SseEvent} (hid : ∀ id, se.id = some id → id = []) :
    (s.noteEvent se).lastEventId = s.lastEventId := by
  simp only [State.noteEvent]
  split
  · next id hse => rw [if_pos (hid id hse)]
  · rfl

theorem prefix_noteEvent (s : State) (se : SseEvent) :
    s.delivered <+: (s.noteEvent se).delivered := by
  rw [delivered_noteEvent]
  exact List.prefix_append _ _

/-- What a step leaves alone that the connection has no part in. -/
theorem other_step {a : Action} {c : State} (ha : ¬Streaming a) (hok : Anonymous l (.other a))
    (hst : Step settings l.client a c) : c.lastEventId = l.client.lastEventId ∧
      (c.get.unread = none ∨ c.get.unread = l.client.get.unread) ∧
      l.client.delivered <+: c.delivered := by
  cases hst with
  | getRead | getChunk | getEvent => exact absurd trivial ha
  | @postEvent t se events hpc =>
    have hid := Option.filter_eq_none_iff.mp (hok _ _ hpc)
    refine ⟨?_, .inr rfl, prefix_noteEvent _ se⟩
    exact lastEventId_noteEvent _ fun id hse => by simpa using hid id hse
  | postHand => exact ⟨rfl, .inr rfl, List.prefix_append _ _⟩
  | startGet =>
    refine ⟨rfl, ?_, List.prefix_refl _⟩
    dsimp only
    split
    · exact .inl rfl
    · exact .inr rfl
  | send | sendCheck | postDisarm => split <;> exact ⟨rfl, .inr rfl, List.prefix_refl _⟩
  | getLoop | getCheck =>
    refine ⟨rfl, .inl ?_, List.prefix_refl _⟩
    dsimp only
    split <;> rfl
  | getMore hget => exact ⟨rfl, .inr (by rw [hget]; rfl), List.prefix_refl _⟩
  | getResponse => exact ⟨rfl, .inl (unread_afterGet ..), List.prefix_refl _⟩
  | getWake | getAbort | getNotify | getReset | getSleep =>
    exact ⟨rfl, .inl rfl, List.prefix_refl _⟩
  | _ => exact ⟨rfl, .inr rfl, List.prefix_refl _⟩

/-- The place of the GET worker in the connection: it has handed over what `read` brings, `pending`
is parsed, and its buffer ends inside the first of `ahead`. -/
structure Place (log : Log) (k : Connection) (rest read pending ahead : List Block)
    (events : List SseEvent) (buf : Bytes) : Prop where
  blocks : k.blocks = read ++ pending ++ ahead
  arrived : k.arrived = written (read ++ pending) ++ buf
  events : events = reports pending
  incomplete : sseReader.next buf = none
  asked : behind log.blocks k.asked = numbered read ++ rest
  ahead : numbered (pending ++ ahead) <+: rest

/-- The client has seen the first part of the log, and its id tells so. -/
structure Caught (log : Log) (l : Resumed) (seen rest : List Block) : Prop where
  split : log.blocks = seen ++ rest
  streamed : l.streamed = messages seen
  handed : l.streamed.Sublist l.client.delivered
  lastEventId : l.client.lastEventId = lastCursor seen
  quiet : ∀ b ∈ l.connection.blocks, b.cursor = none → b.event.data = []
  place : ∀ events buf, l.client.get.unread = some (events, buf) →
    ∃ read pending ahead, Place log l.connection rest read pending ahead events buf

theorem written_append (bs ds : List Block) : written (bs ++ ds) = written bs ++ written ds :=
  List.flatMap_append

theorem reports_nil (h : [] = reports bs) : ∀ b ∈ bs, b.event.report = [] := by
  intro b hb
  exact List.flatMap_eq_nil_iff.mp h.symm b hb

/-- A chunk completes some of the blocks ahead. -/
theorem Place.arrive {read pending ahead rest : List Block} {buf chunk : Bytes}
    (h : Place log k rest read pending ahead [] buf)
    (hp : k.arrived ++ chunk <+: written k.blocks) :
    ∃ ds more, Place log { k with arrived := k.arrived ++ chunk } rest (read ++ pending) ds more
      (drainSse (buf ++ chunk)).1 (drainSse (buf ++ chunk)).2 := by
  have hsilent := numbered_silent (reports_nil h.events)
  rw [h.arrived, h.blocks, List.append_assoc, written_append (read ++ pending)] at hp
  obtain ⟨ds, tail, ⟨more, rfl⟩, hbuf, hdrain⟩ := Incremental.Reader.drain_prefix
    Block.next_write ((List.prefix_append_right_inj _).mp hp)
  refine ⟨ds, more, ?_⟩
  rw [drainSse, hdrain]
  refine ⟨?_, ?_, rfl, ?_, ?_, ?_⟩
  · rw [h.blocks, List.append_assoc, List.append_assoc, List.append_assoc]
  · change k.arrived ++ chunk = _
    rw [h.arrived, List.append_assoc, hbuf, written_append _ ds, List.append_assoc]
    rfl
  · have hnext := Incremental.Reader.next_drain (R := sseReader) (buf ++ chunk)
    rwa [hdrain] at hnext
  · rw [h.asked, numbered_append, hsilent, List.append_nil]
  · have hahead := h.ahead
    rwa [numbered_append pending, hsilent, List.nil_append] at hahead

/-- The next event is that of a block, behind blocks that report nothing. -/
theorem Place.event {read pending ahead rest : List Block} {se : SseEvent}
    {events : List SseEvent} {buf : Bytes}
    (h : Place log k rest read pending ahead (se :: events) buf) :
    ∃ b rest' read' pending', b ∈ k.blocks ∧ b.event = se ∧ rest = numbered [b] ++ rest' ∧
      Place log k rest' read' pending' ahead events buf := by
  obtain ⟨silent, b, ds, rfl, hsilent, hevent, hds⟩ := reports_eq_cons h.events.symm
  have hnumbered := numbered_silent hsilent
  have hcons : numbered (silent ++ b :: ds ++ ahead) = numbered [b] ++ numbered (ds ++ ahead) := by
    rw [List.append_assoc, numbered_append, hnumbered, List.nil_append, List.cons_append,
      ← List.singleton_append, numbered_append]
  obtain ⟨tail, htail⟩ := hcons ▸ h.ahead
  rw [List.append_assoc] at htail
  refine ⟨b, numbered (ds ++ ahead) ++ tail, read ++ silent ++ [b], ds, ?_, hevent, htail.symm, ?_⟩
  · simp [h.blocks]
  · refine ⟨?_, ?_, hds.symm, h.incomplete, ?_, List.prefix_append _ _⟩
    · simp [h.blocks]
    · simp [h.arrived]
    · rw [h.asked, ← htail]
      simp [hnumbered]

end Steps

def CaughtUp (log : Log) (l : Resumed) : Prop := ∃ seen rest, Caught log l seen rest

theorem caught_step {a : Resumed.Action} (hok : Anonymous l a)
    (hst : Resumed.Step settings log l a l') (h : CaughtUp log l) : CaughtUp log l' := by
  obtain ⟨seen, rest, h⟩ := h
  cases hst with
  | @connect bs c hst hbs =>
    refine ⟨seen, rest, h.split, h.streamed, ?_, ?_, hbs.quiet, ?_⟩
    · cases hst
      exact h.handed
    · cases hst
      exact h.lastEventId
    · have hbehind := behind_lastCursor h.split h.lastEventId
      intro events buf hr
      cases hst
      cases hr
      exact ⟨[], [], bs, rfl, rfl, rfl, rfl, hbehind, hbehind ▸ hbs.log⟩
  | @arrive chunk c hst hp =>
    cases hst with
    | @getChunk sid buf _ hget hopen =>
      refine ⟨seen, rest, h.split, h.streamed, h.handed, h.lastEventId, h.quiet, ?_⟩
      intro events rest' hr
      cases hr
      obtain ⟨read, pending, ahead, hplace⟩ := h.place [] buf (by rw [hget]; rfl)
      obtain ⟨ds, more, hplace'⟩ := hplace.arrive hp
      exact ⟨_, ds, more, hplace'⟩
  | @event sid se events buf c hget hst =>
    obtain ⟨read, pending, ahead, hplace⟩ := h.place (se :: events) buf (by rw [hget]; rfl)
    cases hst with
    | @getEvent sid se events buf hget' =>
      rw [hget] at hget'
      cases hget'
      obtain ⟨b, rest', read', pending', hb, rfl, rfl, hplace'⟩ := hplace.event
      refine ⟨seen ++ numbered [b], rest', ?_, ?_, ?_, ?_, h.quiet, ?_⟩
      · rw [h.split, List.append_assoc]
      · rw [messages_append, messages_numbered (h.quiet b hb), ← h.streamed]
      · exact (delivered_noteEvent l.client b.event) ▸ h.handed.append (List.Sublist.refl _)
      · rw [lastCursor_numbered, ← h.lastEventId]
        exact lastEventId_noteStreamEvent _ b.event
      · intro events' buf' hr
        cases hr
        exact ⟨read', pending', ahead, hplace'⟩
  | @other a c ha hst =>
    obtain ⟨hid, hunread, hdelivered⟩ := other_step ha hok hst
    refine ⟨seen, rest, h.split, h.streamed, h.handed.trans hdelivered.sublist,
      hid.trans h.lastEventId, h.quiet, ?_⟩
    intro events buf hr
    rcases hunread with hnone | hsame
    · rw [hnone] at hr
      cases hr
    · obtain ⟨read, pending, ahead, hplace⟩ := h.place events buf (hsame ▸ hr)
      exact ⟨read, pending, ahead, hplace⟩

theorem caught_reachable (h : (resumption settings log).Reachable Anonymous l) :
    CaughtUp log l := by
  refine h.invariant (P := CaughtUp log) ?_ ?_
  · rintro _ rfl
    exact ⟨[], log.blocks, rfl, rfl, List.Sublist.refl _, rfl, by simp, by simp [fresh, Get.unread]⟩
  · intro l a l' _ h ha hst
    exact caught_step ha hst h

/-- Wherever connections break off, whatever chunks they come in, and whatever the other threads do:
the frames that the stream has brought are those of the first part of the log, each once and in
order, the next GET asks for the rest, and a connection that arrives whole brings all of it. -/
theorem stream_resumes (settings : Settings) (log : Log) (l : Resumed)
    (h : (resumption settings log).Reachable Anonymous l) :
    ∃ seen, seen ++ behind log.blocks l.client.lastEventIdHeader = log.blocks ∧
      l.streamed = messages seen ∧ l.streamed.Sublist l.client.delivered ∧
      (∀ sid buf, l.client.get = .requesting sid buf →
        l.connection.arrived = written l.connection.blocks →
        numbered l.connection.blocks = behind log.blocks l.connection.asked →
        seen = log.blocks) := by
  obtain ⟨seen, rest, h⟩ := caught_reachable h
  refine ⟨seen, ?_, h.streamed, h.handed, ?_⟩
  · rw [behind_lastCursor h.split h.lastEventId, h.split]
  · intro sid buf hget harrived hall
    obtain ⟨read, pending, ahead, hplace⟩ := h.place [] buf (by rw [hget]; rfl)
    have hbuf : buf = written ahead := by
      have hwhole := hplace.arrived
      rw [harrived, hplace.blocks, written_append (read ++ pending)] at hwhole
      exact (List.append_cancel_left hwhole).symm
    have hahead : ahead = [] := by
      cases ahead with
      | nil => rfl
      | cons b ahead =>
        have hnext := hplace.incomplete
        rw [hbuf, written, List.flatMap_cons, b.next_write] at hnext
        cases hnext
    have hrest : rest = [] := by
      rw [hplace.asked, hplace.blocks, hahead, List.append_nil, numbered_append,
        numbered_silent (reports_nil hplace.events)] at hall
      simpa using hall
    rw [h.split, hrest, List.append_nil]

section Rounds

variable {sid : String} {events : List SseEvent} {buf chunk : Bytes}

/-- The worker, between two connections of an open transport that has its session. -/
structure Between (l : Resumed) (sid : String) : Prop where
  get : l.client.get = .looping
  isOpen : l.client.closed = false
  session : l.client.sessionId = some sid

/-- The id that some events leave behind. -/
def idAfter (id : Bytes) (events : List SseEvent) : Bytes :=
  events.foldl (fun id se => (se.id.filter (· ≠ [])).getD id) id

theorem hand_over (h : (resumption settings log).Reachable Anonymous l)
    (hget : l.client.get = .receiving sid events buf) :
    ∃ l', (resumption settings log).Reachable Anonymous l' ∧
      l'.client.get = .receiving sid [] buf ∧ l'.client.closed = l.client.closed ∧
      l'.client.sessionId = l.client.sessionId ∧
      l'.client.lastEventId = idAfter l.client.lastEventId events ∧
      l'.streamed = l.streamed ++ delivered events := by
  induction events generalizing l with
  | nil => exact ⟨l, h, hget, rfl, rfl, rfl, by simp [delivered]⟩
  | cons se events ih =>
    have hok : Anonymous l .event := trivial
    obtain ⟨l', hl', hget', hclosed, hsession, hid, hstreamed⟩ :=
      ih (h.step hok (.event hget (.getEvent hget))) rfl
    refine ⟨l', hl', hget', hclosed, hsession, ?_, ?_⟩
    · exact hid.trans (congrArg (idAfter · events) (lastEventId_noteStreamEvent l.client se))
    · rw [hstreamed, List.append_assoc, ← delivered_append]
      rfl

theorem other_reachable {a : Action} {c : State}
    (h : (resumption settings log).Reachable Anonymous l) (ha : ¬Streaming a)
    (hpost : ∀ t, a ≠ .postEvent t) (hst : Step settings l.client a c) :
    (resumption settings log).Reachable Anonymous { l with client := c } := by
  refine h.step ?_ (.other ha hst)
  cases a with
  | postEvent t => exact absurd rfl (hpost t)
  | _ => trivial

/-- A connection that breaks off behind some bytes, and the sleep after it. -/
theorem connection_breaks (h : (resumption settings log).Reachable Anonymous l)
    (hb : Between l sid) (hbs : Replays log l.client.lastEventIdHeader bs)
    (hchunk : chunk <+: written bs) :
    ∃ l', (resumption settings log).Reachable Anonymous l' ∧ Between l' sid ∧
      l'.client.lastEventId = idAfter l.client.lastEventId (drainSse chunk).1 ∧
      l'.streamed = l.streamed ++ delivered (drainSse chunk).1 := by
  have hlooping := other_reachable h (by simp [Streaming]) (by simp) (.getLoop hb.get)
  rw [if_neg (by simp [hb.isOpen])] at hlooping
  have hok : ∀ l : Resumed, Anonymous l (.connect bs) ∧ Anonymous l (.arrive chunk) :=
    fun _ => ⟨trivial, trivial⟩
  have hconnected := hlooping.step (hok _).1 (.connect (.getRead rfl hb.session hb.isOpen) hbs)
  have harrived := hconnected.step (hok _).2 (.arrive (.getChunk rfl hb.isOpen) hchunk)
  obtain ⟨l', hl', hget, hclosed, hsession, hid, hstreamed⟩ := hand_over harrived rfl
  replace hclosed : l'.client.closed = false := hclosed.trans hb.isOpen
  have hmore := other_reachable hl' (by simp [Streaming]) (by simp) (.getMore hget)
  have hbroken := other_reachable (a := .getResponse none) hmore (by simp [Streaming]) (by simp)
    (.getResponse rfl)
  have hchecked := other_reachable hbroken (by simp [Streaming]) (by simp) (.getCheck rfl)
  rw [if_neg (by simp [hclosed])] at hchecked
  have hslept := other_reachable hchecked (by simp [Streaming]) (by simp) (.getSleep rfl)
  exact ⟨_, hslept, ⟨rfl, hclosed, hsession.trans hb.session⟩, hid, hstreamed⟩

theorem between_ready (log : Log) (sid : String) : ∃ l,
    (resumption ⟨some sid, true, false⟩ log).Reachable Anonymous l ∧ Between l sid ∧
      l.client.lastEventId = [] ∧ l.streamed = [] := by
  have h : (resumption ⟨some sid, true, false⟩ log).Reachable Anonymous _ := .initial rfl
  have h₁ := other_reachable h (by simp [Streaming]) (by simp) (.startClaim rfl)
  have h₂ := other_reachable h₁ (by simp [Streaming]) (by simp) (.startOpen rfl)
  have h₃ := other_reachable h₂ (by simp [Streaming]) (by simp) (.startRearm rfl)
  have h₄ := other_reachable h₃ (by simp [Streaming]) (by simp) (.startWorker rfl)
  have h₅ := other_reachable h₄ (by simp [Streaming]) (by simp) (.startGet rfl)
  exact ⟨_, h₅, ⟨rfl, rfl, rfl⟩, rfl, rfl⟩

end Rounds

section Cut

def plain (text : String) (hcr : '\r' ∉ text.toList) (hlf : '\n' ∉ text.toList) : Line :=
  ⟨text.toList, false, hcr, hlf⟩

def first : Block where
  lines := [plain "id: 1" (by decide) (by decide), plain "data: a" (by decide) (by decide)]
  ne_nil := by simp
  noBlank := by simp [plain]

def second : Block where
  lines := [plain "id: 2" (by decide) (by decide), plain "data: b" (by decide) (by decide)]
  ne_nil := by simp
  noBlank := by simp [plain]

def twoEvents : Log where
  blocks := [first, second]
  isNumbered := by decide
  distinct := by decide

/-- The first connection breaks off inside the second event. -/
theorem cut_stream_resumes : ∃ l : Resumed, l.streamed = ["a".toList, "b".toList] ∧
    ∃ seen, seen ++ behind twoEvents.blocks l.client.lastEventIdHeader = twoEvents.blocks ∧
      l.streamed = messages seen ∧ l.streamed.Sublist l.client.delivered ∧
      (∀ sid buf, l.client.get = .requesting sid buf →
        l.connection.arrived = written l.connection.blocks →
        numbered l.connection.blocks = behind twoEvents.blocks l.connection.asked →
        seen = twoEvents.blocks) := by
  obtain ⟨l₀, h₀, hb₀, hid₀, hs₀⟩ := between_ready twoEvents "s"
  have hfirst : drainSse (first.write ++ "id: 2\nda".toList) =
      ([first.event], "id: 2\nda".toList) := by
    rw [drainSse, Incremental.Reader.drain_of_some (first.next_write _),
      Incremental.Reader.drain_of_none rfl]
    rfl
  have hsecond : drainSse second.write = ([second.event], []) := by
    have hnext := second.next_write []
    rw [List.append_nil] at hnext
    rw [drainSse, Incremental.Reader.drain_of_some hnext, Incremental.Reader.drain_nil]
    rfl
  have hall : numbered [first, second] <+: behind twoEvents.blocks l₀.client.lastEventIdHeader := by
    rw [State.lastEventIdHeader, hid₀]
    exact ⟨[], rfl⟩
  obtain ⟨l₁, h₁, hb₁, hid₁, hs₁⟩ := connection_breaks h₀ hb₀ ⟨by decide, hall⟩
    (by decide : first.write ++ "id: 2\nda".toList <+: written [first, second])
  have hrest : numbered [second] <+: behind twoEvents.blocks l₁.client.lastEventIdHeader := by
    rw [State.lastEventIdHeader, hid₁, hid₀, hfirst]
    exact ⟨[], rfl⟩
  obtain ⟨l₂, h₂, -, -, hs₂⟩ := connection_breaks h₁ hb₁ ⟨by decide, hrest⟩
    (by decide : second.write <+: written [second])
  refine ⟨l₂, ?_, stream_resumes _ twoEvents l₂ h₂⟩
  rw [hs₂, hs₁, hs₀, hfirst, hsecond]
  rfl

end Cut

end Mcp.Http.ClientTransport
