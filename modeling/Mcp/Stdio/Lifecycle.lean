import Mcp.Library.Fairness
import Mcp.Stdio.Framing

/-! StdioTransport from start() to close(): the thread that starts and closes it, the read thread
with its wake-up pipe, and the senders. Calls of start() and close() do not overlap: each of them
assigns to or joins the one `std::thread`. -/
namespace Mcp.Stdio.Lifecycle

open Transition

/-- What `poll` reports of the input. -/
inductive Input where
  | nothing
  | error
  | readable
  | hangUp
  deriving DecidableEq

/-- The read thread. -/
inductive Reader where
  | absent
  | looping
  | polling
  | polled (woken : Bool) (input : Input)
  -- the pipe is empty, `closing_` is not looked at yet
  | drained (input : Input)
  | deciding (input : Input)
  | reading
  /-- These frames of the chunk go to `on_message`, and then the loop goes on or ends. -/
  | handing (frames : List Bytes) (oversized : Bool)
  -- fire_close()
  | leaving
  | calling
  | exited

/-- The thread that calls start() and close(); `first` says that `closing_` was not set. -/
inductive Control where
  | idle
  -- start()
  | claimed
  | opened
  | rearmed
  | piped
  -- close()
  | stopping (first : Bool)
  | waking
  | joining (first : Bool)
  | closingPipe
  | locking
  | firing
  | calling
  deriving DecidableEq

structure State where
  running : Bool
  closing : Bool
  closeFired : Bool
  /-- The bytes in the wake-up pipe; none while its descriptors are -1. -/
  wake : Option ℕ
  reader : Reader
  control : Control
  /-- The local variable of read_loop(). -/
  buffer : Bytes
  /-- Senders that have found `running_` set and wait for `write_mutex_`, and whether one has it. -/
  senders : ℕ
  writing : Bool
  /-- Calls of `on_close` since `close_fired_` was cleared. -/
  closes : ℕ
  /-- What the read thread has read, and what it has called `on_message` with. -/
  input : Bytes
  handed : List Bytes

def fresh : State where
  running := false
  closing := false
  closeFired := false
  wake := none
  reader := .absent
  control := .idle
  buffer := []
  senders := 0
  writing := false
  closes := 0
  input := []
  handed := []

def kReadChunkBytes : ℕ := 8 * 1024

/-- The loop over the bytes of a chunk. -/
def State.scan (s : State) (maxFrameBytes : ℕ) (bytes : Bytes) : ReadState :=
  readBytes maxFrameBytes { buffer := s.buffer } bytes

/-- Where `revents` of the input leads. -/
def Input.next : Input → Reader
  | nothing => .looping
  | error | hangUp => .leaving
  | readable => .reading

inductive Action where
  | startCall | startClear | startRearm | startPipe (ok : Bool) | startSpawn | startThrow
  | close | closeStop | closeWake (full : Bool) | closeJoin | closePipe | closeLock | closeFire
  | closeCalled
  | load | poll (input : Input) | interrupt | pollFail | drain | check | decide
  | read (bytes : Bytes) | readAgain | readEnd | hand | handEnd | fire | called
  | send | lock | unlock

section Steps

variable (maxFrameBytes : ℕ)

inductive Step : State → Action → State → Prop where
  -- start(); the compare_exchange fails while the transport runs
  | startCall {s} : s.control = .idle →
      Step s .startCall (if s.running then s else { s with running := true, control := .claimed })
  | startClear {s} : s.control = .claimed →
      Step s .startClear { s with closing := false, control := .opened }
  | startRearm {s} : s.control = .opened →
      Step s .startRearm { s with closeFired := false, closes := 0, control := .rearmed }
  | startPipe {s} : s.control = .rearmed →
      Step s (.startPipe true) { s with wake := some 0, control := .piped }
  | startFail {s} : s.control = .rearmed →
      Step s (.startPipe false) { s with running := false, control := .idle }
  | startSpawn {s} : s.control = .piped →
      Step s .startSpawn { s with
        reader := .looping, control := .idle, buffer := [], input := [], handed := [] }
  -- no thread can be made; `running_` and the pipe stay as they are
  | startThrow {s} : s.control = .piped → Step s .startThrow { s with control := .idle }
  | close {s} : s.control = .idle →
      Step s .close { s with closing := true, control := .stopping !s.closing }
  | closeStop {s first} : s.control = .stopping first →
      Step s .closeStop { s with
        running := false
        control := if first && s.wake.isSome then .waking else .joining first }
  -- a full pipe takes no byte, and wakes the reader all the same
  | closeWake {s n} (full : Bool) : s.control = .waking → s.wake = some n →
      (full = true → n ≠ 0) → Step s (.closeWake full) { s with
        wake := some (if full then n else n + 1), control := .joining true }
  -- no thread to join, or it is over
  | closeJoin {s first} : s.control = .joining first → s.reader = .absent ∨ s.reader = .exited →
      Step s .closeJoin { s with
        reader := .absent, control := if first then .closingPipe else .locking }
  | closePipe {s} : s.control = .closingPipe →
      Step s .closePipe { s with wake := none, control := .locking }
  | closeLock {s} : s.control = .locking → s.writing = false →
      Step s .closeLock { s with control := .firing }
  | closeFire {s} : s.control = .firing →
      Step s .closeFire { s with
        closeFired := true, control := if s.closeFired then .idle else .calling }
  | closeCalled {s} : s.control = .calling →
      Step s .closeCalled { s with closes := s.closes + 1, control := .idle }
  -- read_loop()
  | load {s} : s.reader = .looping →
      Step s .load { s with reader := if s.running then .polling else .leaving }
  | poll {s n} (input : Input) : s.reader = .polling → s.wake = some n →
      n ≠ 0 ∨ input ≠ .nothing →
      Step s (.poll input) { s with reader := .polled (decide (n ≠ 0)) input }
  | interrupt {s} : s.reader = .polling → Step s .interrupt { s with reader := .looping }
  | pollFail {s} : s.reader = .polling → Step s .pollFail { s with reader := .leaving }
  | drain {s input} : s.reader = .polled true input →
      Step s .drain { s with wake := s.wake.map fun _ => 0, reader := .drained input }
  | notWoken {s input} : s.reader = .polled false input →
      Step s .drain { s with reader := .deciding input }
  | check {s input} : s.reader = .drained input →
      Step s .check { s with reader := if s.closing then .leaving else .deciding input }
  | decide {s input} : s.reader = .deciding input →
      Step s .decide { s with reader := input.next }
  | read {s bytes} : s.reader = .reading → bytes ≠ [] → bytes.length ≤ kReadChunkBytes →
      Step s (.read bytes) { s with
        buffer := (s.scan maxFrameBytes bytes).buffer
        input := s.input ++ bytes
        reader := .handing (s.scan maxFrameBytes bytes).delivered
          (s.scan maxFrameBytes bytes).oversized }
  | readAgain {s} : s.reader = .reading → Step s .readAgain { s with reader := .looping }
  -- the end of the input, or an error
  | readEnd {s} : s.reader = .reading → Step s .readEnd { s with reader := .leaving }
  | hand {s frame frames tooLong} : s.reader = .handing (frame :: frames) tooLong →
      Step s .hand { s with handed := s.handed ++ [frame], reader := .handing frames tooLong }
  | handEnd {s tooLong} : s.reader = .handing [] tooLong →
      Step s .handEnd { s with reader := if tooLong then .leaving else .looping }
  | fire {s} : s.reader = .leaving →
      Step s .fire { s with
        closeFired := true, reader := if s.closeFired then .exited else .calling }
  | called {s} : s.reader = .calling →
      Step s .called { s with closes := s.closes + 1, reader := .exited }
  -- send(), seen from its mutex
  | send {s} : s.running = true → Step s .send { s with senders := s.senders + 1 }
  | lock {s n} : s.senders = n + 1 → s.writing = false →
      Step s .lock { s with senders := n, writing := true }
  | unlock {s} : s.writing = true → Step s .unlock { s with writing := false }

def lifecycle : System State Action where
  Initial s := s = fresh
  Step := Step maxFrameBytes

end Steps

variable {maxFrameBytes : ℕ} {s s' : State} {a : Action}

section Sound

/-- No thread, and no pipe. -/
def State.Clean (s : State) : Prop := s.reader = .absent ∧ s.wake = none

/-- A pipe that close() has not closed yet. Its read thread is not joined, or could not be made. -/
def State.Live (s : State) : Prop := s.wake.isSome

/-- What holds at each stage of start() and close(). -/
def Control.Sound (s : State) : Control → Prop
  | .idle => s.running = false ∧ s.Clean ∨ s.running = true ∧ s.closing = false ∧ s.Live
  | .claimed => s.running = true ∧ s.Clean
  | .opened | .rearmed => s.running = true ∧ s.closing = false ∧ s.Clean
  | .piped => s.running = true ∧ s.closing = false ∧ s.reader = .absent ∧ s.wake.isSome
  | .stopping first => s.closing = true ∧
      (s.running = false ∧ s.Clean ∨ first = true ∧ s.running = true ∧ s.Live)
  | .waking => s.closing = true ∧ s.running = false ∧ s.Live
  | .joining first => s.closing = true ∧ s.running = false ∧
      (s.Clean ∨ first = true ∧ s.Live ∧ (s.reader = .polling → s.wake ≠ some 0))
  | .closingPipe => s.closing = true ∧ s.running = false ∧ s.reader = .absent
  | .locking | .firing | .calling => s.closing = true ∧ s.running = false ∧ s.Clean

/-- What a step of the read thread leaves as it is. -/
structure Beside (s s' : State) : Prop where
  control : s'.control = s.control
  running : s'.running = s.running
  closing : s'.closing = s.closing
  was : s.reader ≠ .absent
  reader : s'.reader ≠ .absent
  wake : s'.wake.isSome = s.wake.isSome
  polling : s'.reader = .polling → s.running = true

theorem sound_beside (hs : s.control.Sound s) (h : Beside s s') : s'.control.Sound s' := by
  obtain ⟨hcontrol, hrunning, hclosing, hwas, hreader, hwake, hpolling⟩ := h
  have hclean : ¬s.Clean := fun hc => hwas hc.1
  have hlive : s.Live → s'.Live := fun hl => hwake.trans hl
  rw [hcontrol]
  cases hc : s.control with
  | idle =>
    rw [hc] at hs
    rcases hs with ⟨-, hs⟩ | ⟨hrun, hopen, hs⟩
    · exact absurd hs hclean
    · exact .inr ⟨hrunning.trans hrun, hclosing.trans hopen, hlive hs⟩
  | claimed =>
    rw [hc] at hs
    exact absurd hs.2 hclean
  | opened | rearmed =>
    rw [hc] at hs
    exact absurd hs.2.2 hclean
  | piped =>
    rw [hc] at hs
    exact absurd hs.2.2.1 hwas
  | stopping first =>
    rw [hc] at hs
    obtain ⟨hcl, ⟨-, hs⟩ | ⟨hfirst, hrun, hs⟩⟩ := hs
    · exact absurd hs hclean
    · exact ⟨hclosing.trans hcl, .inr ⟨hfirst, hrunning.trans hrun, hlive hs⟩⟩
  | waking =>
    rw [hc] at hs
    obtain ⟨hcl, hrun, hs⟩ := hs
    exact ⟨hclosing.trans hcl, hrunning.trans hrun, hlive hs⟩
  | joining first =>
    rw [hc] at hs
    obtain ⟨hcl, hrun, hs | ⟨hfirst, hs, -⟩⟩ := hs
    · exact absurd hs hclean
    · refine ⟨hclosing.trans hcl, hrunning.trans hrun, .inr ⟨hfirst, hlive hs, ?_⟩⟩
      intro hp
      rw [hpolling hp] at hrun
      cases hrun
  | closingPipe =>
    rw [hc] at hs
    exact absurd hs.2.2 hwas
  | locking | firing | calling =>
    rw [hc] at hs
    exact absurd hs.2.2 hclean

theorem input_next_ne (input : Input) : input.next ≠ .absent ∧ input.next ≠ .polling := by
  cases input <;> exact ⟨nofun, nofun⟩

theorem sound_step (hst : Step maxFrameBytes s a s') (hs : s.control.Sound s) :
    s'.control.Sound s' := by
  cases hst with
  | startCall hc =>
    rw [hc] at hs
    cases hrun : s.running with
    | true =>
      rw [if_pos rfl, hc]
      exact hs
    | false =>
      rcases hs with ⟨-, hs⟩ | ⟨hrun', -⟩
      · exact ⟨rfl, hs⟩
      · cases hrun.symm.trans hrun'
  | startClear hc =>
    rw [hc] at hs
    exact ⟨hs.1, rfl, hs.2⟩
  | startRearm hc =>
    rw [hc] at hs
    exact hs
  | startPipe hc =>
    rw [hc] at hs
    exact ⟨hs.1, hs.2.1, hs.2.2.1, rfl⟩
  | startFail hc =>
    rw [hc] at hs
    exact .inl ⟨rfl, hs.2.2⟩
  | startSpawn hc | startThrow hc =>
    rw [hc] at hs
    exact .inr ⟨hs.1, hs.2.1, hs.2.2.2⟩
  | close hc =>
    rw [hc] at hs
    refine ⟨rfl, ?_⟩
    rcases hs with hs | ⟨hrun, hopen, hs⟩
    · exact .inl hs
    · exact .inr ⟨by rw [hopen]; rfl, hrun, hs⟩
  | @closeStop first hc =>
    rw [hc] at hs
    obtain ⟨hcl, ⟨-, hs⟩ | ⟨rfl, -, hs⟩⟩ := hs
    · have hnone : (first && s.wake.isSome) = false := by simp [hs.2]
      simp only [hnone]
      exact ⟨hcl, rfl, .inl hs⟩
    · have hwake : s.wake.isSome = true := hs
      simp only [hwake, Bool.and_self, if_true]
      exact ⟨hcl, rfl, hs⟩
  | @closeWake n full hc hw hfull =>
    rw [hc] at hs
    refine ⟨hs.1, hs.2.1, .inr ⟨rfl, rfl, ?_⟩⟩
    intro _ hzero
    cases full with
    | true => exact hfull rfl (by simpa using hzero)
    | false => simp at hzero
  | @closeJoin first hc hr =>
    rw [hc] at hs
    obtain ⟨hcl, hrun, hs⟩ := hs
    cases first with
    | true => exact ⟨hcl, hrun, rfl⟩
    | false =>
      rcases hs with hs | ⟨hfirst, -⟩
      · exact ⟨hcl, hrun, rfl, hs.2⟩
      · cases hfirst
  | closePipe hc =>
    rw [hc] at hs
    exact ⟨hs.1, hs.2.1, hs.2.2, rfl⟩
  | closeLock hc _ =>
    rw [hc] at hs
    exact hs
  | closeFire hc =>
    rw [hc] at hs
    obtain ⟨hcl, hrun, hs⟩ := hs
    cases hf : s.closeFired with
    | true => exact .inl ⟨hrun, hs⟩
    | false => exact ⟨hcl, hrun, hs⟩
  | closeCalled hc =>
    rw [hc] at hs
    exact .inl hs.2
  | load hr =>
    refine sound_beside hs ⟨rfl, rfl, rfl, by simp [hr], ?_, rfl, ?_⟩
    · cases s.running <;> exact nofun
    · cases s.running
      · exact nofun
      · exact fun _ => rfl
  | poll input hr hw _ | drain hr | notWoken hr =>
    exact sound_beside hs ⟨rfl, rfl, rfl, by simp [hr], nofun, by simp, nofun⟩
  | interrupt hr | pollFail hr | readAgain hr | readEnd hr | hand hr | called hr | read hr _ _ =>
    exact sound_beside hs ⟨rfl, rfl, rfl, by simp [hr], nofun, rfl, nofun⟩
  | check hr =>
    refine sound_beside hs ⟨rfl, rfl, rfl, by simp [hr], ?_, rfl, ?_⟩ <;>
      cases s.closing <;> exact nofun
  | @decide input hr =>
    obtain ⟨habsent, hpolling⟩ := input_next_ne input
    exact sound_beside hs ⟨rfl, rfl, rfl, by simp [hr], habsent, rfl, fun h => absurd h hpolling⟩
  | @handEnd tooLong hr =>
    refine sound_beside hs ⟨rfl, rfl, rfl, by simp [hr], ?_, rfl, ?_⟩ <;>
      cases tooLong <;> exact nofun
  | fire hr =>
    refine sound_beside hs ⟨rfl, rfl, rfl, by simp [hr], ?_, rfl, ?_⟩ <;>
      cases s.closeFired <;> exact nofun
  | send _ => exact hs
  | lock _ _ => exact hs
  | unlock _ => exact hs

end Sound

section Fired

def Reader.calls : Reader → ℕ
  | .calling => 1
  | _ => 0

def Control.calls : Control → ℕ
  | .calling => 1
  | _ => 0

/-- The calls of `on_close` that have been made or are on their way. -/
def State.fired (s : State) : ℕ := s.closes + s.reader.calls + s.control.calls

theorem fired_step (hst : Step maxFrameBytes s a s') (hs : s.control.Sound s)
    (h : s.fired = s.closeFired.toNat) : s'.fired = s'.closeFired.toNat := by
  unfold State.fired at h ⊢
  cases hst with
  | startCall hc =>
    rw [hc] at h
    cases hrun : s.running with
    | true => simpa [hc] using h
    | false => exact h
  | startRearm hc =>
    rw [hc] at hs
    simp [hs.2.2.1, Reader.calls, Control.calls]
  | startSpawn hc =>
    rw [hc] at hs h
    rw [hs.2.2.1] at h
    exact h
  | @closeStop first hc =>
    rw [hc] at h
    cases hwake : first && s.wake.isSome <;> exact h
  | @closeJoin first hc hr =>
    rw [hc] at h
    have hcalls : s.reader.calls = 0 := by rcases hr with hr | hr <;> rw [hr] <;> rfl
    rw [hcalls] at h
    cases first <;> exact h
  | closeFire hc =>
    rw [hc] at h
    cases hf : s.closeFired with
    | true => simpa [hf, Control.calls] using h
    | false => simp_all [Control.calls]
  | closeCalled hc =>
    rw [hc] at h
    simp only [Control.calls] at h ⊢
    omega
  | startClear hc | startPipe hc | startFail hc | startThrow hc | close hc | closeWake _ hc _ _
  | closePipe hc | closeLock hc _ =>
    rw [hc] at h
    exact h
  | load hr =>
    rw [hr] at h
    cases hrun : s.running <;> exact h
  | check hr =>
    rw [hr] at h
    cases hcl : s.closing <;> exact h
  | @decide input hr =>
    rw [hr] at h
    cases input <;> exact h
  | @handEnd tooLong hr =>
    rw [hr] at h
    cases tooLong <;> exact h
  | fire hr =>
    rw [hr] at h
    cases hf : s.closeFired with
    | true => simpa [hf, Reader.calls] using h
    | false => simp_all [Reader.calls]
  | called hr =>
    rw [hr] at h
    simp only [Reader.calls] at h ⊢
    omega
  | poll _ hr _ _ | interrupt hr | pollFail hr | drain hr | notWoken hr | read hr _ _
  | readAgain hr | readEnd hr | hand hr =>
    rw [hr] at h
    exact h
  | send _ | lock _ _ | unlock _ => exact h

end Fired

section Input

def Reader.pending : Reader → List Bytes
  | .handing frames _ => frames
  | _ => []

/-- Nothing is read any more in this run of the loop. -/
def Reader.done : Reader → Bool
  | .handing _ _ | .leaving | .calling | .exited | .absent => true
  | _ => false

/-- What has been read, against what has been done with it. -/
structure Reads (maxFrameBytes : ℕ) (s : State) : Prop where
  handed : s.handed ++ s.reader.pending = (readBytes maxFrameBytes {} s.input).delivered
  buffer : s.buffer = (readBytes maxFrameBytes {} s.input).buffer
  oversized : ∀ frames tooLong, s.reader = .handing frames tooLong →
    tooLong = (readBytes maxFrameBytes {} s.input).oversized
  stopped : (readBytes maxFrameBytes {} s.input).oversized = true → s.reader.done = true

/-- Frames that were delivered before play no part. -/
theorem readBytes_delivered (buffer cs : Bytes) (delivered : List Bytes) :
    readBytes maxFrameBytes { buffer, delivered } cs =
      { readBytes maxFrameBytes { buffer } cs with
        delivered := delivered ++ (readBytes maxFrameBytes { buffer } cs).delivered } := by
  induction cs generalizing buffer delivered with
  | nil => simp [readBytes]
  | cons c cs ih =>
    simp only [readBytes]
    split
    · simp only [ReadState.endLine]
      rw [ih [] (if buffer.stripCr = [] then delivered else delivered ++ [buffer.stripCr]),
        ih [] (if buffer.stripCr = [] then [] else [] ++ [buffer.stripCr])]
      split <;> simp
    · split
      · simp
      · exact ih _ _

theorem length_delivered_readBytes (maxFrameBytes : ℕ) (buffer cs : Bytes) :
    (readBytes maxFrameBytes { buffer } cs).delivered.length ≤ cs.length := by
  induction cs generalizing buffer with
  | nil => simp [readBytes]
  | cons c cs ih =>
    simp only [readBytes, List.length_cons]
    split
    · simp only [ReadState.endLine]
      rw [readBytes_delivered]
      have hrest := ih []
      split <;> simp <;> omega
    · split
      · simp
      · exact Nat.le_succ_of_le (ih _)

/-- A chunk behind what has been read. -/
theorem readBytes_scan (h : Reads maxFrameBytes s)
    (hover : (readBytes maxFrameBytes {} s.input).oversized = false) (bytes : Bytes) :
    readBytes maxFrameBytes {} (s.input ++ bytes) = { s.scan maxFrameBytes bytes with
      delivered := (readBytes maxFrameBytes {} s.input).delivered ++
        (s.scan maxFrameBytes bytes).delivered } := by
  rw [readBytes_append _ _ rfl, hover, if_neg Bool.false_ne_true, State.scan, h.buffer]
  generalize readBytes maxFrameBytes {} s.input = r at hover
  obtain ⟨buffer, delivered, oversized⟩ := r
  subst hover
  exact readBytes_delivered buffer bytes delivered

/-- A step that reads and hands over nothing. -/
theorem Reads.move (h : Reads maxFrameBytes s) (hinput : s'.input = s.input)
    (hbuffer : s'.buffer = s.buffer) (hhanded : s'.handed = s.handed)
    (hpending : s.reader.pending = [] ∧ s'.reader.pending = [])
    (hhanding : ∀ frames tooLong, s'.reader ≠ .handing frames tooLong)
    (hdone : s.reader.done = true → s'.reader.done = true) : Reads maxFrameBytes s' := by
  have hold := h.handed
  rw [hpending.1] at hold
  refine ⟨?_, ?_, fun frames tooLong hr => absurd hr (hhanding frames tooLong), ?_⟩
  · rwa [hpending.2, hhanded, hinput]
  · rw [hbuffer, hinput, h.buffer]
  · rw [hinput]
    exact fun hover => hdone (h.stopped hover)

theorem input_next_pending (input : Input) :
    input.next.pending = [] ∧ ∀ frames tooLong, input.next ≠ .handing frames tooLong := by
  cases input <;> exact ⟨rfl, nofun⟩

theorem reads_step (hst : Step maxFrameBytes s a s') (h : Reads maxFrameBytes s) :
    Reads maxFrameBytes s' := by
  cases hst with
  | startSpawn hc => exact ⟨rfl, rfl, nofun, nofun⟩
  | startCall hc =>
    cases hrun : s.running with
    | true => exact h
    | false => exact ⟨h.handed, h.buffer, h.oversized, h.stopped⟩
  | closeJoin hc hr =>
    refine h.move rfl rfl rfl ⟨?_, rfl⟩ nofun fun _ => rfl
    rcases hr with hr | hr <;> rw [hr] <;> rfl
  | @read bytes hr hne hlen =>
    have hover : (readBytes maxFrameBytes {} s.input).oversized = false := by
      by_contra hover
      have hdone := h.stopped (by simpa using hover)
      rw [hr] at hdone
      cases hdone
    have hscan := readBytes_scan h hover bytes
    have hhanded : s.handed = (readBytes maxFrameBytes {} s.input).delivered := by
      simpa [hr, Reader.pending] using h.handed
    refine ⟨?_, ?_, ?_, fun _ => rfl⟩
    · rw [hscan, ← hhanded]
      rfl
    · rw [hscan]
    · intro frames tooLong he
      cases he
      rw [hscan]
  | @hand frame frames tooLong hr =>
    have hhanded := h.handed
    rw [hr] at hhanded
    refine ⟨?_, h.buffer, ?_, fun _ => rfl⟩
    · rw [← hhanded]
      simp [Reader.pending]
    · intro frames' tooLong' he
      cases he
      exact h.oversized _ _ hr
  | @handEnd tooLong hr =>
    have hhanded := h.handed
    rw [hr] at hhanded
    have hover := h.oversized _ _ hr
    cases tooLong with
    | true => exact ⟨hhanded, h.buffer, nofun, fun _ => rfl⟩
    | false => exact ⟨hhanded, h.buffer, nofun, fun hyes => by rw [hyes] at hover; cases hover⟩
  | load hr =>
    refine h.move rfl rfl rfl ⟨by rw [hr]; rfl, ?_⟩ ?_ ?_ <;>
      cases s.running <;> simp [Reader.pending, Reader.done, hr]
  | check hr =>
    refine h.move rfl rfl rfl ⟨by rw [hr]; rfl, ?_⟩ ?_ ?_ <;>
      cases s.closing <;> simp [Reader.pending, Reader.done, hr]
  | fire hr =>
    refine h.move rfl rfl rfl ⟨by rw [hr]; rfl, ?_⟩ ?_ ?_ <;>
      cases s.closeFired <;> simp [Reader.pending, Reader.done]
  | @decide input hr =>
    obtain ⟨hpending, hhanding⟩ := input_next_pending input
    refine h.move rfl rfl rfl ⟨by rw [hr]; rfl, hpending⟩ hhanding ?_
    rw [hr]
    exact nofun
  | poll _ hr _ _ | interrupt hr | pollFail hr | drain hr | notWoken hr | readAgain hr
  | readEnd hr | called hr =>
    refine h.move rfl rfl rfl ⟨by rw [hr]; rfl, rfl⟩ nofun ?_
    rw [hr]
    simp [Reader.done]
  | _ => exact ⟨h.handed, h.buffer, h.oversized, h.stopped⟩

end Input

section Safe

theorem invariant_reachable (h : (lifecycle maxFrameBytes).Reachable Free s) :
    s.control.Sound s ∧ s.fired = s.closeFired.toNat ∧ Reads maxFrameBytes s := by
  refine h.invariant
    (P := fun s => s.control.Sound s ∧ s.fired = s.closeFired.toNat ∧ Reads maxFrameBytes s) ?_ ?_
  · rintro _ rfl
    exact ⟨.inl ⟨rfl, rfl, rfl⟩, rfl, rfl, rfl, nofun, nofun⟩
  · intro s a s' _ ⟨hsound, hfired, hreads⟩ _ hst
    exact ⟨sound_step hst hsound, fired_step hst hsound hfired, reads_step hst hreads⟩

/-- A started transport whose read thread sleeps in `poll`. -/
def asleep : State :=
  { fresh with running := true, wake := some 0, reader := .polling }

theorem asleep_reachable : (lifecycle maxFrameBytes).Reachable Free asleep := by
  have h : (lifecycle maxFrameBytes).Reachable Free fresh := .initial rfl
  have h₁ := h.step trivial (.startCall rfl)
  have h₂ := h₁.step trivial (.startClear rfl)
  have h₃ := h₂.step trivial (.startRearm rfl)
  have h₄ := h₃.step trivial (.startPipe rfl)
  have h₅ := h₄.step trivial (.startSpawn rfl)
  exact h₅.step trivial (.load rfl)

/-- In start(), behind the compare_exchange. -/
def Control.InStart : Control → Prop
  | .claimed | .opened | .rearmed | .piped => True
  | _ => False

/-- close() has returned, and start() has not been called since. -/
structure Closed (s : State) : Prop where
  stopped : s.running = false
  clean : s.Clean
  fired : s.closeFired = true
  once : s.closes = 1

/-- The read thread never polls a pipe that is closed; a start() that gets past its claim replaces
no thread that is not joined and no pipe that is open; `on_close` is called once at most from one
start() to the next; and the frames handed over are those of the bytes read, in order. -/
theorem lifecycle_safe (h : (lifecycle maxFrameBytes).Reachable Free s) :
    (s.reader ≠ .absent → s.wake.isSome) ∧
    (s.control.InStart → s.reader = .absent ∧ (s.control ≠ .piped → s.wake = none)) ∧
    s.closes ≤ 1 ∧
    s.handed ++ s.reader.pending = framesOf maxFrameBytes s.input := by
  obtain ⟨hsound, hfired, hreads⟩ := invariant_reachable h
  refine ⟨?_, ?_, ?_, ?_⟩
  · intro hr
    cases hc : s.control <;> rw [hc] at hsound <;> simp only [Control.Sound] at hsound <;>
      grind [State.Clean, State.Live]
  · intro hstart
    cases hc : s.control <;> rw [hc] at hsound hstart <;> first | exact hstart.elim | skip
    all_goals grind [State.Clean, Control.Sound]
  · have hle := Bool.toNat_le s.closeFired
    unfold State.fired at hfired
    omega
  · have hspec := (readBytes_spec s.input [] [] (by simp) (Nat.zero_le maxFrameBytes)).1
    simpa using hreads.handed.trans hspec

/-- The read thread reads a frame and a half, and hands the one over. -/
theorem frame_is_read : ∃ s : State, s.input = "ab\nc".toList ∧ s.handed = ["ab".toList] ∧
    s.wake.isSome ∧ s.closes ≤ 1 ∧ s.handed ++ s.reader.pending = framesOf 16 s.input := by
  have h₀ : (lifecycle 16).Reachable Free asleep := asleep_reachable
  have h₁ := h₀.step trivial (.poll .readable rfl rfl (.inr (by decide)))
  have h₂ := h₁.step trivial (.notWoken rfl)
  have h₃ := h₂.step trivial (.decide rfl)
  have h₄ := h₃.step trivial (@Step.read 16 _ "ab\nc".toList rfl (by decide) (by decide))
  have h₅ := h₄.step trivial (.hand rfl)
  obtain ⟨hopen, -, honce, hframes⟩ := lifecycle_safe h₅
  exact ⟨_, rfl, rfl, hopen fun he => (by cases he), honce, hframes⟩

end Safe

end Mcp.Stdio.Lifecycle
