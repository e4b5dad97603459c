import Mathlib.Data.Finset.Basic
import Mathlib.Data.Multiset.AddSub
import Mcp.Stdio.Framing

/-! What concurrent senders put on the descriptor, and what the peer's read loop makes of it. -/
namespace Mcp.Stdio

open Transition Bytes

/-- A frame that survives the reader: it is not empty, does not end in a carriage return, and is
not too long. -/
def Sendable (maxFrameBytes : ℕ) (frame : Bytes) : Prop :=
  frame ≠ [] ∧ frame.getLast? ≠ some '\r' ∧ frame.length ≤ maxFrameBytes

def succeeded (sends : List Sent) : List Bytes :=
  (sends.filter (·.result = .ok)).map (·.frame)

/-- The frames of the calls that got as far as the mutex. -/
def entered (sends : List Sent) : List Bytes :=
  (sends.filter fun sent => sent.result ≠ .notConnected ∧ sent.result ≠ .invalidArgument).map
    (·.frame)

/-- No line is ended after a failed `::write` has left a part of another one behind. -/
def Clean (sends : List Sent) : Prop :=
  sends.Pairwise fun sent later =>
    sent.written ≠ [] → '\n' ∉ sent.written → '\n' ∉ later.written

/-- What a call has written, by its result. -/
def Sound (maxFrameBytes : ℕ) (sent : Sent) : Prop :=
  match sent.result with
  | .ok => sent.written = sent.frame ++ ['\n'] ∧ '\n' ∉ sent.frame ∧
      Sendable maxFrameBytes sent.frame
  | .failed _ => '\n' ∉ sent.frame ∧ sent.written <+: sent.frame
  | .notConnected => sent.written = []
  | .invalidArgument => sent.written = [] ∧ '\n' ∈ sent.frame

section Wire

variable {maxFrameBytes : ℕ} {sent : Sent} {sends : List Sent} {frame pre tail : Bytes}

theorem Sound.ok (h : Sound maxFrameBytes sent) (hok : sent.result = .ok) :
    sent.written = sent.frame ++ ['\n'] ∧ '\n' ∉ sent.frame ∧
      Sendable maxFrameBytes sent.frame := by
  unfold Sound at h
  rwa [hok] at h

/-- A send succeeds if and only if it has ended its line. -/
theorem Sound.mem_iff (h : Sound maxFrameBytes sent) :
    '\n' ∈ sent.written ↔ sent.result = .ok := by
  unfold Sound at h
  cases hr : sent.result with
  | ok =>
    rw [hr] at h
    simp [h.1]
  | notConnected =>
    rw [hr] at h
    simp [show sent.written = [] from h]
  | invalidArgument =>
    rw [hr] at h
    simp [h.1]
  | failed errno =>
    rw [hr] at h
    have hlf : '\n' ∉ sent.written := fun hmem => h.1 (h.2.subset hmem)
    simp [hlf]

theorem succeeded_eq_nil (h : ∀ sent ∈ sends, Sound maxFrameBytes sent) :
    succeeded sends = [] ↔ ∀ sent ∈ sends, '\n' ∉ sent.written := by
  constructor
  · intro hnil sent hsent hmem
    have hok := (h sent hsent).mem_iff.mp hmem
    have hin : sent.frame ∈ succeeded sends :=
      List.mem_map_of_mem (List.mem_filter.mpr ⟨hsent, decide_eq_true hok⟩)
    rw [hnil] at hin
    cases hin
  · intro hall
    rw [succeeded, List.map_eq_nil_iff, List.filter_eq_nil_iff]
    intro sent hsent hok
    exact hall sent hsent ((h sent hsent).mem_iff.mpr (of_decide_eq_true hok))

theorem stripCr_of_sendable (h : Sendable maxFrameBytes frame) : (pre ++ frame).stripCr =
    pre ++ frame := by
  obtain ⟨hne, hcr, -⟩ := h
  rw [stripCr, if_neg]
  rw [List.getLast?_append_of_ne_nil _ hne]
  exact hcr

/-- A frame sent on a line that something stands on already is not what the reader delivers. -/
theorem framesOf_send (h : Sendable maxFrameBytes frame) (hlf : '\n' ∉ frame) (hpre : '\n' ∉ pre)
    {frames : List Bytes} : framesOf maxFrameBytes (pre ++ frame ++ '\n' :: tail) =
      frame :: frames ↔ pre = [] ∧ framesOf maxFrameBytes tail = frames := by
  have hline : '\n' ∉ pre ++ frame := by simp [hlf, hpre]
  by_cases hle : (pre ++ frame).length ≤ maxFrameBytes
  · have hne : pre ++ frame ≠ [] := by simp [h.1]
    rw [framesOf_line hline hle, stripCr_of_sendable h, if_neg hne]
    simp
  · rw [(framesOf_of_lt hline (Nat.lt_of_not_le hle) _).1]
    constructor
    · intro hnil
      cases hnil
    · rintro ⟨rfl, -⟩
      exact absurd h.2.2 hle

/-- The reader delivers what has been sent successfully exactly when no success comes after
leftovers: those in front, or those of a failed send. -/
theorem framesOf_sends (hsound : ∀ sent ∈ sends, Sound maxFrameBytes sent) (pre : Bytes)
    (hpre : '\n' ∉ pre) (htail : '\n' ∉ tail) :
    framesOf maxFrameBytes (pre ++ sends.flatMap (·.written) ++ tail) = succeeded sends ↔
      (pre ≠ [] → succeeded sends = []) ∧ Clean sends := by
  induction sends generalizing pre with
  | nil =>
    have hnone : '\n' ∉ pre ++ tail := by simp [hpre, htail]
    simp [succeeded, Clean, framesOf_of_not_mem hnone]
  | cons sent sends ih =>
    have hrest : ∀ sent ∈ sends, Sound maxFrameBytes sent := fun s hs => hsound s (by simp [hs])
    rw [Clean, List.pairwise_cons]
    by_cases hok : sent.result = .ok
    · obtain ⟨hwritten, hlf, hsendable⟩ := (hsound sent (by simp)).ok hok
      have hmem := (hsound sent (by simp)).mem_iff.mpr hok
      have hsucceeded : succeeded (sent :: sends) = sent.frame :: succeeded sends := by
        simp [succeeded, hok]
      have hbytes : pre ++ (sent :: sends).flatMap (·.written) ++ tail =
          pre ++ sent.frame ++ '\n' :: (sends.flatMap (·.written) ++ tail) := by
        simp [hwritten]
      have hnext := ih hrest [] (by simp)
      rw [List.nil_append] at hnext
      rw [hsucceeded, hbytes, framesOf_send hsendable hlf hpre, hnext]
      constructor
      · rintro ⟨rfl, -, hclean⟩
        exact ⟨fun h => absurd rfl h, fun _ _ _ h => absurd hmem h, hclean⟩
      · rintro ⟨hnil, -, hclean⟩
        refine ⟨?_, fun h => absurd rfl h, hclean⟩
        by_contra hne
        cases hnil hne
    · have hnl := mt (hsound sent (by simp)).mem_iff.mp hok
      have hsucceeded : succeeded (sent :: sends) = succeeded sends := by
        simp [succeeded, hok]
      have hbytes : pre ++ (sent :: sends).flatMap (·.written) ++ tail =
          (pre ++ sent.written) ++ sends.flatMap (·.written) ++ tail := by simp
      rw [hsucceeded, hbytes, ih hrest _ (by simp [hpre, hnl])]
      constructor
      · rintro ⟨hnil, hclean⟩
        refine ⟨fun hne => hnil (by simp [hne]), ?_, hclean⟩
        intro later hlater hne _
        exact (succeeded_eq_nil hrest).mp (hnil (by simp [hne])) later hlater
      · rintro ⟨hnil, hhead, hclean⟩
        refine ⟨?_, hclean⟩
        intro hne
        by_cases hempty : pre = []
        · have hwritten : sent.written ≠ [] := by
            rintro h
            exact hne (by simp [hempty, h])
          exact (succeeded_eq_nil hrest).mpr fun later hlater => hhead later hlater hwritten hnl
        · exact hnil hempty

end Wire

/-- The invariant of the senders: the descriptor carries what the calls that have returned have
written, one after the other, and then what the holder of the mutex has. -/
structure Orderly (maxFrameBytes : ℕ) (s : State) : Prop where
  locking : ∀ t frame, s.pc t = .locking frame → '\n' ∉ frame ∧ Sendable maxFrameBytes frame
  holder : ∀ t written left, s.pc t = .writing written left → s.writeMutex = some t ∧
    '\n' ∉ written ++ left ∧ Sendable maxFrameBytes (written ++ left) ∧
    s.out = s.returned.flatMap (·.written) ++ written ∧
    s.taken = entered s.returned ++ [written ++ left]
  held : ∀ t, s.writeMutex = some t → ∃ written left, s.pc t = .writing written left
  free : s.writeMutex = none →
    s.out = s.returned.flatMap (·.written) ∧ s.taken = entered s.returned
  sound : ∀ sent ∈ s.returned, Sound maxFrameBytes sent

/-- Every frame sent is one that the reader takes, unless it has a line feed in it. -/
def Acceptable (maxFrameBytes : ℕ) (_ : State) (a : Action) : Prop :=
  ∀ t frame, a = .call t frame → '\n' ∈ frame ∨ Sendable maxFrameBytes frame

/-- The frames that a step asks a transport that runs to send, those with a line feed aside. -/
def asked (s : State) : Action → Multiset Bytes
  | .call _ frame => if s.running = true ∧ '\n' ∉ frame then {frame} else 0
  | _ => 0

/-- The senders, with all that they have been asked to send. -/
def askers : System (State × Multiset Bytes) Action where
  Initial x := x = (fresh, 0)
  Step x a y := Step x.1 a y.1 ∧ y.2 = x.2 + asked x.1 a

/-- Each frame that was asked for has been taken into the mutex, or waits for it in a call. -/
def Kept (s : State) (frames : Multiset Bytes) : Prop :=
  ∃ waiting : Finset (ℕ × Bytes),
    (∀ t frame, (t, frame) ∈ waiting ↔ s.pc t = .locking frame) ∧
      frames = s.taken + waiting.val.map Prod.snd

section Senders

variable {maxFrameBytes : ℕ} {s s' : State} {a : Action} {t u : ℕ} {frame written left : Bytes}
  {sent : Sent}

theorem orderly_fresh : Orderly maxFrameBytes fresh where
  locking _ _ h := by cases h
  holder _ _ _ h := by cases h
  held _ h := by cases h
  free _ := ⟨rfl, rfl⟩
  sound _ h := by cases h

theorem entered_append (sends : List Sent) (sent : Sent) :
    entered (sends ++ [sent]) = entered sends ++
      if sent.result ≠ .notConnected ∧ sent.result ≠ .invalidArgument then [sent.frame]
      else [] := by
  simp only [entered, List.filter_append, List.map_append]
  by_cases h : sent.result ≠ .notConnected ∧ sent.result ≠ .invalidArgument <;> simp [h]

/-- A call that is turned away leaves no trace on the descriptor. -/
theorem orderly_reject {result : SendResult} (h : Orderly maxFrameBytes s)
    (hresult : result = .notConnected ∨ (result = .invalidArgument ∧ '\n' ∈ frame)) :
    Orderly maxFrameBytes (s.reject frame result) := by
  have hentered : entered (s.returned ++ [{ frame, written := [], result }]) =
      entered s.returned := by
    rw [entered_append]
    rcases hresult with rfl | ⟨rfl, -⟩ <;> simp
  refine ⟨h.locking, ?_, h.held, ?_, ?_⟩
  · intro t written left hpc
    obtain ⟨hm, hlf, hsendable, hout, htaken⟩ := h.holder t written left hpc
    exact ⟨hm, hlf, hsendable, by simp [State.reject, hout], by
      simp only [State.reject]
      rw [htaken, hentered]⟩
  · intro hm
    obtain ⟨hout, htaken⟩ := h.free hm
    exact ⟨by simp [State.reject, hout], by
      simp only [State.reject]
      rw [htaken, hentered]⟩
  · intro sent hsent
    rcases List.mem_append.mp hsent with hold | hnew
    · exact h.sound sent hold
    · obtain rfl := List.mem_singleton.mp hnew
      rcases hresult with rfl | ⟨rfl, hlf⟩
      · rfl
      · exact ⟨rfl, hlf⟩

theorem Orderly.eq_of_writing (h : Orderly maxFrameBytes s) (hm : s.writeMutex = some t)
    (hu : s.pc u = .writing written left) : u = t := by
  have hholder := (h.holder u written left hu).1
  rw [hm, Option.some.injEq] at hholder
  exact hholder.symm

theorem Orderly.not_writing (h : Orderly maxFrameBytes s) (hm : s.writeMutex = none) :
    s.pc u ≠ .writing written left := by
  intro hu
  have hholder := (h.holder u written left hu).1
  rw [hm] at hholder
  cases hholder

/-- A call queues up for the mutex. -/
theorem orderly_queue (h : Orderly maxFrameBytes s) (hpc : s.pc t = .idle)
    (hlf : '\n' ∉ frame) (hsendable : Sendable maxFrameBytes frame) :
    Orderly maxFrameBytes (s.setPC t (.locking frame)) := by
  refine ⟨?_, ?_, ?_, h.free, h.sound⟩
  · intro u frame' hu
    rcases update_cases hu with ⟨-, he⟩ | ⟨-, hu⟩
    · cases he
      exact ⟨hlf, hsendable⟩
    · exact h.locking u frame' hu
  · intro u written left hu
    rcases update_cases hu with ⟨-, he⟩ | ⟨-, hu⟩
    · cases he
    · exact h.holder u written left hu
  · intro u hu
    obtain ⟨written, left, hwriting⟩ := h.held u hu
    have he : u ≠ t := by
      rintro rfl
      rw [hpc] at hwriting
      cases hwriting
    exact ⟨written, left, by simpa [State.setPC, he] using hwriting⟩

theorem orderly_lock (h : Orderly maxFrameBytes s) (hpc : s.pc t = .locking frame)
    (hm : s.writeMutex = none) : Orderly maxFrameBytes { s with
      writeMutex := some t
      pc := Function.update s.pc t (.writing [] frame)
      taken := s.taken ++ [frame] } := by
  obtain ⟨hlf, hsendable⟩ := h.locking t frame hpc
  obtain ⟨hout, htaken⟩ := h.free hm
  refine ⟨?_, ?_, ?_, nofun, h.sound⟩
  · intro u frame' hu
    rcases update_cases hu with ⟨-, he⟩ | ⟨-, hu⟩
    · cases he
    · exact h.locking u frame' hu
  · intro u written left hu
    rcases update_cases hu with ⟨rfl, he⟩ | ⟨-, hu⟩
    · cases he
      exact ⟨rfl, hlf, hsendable, by simp [hout], by simp [htaken]⟩
    · exact absurd hu (h.not_writing hm)
  · intro u hu
    obtain rfl : t = u := by simpa using hu
    exact ⟨[], frame, by simp⟩

/-- Some more bytes of the holder's frame go through. -/
theorem orderly_write (h : Orderly maxFrameBytes s) (hpc : s.pc t = .writing written left) (n : ℕ) :
    Orderly maxFrameBytes { s with
      out := s.out ++ left.take n
      pc := Function.update s.pc t (.writing (written ++ left.take n) (left.drop n)) } := by
  obtain ⟨hm, hlf, hsendable, hout, htaken⟩ := h.holder t written left hpc
  have hframe : written ++ left.take n ++ left.drop n = written ++ left := by simp
  refine ⟨?_, ?_, ?_, ?_, h.sound⟩
  · intro u frame' hu
    rcases update_cases hu with ⟨-, he⟩ | ⟨-, hu⟩
    · cases he
    · exact h.locking u frame' hu
  · intro u written' left' hu
    rcases update_cases hu with ⟨rfl, he⟩ | ⟨hne, hu⟩
    · cases he
      rw [hframe]
      exact ⟨hm, hlf, hsendable, by simp [hout], htaken⟩
    · exact absurd (h.eq_of_writing hm hu) hne
  · intro u hu
    obtain rfl : t = u := by simpa [hm] using hu
    exact ⟨_, _, Function.update_self ..⟩
  · intro hnone
    rw [hm] at hnone
    cases hnone

/-- The call that holds the mutex returns, with what it has written of its frame on the
descriptor. -/
theorem orderly_leave (h : Orderly maxFrameBytes s) (hpc : s.pc t = .writing written left)
    (more : Bytes) (hsent : Sound maxFrameBytes sent) (hframe : sent.frame = written ++ left)
    (hwritten : sent.written = written ++ more)
    (hresult : sent.result ≠ .notConnected ∧ sent.result ≠ .invalidArgument) :
    Orderly maxFrameBytes ({ s with out := s.out ++ more }.leave t sent) := by
  obtain ⟨hm, -, -, hout, htaken⟩ := h.holder t written left hpc
  refine ⟨?_, ?_, nofun, ?_, ?_⟩
  · intro u frame hu
    rcases update_cases hu with ⟨-, he⟩ | ⟨-, hu⟩
    · cases he
    · exact h.locking u frame hu
  · intro u written' left' hu
    rcases update_cases hu with ⟨-, he⟩ | ⟨hne, hu⟩
    · cases he
    · exact absurd (h.eq_of_writing hm hu) hne
  · rintro -
    refine ⟨by simp [State.leave, hout, hwritten], ?_⟩
    simp only [State.leave]
    rw [entered_append, if_pos hresult, htaken, hframe]
  · intro sent' hmem
    rcases List.mem_append.mp hmem with hold | hnew
    · exact h.sound sent' hold
    · obtain rfl := List.mem_singleton.mp hnew
      exact hsent

theorem orderly_step (hs : Step s a s') (hok : Acceptable maxFrameBytes s a)
    (h : Orderly maxFrameBytes s) : Orderly maxFrameBytes s' := by
  cases hs with
  | run running => exact ⟨h.locking, h.holder, h.held, h.free, h.sound⟩
  | @call t frame hpc =>
    unfold State.call
    split
    · exact orderly_reject h (.inl rfl)
    · split
      · next hlf => exact orderly_reject h (.inr ⟨rfl, hlf⟩)
      · next hlf => exact orderly_queue h hpc hlf ((hok t frame rfl).resolve_left hlf)
  | lock hpc hm => exact orderly_lock h hpc hm
  | write hpc _ _ => exact orderly_write h hpc _
  | interrupt _ => exact h
  | @fail t written left errno hpc =>
    obtain ⟨-, hlf, -⟩ := h.holder t written left hpc
    have hsent : Sound maxFrameBytes
        { frame := written ++ left, written, result := .failed errno } :=
      ⟨hlf, List.prefix_append written left⟩
    simpa using orderly_leave h hpc [] hsent rfl (by simp) (by simp)
  | @newline t written hpc =>
    obtain ⟨-, hlf, hsendable, -⟩ := h.holder t written [] hpc
    rw [List.append_nil] at hlf hsendable
    have hsent : Sound maxFrameBytes
        { frame := written, written := written ++ ['\n'], result := .ok } :=
      ⟨rfl, hlf, hsendable⟩
    exact orderly_leave h hpc ['\n'] hsent (by simp) rfl (by simp)

theorem orderly_reachable (hs : senders.Reachable (Acceptable maxFrameBytes) s) :
    Orderly maxFrameBytes s := by
  refine hs.invariant (P := Orderly maxFrameBytes) ?_ ?_
  · rintro s rfl
    exact orderly_fresh
  · intro s a s' _ h hok hst
    exact orderly_step hst hok h

/-- What the descriptor carries behind the calls that have returned is the beginning of a frame. -/
theorem exists_tail (h : Orderly maxFrameBytes s) :
    ∃ tail, '\n' ∉ tail ∧ s.out = s.returned.flatMap (·.written) ++ tail := by
  cases hm : s.writeMutex with
  | none => exact ⟨[], by simp, by simp [(h.free hm).1]⟩
  | some t =>
    obtain ⟨written, left, hpc⟩ := h.held t hm
    obtain ⟨-, hlf, -, hout, -⟩ := h.holder t written left hpc
    exact ⟨written, fun hmem => hlf (List.mem_append_left _ hmem), hout⟩

/-- What the peer's read loop delivers, at any moment. -/
theorem delivered_iff_clean (h : Orderly maxFrameBytes s) {polls : List Poll}
    (hpolls : received polls = s.out) :
    (readLoop maxFrameBytes {} polls).delivered = succeeded s.returned ↔ Clean s.returned := by
  obtain ⟨tail, htail, hout⟩ := exists_tail h
  have hframes := framesOf_sends h.sound [] (by simp) htail
  rw [(readLoop_spec maxFrameBytes polls).1, hpolls, hout]
  simpa using hframes

/-- No `::write` fails for good, and frames are as above. -/
def Reliable (maxFrameBytes : ℕ) (s : State) (a : Action) : Prop :=
  Acceptable maxFrameBytes s a ∧ ∀ t errno, a ≠ .fail t errno

theorem not_failed_step (hs : Step s a s') (hok : Reliable maxFrameBytes s a)
    (h : ∀ sent ∈ s.returned, ∀ errno, sent.result ≠ .failed errno) :
    ∀ sent ∈ s'.returned, ∀ errno, sent.result ≠ .failed errno := by
  have hnew : ∀ new : Sent, (∀ errno, new.result ≠ .failed errno) →
      ∀ sent ∈ s.returned ++ [new], ∀ errno, sent.result ≠ .failed errno := by
    intro new hresult sent hsent
    rcases List.mem_append.mp hsent with hold | hsent
    · exact h sent hold
    · obtain rfl := List.mem_singleton.mp hsent
      exact hresult
  cases hs with
  | call _ =>
    unfold State.call
    split
    · exact hnew _ nofun
    · split
      · exact hnew _ nofun
      · exact h
  | @fail t _ _ errno _ => exact absurd rfl (hok.2 t errno)
  | newline _ => exact hnew _ nofun
  | _ => exact h

theorem not_failed_reachable (hs : senders.Reachable (Reliable maxFrameBytes) s) :
    ∀ sent ∈ s.returned, ∀ errno, sent.result ≠ .failed errno := by
  refine hs.invariant
    (P := fun s => ∀ sent ∈ s.returned, ∀ errno, sent.result ≠ .failed errno) ?_ ?_
  · rintro s rfl
    nofun
  · intro s a s' _ h hok hst
    exact not_failed_step hst hok h

theorem entered_eq_succeeded {sends : List Sent}
    (h : ∀ sent ∈ sends, ∀ errno, sent.result ≠ .failed errno) :
    entered sends = succeeded sends := by
  rw [entered, succeeded]
  congr 1
  apply List.filter_congr
  intro sent hsent
  have hresult := h sent hsent
  cases hr : sent.result <;> simp_all

/-- A call that has sent nothing was turned away, because the transport did not run or the frame
has a line feed. -/
theorem sent_or_rejected (hsound : Sound maxFrameBytes sent)
    (hfailed : ∀ errno, sent.result ≠ .failed errno) :
    sent.result = .ok ∨ sent.written = [] ∧
      (sent.result = .notConnected ∨ sent.result = .invalidArgument ∧ '\n' ∈ sent.frame) := by
  unfold Sound at hsound
  cases hr : sent.result with
  | ok => exact .inl rfl
  | notConnected =>
    rw [hr] at hsound
    exact .inr ⟨hsound, .inl rfl⟩
  | invalidArgument =>
    rw [hr] at hsound
    exact .inr ⟨hsound.1, .inr ⟨rfl, hsound.2⟩⟩
  | failed errno => exact absurd hr (hfailed errno)

theorem clean_of_not_failed {sends : List Sent}
    (hsound : ∀ sent ∈ sends, Sound maxFrameBytes sent)
    (hfailed : ∀ sent ∈ sends, ∀ errno, sent.result ≠ .failed errno) : Clean sends := by
  have hall : sends.Pairwise fun _ _ => True := List.pairwise_of_forall fun _ _ => trivial
  refine hall.imp_of_mem ?_
  intro sent later hmem _ _ hwritten hlf
  rcases sent_or_rejected (hsound sent hmem) (hfailed sent hmem) with hok | ⟨hnil, -⟩
  · exact absurd ((hsound sent hmem).mem_iff.mpr hok) hlf
  · exact absurd hnil hwritten

/-- A call with a line feed in its frame returns at once, with an error. -/
theorem call_of_mem (hlf : '\n' ∈ frame) (hs : Step s (.call t frame) s') :
    s'.out = s.out ∧ s'.pc = s.pc ∧ ∃ result ≠ .ok,
      s'.returned = s.returned ++ [{ frame, written := [], result }] := by
  cases hs with
  | call _ =>
    unfold State.call
    split
    · exact ⟨rfl, rfl, .notConnected, nofun, rfl⟩
    · exact ⟨rfl, rfl, .invalidArgument, nofun, rfl⟩

/-- Without one, on a transport that runs, it goes on to the mutex. -/
theorem call_of_running (hrunning : s.running = true) (hlf : '\n' ∉ frame) :
    s.call t frame = s.setPC t (.locking frame) := by
  simp [State.call, hrunning, hlf]

/-- A call is turned away. -/
theorem call_eq_reject (h : ¬(s.running = true ∧ '\n' ∉ frame)) :
    ∃ result, s.call t frame = s.reject frame result := by
  unfold State.call
  split
  · exact ⟨_, rfl⟩
  · split
    · exact ⟨_, rfl⟩
    · next hrunning hlf => exact absurd ⟨by simpa using hrunning, hlf⟩ h

theorem succeeded_prefix_taken (h : Orderly maxFrameBytes s)
    (hfailed : ∀ sent ∈ s.returned, ∀ errno, sent.result ≠ .failed errno) :
    succeeded s.returned <+: s.taken ∧
      (s.writeMutex = none → s.taken = succeeded s.returned) := by
  rw [← entered_eq_succeeded hfailed]
  refine ⟨?_, fun hm => (h.free hm).2⟩
  cases hm : s.writeMutex with
  | none => exact ⟨[], by rw [(h.free hm).2, List.append_nil]⟩
  | some t =>
    obtain ⟨written, left, hpc⟩ := h.held t hm
    obtain ⟨-, -, -, -, htaken⟩ := h.holder t written left hpc
    exact ⟨_, htaken.symm⟩

theorem kept_fresh : Kept fresh 0 := ⟨∅, fun t frame => by simp [fresh], rfl⟩

/-- A thread that neither waits for the mutex nor comes to wait moves on. -/
theorem Kept.move {frames : Multiset Bytes} {pc : PC} (h : Kept s frames)
    (htaken : s'.taken = s.taken) (hpc : s'.pc = Function.update s.pc t pc)
    (hold : ∀ frame, s.pc t ≠ .locking frame) (hnew : ∀ frame, pc ≠ .locking frame) :
    Kept s' frames := by
  obtain ⟨waiting, hmem, hframes⟩ := h
  refine ⟨waiting, ?_, by rw [htaken, hframes]⟩
  intro u frame
  rw [hmem, hpc]
  by_cases hu : u = t
  · subst u
    simp [hold, hnew]
  · simp [hu]

/-- A call comes to wait. -/
theorem kept_queue {frames : Multiset Bytes} (h : Kept s frames) (hpc : s.pc t = .idle) :
    Kept (s.setPC t (.locking frame)) (frames + {frame}) := by
  obtain ⟨waiting, hmem, rfl⟩ := h
  have hnot : (t, frame) ∉ waiting := by simp [hmem, hpc]
  refine ⟨insert (t, frame) waiting, ?_, ?_⟩
  · intro u frame'
    rw [Finset.mem_insert, hmem]
    by_cases hu : u = t
    · subst u
      simp [State.setPC, hpc, eq_comm]
    · simp [State.setPC, hu]
  · rw [Finset.insert_val_of_notMem hnot, Multiset.map_cons, ← Multiset.singleton_add]
    change _ = (s.taken : Multiset Bytes) + _
    rw [Multiset.add_assoc, Multiset.add_comm {frame}]

/-- A call that has waited takes the mutex. -/
theorem kept_lock {frames : Multiset Bytes} (h : Kept s frames) (hpc : s.pc t = .locking frame) :
    Kept { s with
      writeMutex := some t
      pc := Function.update s.pc t (.writing [] frame)
      taken := s.taken ++ [frame] } frames := by
  obtain ⟨waiting, hmem, rfl⟩ := h
  have hin : (t, frame) ∈ waiting := (hmem t frame).mpr hpc
  refine ⟨waiting.erase (t, frame), ?_, ?_⟩
  · intro u frame'
    rw [Finset.mem_erase, hmem]
    by_cases hu : u = t
    · subst u
      simp [hpc, eq_comm]
    · simp [hu]
  · have hcons : waiting.val.map Prod.snd =
        {frame} + (waiting.erase (t, frame)).val.map Prod.snd := by
      rw [Finset.erase_val, Multiset.singleton_add, ← Multiset.map_cons Prod.snd (t, frame),
        Multiset.cons_erase (Finset.mem_val.mpr hin)]
    rw [hcons, ← Multiset.add_assoc]
    rfl

/-- Only a call asks for something. -/
theorem Kept.other {frames : Multiset Bytes} (h : Kept s' frames)
    (ha : ∀ t frame, a ≠ .call t frame) : Kept s' (frames + asked s a) := by
  cases a with
  | call t frame => exact absurd rfl (ha t frame)
  | _ => exact (Multiset.add_zero frames).symm ▸ h

theorem kept_step {frames : Multiset Bytes} (hs : Step s a s') (h : Kept s frames) :
    Kept s' (frames + asked s a) := by
  cases hs with
  | @call t frame hpc =>
    by_cases hask : s.running = true ∧ '\n' ∉ frame
    · rw [call_of_running hask.1 hask.2, asked, if_pos hask]
      exact kept_queue h hpc
    · obtain ⟨result, hreject⟩ := call_eq_reject hask
      rw [hreject, asked, if_neg hask, Multiset.add_zero]
      exact h
  | lock hpc _ => exact (kept_lock h hpc).other nofun
  | run _ | interrupt _ => exact Kept.other h nofun
  | write hpc _ _ | fail hpc | newline hpc =>
    exact Kept.other (h.move rfl rfl (by simp [hpc]) (by simp)) nofun

theorem kept_reachable {ok : State × Multiset Bytes → Action → Prop}
    {x : State × Multiset Bytes} (hs : askers.Reachable ok x) : Kept x.1 x.2 := by
  refine hs.invariant (P := fun x => Kept x.1 x.2) ?_ ?_
  · rintro x rfl
    exact kept_fresh
  · rintro x a y - h - ⟨hst, hasked⟩
    rw [hasked]
    exact kept_step hst h

/-- The senders do not depend on what is noted of them. -/
theorem reachable_of_askers {ok : State → Action → Prop} {x : State × Multiset Bytes}
    (hs : askers.Reachable (fun x a => ok x.1 a) x) : senders.Reachable ok x.1 := by
  refine hs.invariant (P := fun x => senders.Reachable ok x.1) ?_ ?_
  · rintro x rfl
    exact .initial rfl
  · rintro x a y - h hok ⟨hst, -⟩
    exact h.step hok hst

/-- What has been sent is among what was asked for, and is all of it when no call is under way. -/
theorem succeeded_of_asked {frames : Multiset Bytes} (h : Orderly maxFrameBytes s)
    (hfailed : ∀ sent ∈ s.returned, ∀ errno, sent.result ≠ .failed errno)
    (hkept : Kept s frames) :
    ↑(succeeded s.returned) ≤ frames ∧
      ((∀ t, s.pc t = .idle) → ↑(succeeded s.returned) = frames) := by
  obtain ⟨⟨rest, hprefix⟩, hfree⟩ := succeeded_prefix_taken h hfailed
  obtain ⟨waiting, hmem, rfl⟩ := hkept
  constructor
  · rw [← hprefix, ← Multiset.coe_add, Multiset.add_assoc]
    exact Multiset.le_add_right _ _
  · intro hidle
    have hm : s.writeMutex = none := by
      cases hm : s.writeMutex with
      | none => rfl
      | some t =>
        obtain ⟨written, left, hpc⟩ := h.held t hm
        cases (hidle t).symm.trans hpc
    have hnone : waiting = ∅ := by
      refine Finset.eq_empty_of_forall_notMem ?_
      rintro ⟨t, frame⟩ hin
      cases (hidle t).symm.trans ((hmem t frame).mp hin)
    simp [hnone, hfree hm]

/-- A step that brings a call that is under way closer to its end. -/
def Advances : Action → Prop
  | .lock _ | .write _ _ | .newline _ => True
  | _ => False

/-- Calls do not block each other. -/
theorem exists_advance (h : Orderly maxFrameBytes s) (ht : s.pc t ≠ .idle) :
    ∃ a s', Advances a ∧ Step s a s' := by
  cases hm : s.writeMutex with
  | some u =>
    obtain ⟨written, left, hpc⟩ := h.held u hm
    cases left with
    | nil => exact ⟨.newline u, _, trivial, .newline hpc⟩
    | cons c cs => exact ⟨.write u 1, _, trivial, .write hpc Nat.one_pos (by simp)⟩
  | none =>
    cases hpc : s.pc t with
    | idle => exact absurd hpc ht
    | locking frame => exact ⟨.lock t, _, trivial, .lock hpc hm⟩
    | writing written left => exact absurd hpc (h.not_writing hm)

/-- With frames that the reader takes and without write errors: at any moment the peer delivers
the frames that have been sent, in the order in which the mutex was taken for them. A call on a
transport that runs goes on to the mutex, unless its frame has a line feed; the frames of these
calls are what is delivered when all have returned, and until then one of them can go on. A call
that did not send its frame was turned away and has written nothing, at once if the frame has a
line feed. -/
theorem send_receive {frames : Multiset Bytes}
    (hs : askers.Reachable (fun x a => Reliable maxFrameBytes x.1 a) (s, frames))
    {polls : List Poll} (hpolls : received polls = s.out) :
    (readLoop maxFrameBytes {} polls).delivered = succeeded s.returned ∧
      (succeeded s.returned <+: s.taken ∧
        (s.writeMutex = none → s.taken = succeeded s.returned)) ∧
      (↑(succeeded s.returned) ≤ frames ∧
        ((∀ t, s.pc t = .idle) → ↑(succeeded s.returned) = frames)) ∧
      (∀ t frame s', s.running = true → '\n' ∉ frame → Step s (.call t frame) s' →
        s' = s.setPC t (.locking frame)) ∧
      (∀ t, s.pc t ≠ .idle → ∃ a s', Advances a ∧ Step s a s') ∧
      (∀ sent ∈ s.returned, sent.result = .ok ∨ sent.written = [] ∧
        (sent.result = .notConnected ∨ sent.result = .invalidArgument ∧ '\n' ∈ sent.frame)) ∧
      ∀ t frame s', '\n' ∈ frame → Step s (.call t frame) s' →
        s'.out = s.out ∧ s'.pc = s.pc ∧ ∃ result ≠ .ok,
          s'.returned = s.returned ++ [{ frame, written := [], result }] := by
  have hsenders := reachable_of_askers hs
  have h : Orderly maxFrameBytes s := by
    obtain ⟨s₀, hi, hrun⟩ := hsenders
    exact orderly_reachable ⟨s₀, hi, hrun.mono fun _ _ hok => hok.1⟩
  have hfailed := not_failed_reachable hsenders
  have hclean := clean_of_not_failed h.sound hfailed
  refine ⟨(delivered_iff_clean h hpolls).mpr hclean, succeeded_prefix_taken h hfailed,
    succeeded_of_asked h hfailed (kept_reachable hs), ?_, fun t => exists_advance h, ?_, ?_⟩
  · rintro t frame s' hrunning hlf ⟨-⟩
    exact call_of_running hrunning hlf
  · intro sent hsent
    exact sent_or_rejected (h.sound sent hsent) (hfailed sent hsent)
  · intro t frame s' hlf hst
    exact call_of_mem hlf hst

/-- The peer delivers exactly the frames whose send has succeeded, in order, as long as no line is
ended after a failed `::write` has left a part of another one behind, and not any longer. -/
theorem failed_send_harmless_iff (hs : senders.Reachable (Acceptable maxFrameBytes) s)
    {polls : List Poll} (hpolls : received polls = s.out) :
    (readLoop maxFrameBytes {} polls).delivered = succeeded s.returned ↔ Clean s.returned :=
  delivered_iff_clean (orderly_reachable hs) hpolls

theorem reachable_call {ok : State → Action → Prop} (hs : senders.Reachable ok s)
    (hst : Step s (.call t frame) s') (hsendable : Sendable maxFrameBytes frame)
    (hok : Acceptable maxFrameBytes s (.call t frame) → ok s (.call t frame)) :
    senders.Reachable ok s' := by
  refine hs.step (hok ?_) hst
  intro u frame' he
  cases he
  exact .inr hsendable

theorem reachable_other {ok : State → Action → Prop} (hs : senders.Reachable ok s)
    (hst : Step s a s') (hcall : ∀ t frame, a ≠ .call t frame)
    (hok : Acceptable maxFrameBytes s a → ok s a) : senders.Reachable ok s' :=
  hs.step (hok fun t frame he => absurd he (hcall t frame)) hst

end Senders

theorem asking_step {ok : State → Action → Prop} {s s' : State} {frames : Multiset Bytes}
    {a : Action} (hs : askers.Reachable (fun x a => ok x.1 a) (s, frames)) (hst : Step s a s')
    (hok : ok s a) : askers.Reachable (fun x a => ok x.1 a) (s', frames + asked s a) :=
  hs.step (t := (s', frames + asked s a)) hok ⟨hst, rfl⟩

/-- Two sends that overlap, the first in two writes with an interruption between them, read back in
two chunks. -/
theorem short_writes_read_back : ∃ (s : State) (frames : Multiset Bytes),
    askers.Reachable (fun x a => Reliable 16 x.1 a) (s, frames) ∧
      s.taken = ["abc".toList, "d".toList] ∧
      (readLoop 16 {} [.chunk "a".toList, .chunk "bc\nd\n".toList]).delivered = s.taken ∧
      ↑s.taken = frames := by
  have habc : Sendable 16 "abc".toList := ⟨by decide, by decide, by decide⟩
  have hd : Sendable 16 "d".toList := ⟨by decide, by decide, by decide⟩
  have hcall : ∀ (s : State) (t : ℕ) frame, Sendable 16 frame → Reliable 16 s (.call t frame) :=
    fun s t frame h => ⟨fun _ _ he => by cases he; exact .inr h, nofun⟩
  have h₀ : askers.Reachable (fun x a => Reliable 16 x.1 a) (fresh, 0) := .initial rfl
  have h₁ := asking_step h₀ (.run true) ⟨nofun, nofun⟩
  have h₂ := asking_step h₁ (@Step.call _ 0 _ rfl) (hcall _ 0 _ habc)
  have h₃ := asking_step h₂ (@Step.call _ 1 _ rfl) (hcall _ 1 _ hd)
  have h₄ := asking_step h₃ (@Step.lock _ 0 _ rfl rfl) ⟨nofun, nofun⟩
  have h₅ := asking_step h₄ (@Step.write _ 0 _ _ 1 rfl (by decide) (by decide)) ⟨nofun, nofun⟩
  have h₆ := asking_step h₅ (@Step.interrupt _ 0 _ _ rfl) ⟨nofun, nofun⟩
  have h₇ := asking_step h₆ (@Step.write _ 0 _ _ 2 rfl (by decide) (by decide)) ⟨nofun, nofun⟩
  have h₈ := asking_step h₇ (@Step.newline _ 0 _ rfl) ⟨nofun, nofun⟩
  have h₉ := asking_step h₈ (@Step.lock _ 1 _ rfl rfl) ⟨nofun, nofun⟩
  have h₁₀ := asking_step h₉ (@Step.write _ 1 _ _ 1 rfl (by decide) (by decide)) ⟨nofun, nofun⟩
  have h₁₁ := asking_step h₁₀ (@Step.newline _ 1 _ rfl) ⟨nofun, nofun⟩
  obtain ⟨hdelivered, ⟨-, htaken⟩, ⟨-, hall⟩, -⟩ :=
    @send_receive _ _ _ h₁₁ [.chunk "a".toList, .chunk "bc\nd\n".toList] rfl
  refine ⟨_, _, h₁₁, rfl, hdelivered.trans (htaken rfl).symm,
    (congrArg _ (htaken rfl)).trans (hall ?_)⟩
  rintro (_ | _ | t) <;> rfl

/-- A send that fails behind its second byte, and the one after it, which succeeds: the peer
delivers neither the one nor the other. -/
theorem leftover_spoils_frame : ∃ s : State,
    senders.Reachable (Acceptable 16) s ∧ succeeded s.returned = ["def".toList] ∧
      ∀ polls, received polls = s.out →
        (readLoop 16 {} polls).delivered = ["abdef".toList] ∧
          (readLoop 16 {} polls).delivered ≠ succeeded s.returned := by
  have habc : Sendable 16 "abc".toList := ⟨by decide, by decide, by decide⟩
  have hdef : Sendable 16 "def".toList := ⟨by decide, by decide, by decide⟩
  have h₀ : senders.Reachable (Acceptable 16) fresh := .initial rfl
  have h₁ := reachable_other h₀ (.run true) nofun id
  have h₂ := reachable_call h₁ (@Step.call _ 0 _ rfl) habc id
  have h₃ := reachable_other h₂ (@Step.lock _ 0 _ rfl rfl) nofun id
  have h₄ := reachable_other h₃ (@Step.write _ 0 _ _ 2 rfl (by decide) (by decide)) nofun id
  have h₅ := reachable_other h₄ (@Step.fail _ 0 _ _ 5 rfl) nofun id
  have h₆ := reachable_call h₅ (@Step.call _ 1 _ rfl) hdef id
  have h₇ := reachable_other h₆ (@Step.lock _ 1 _ rfl rfl) nofun id
  have h₈ := reachable_other h₇ (@Step.write _ 1 _ _ 3 rfl (by decide) (by decide)) nofun id
  have h₉ := reachable_other h₈ (@Step.newline _ 1 _ rfl) nofun id
  refine ⟨_, h₉, rfl, ?_⟩
  intro polls hpolls
  rw [(readLoop_spec 16 polls).1, hpolls]
  exact ⟨by decide, by decide⟩

/-- A send that fails before its first byte does no harm. -/
theorem early_failure_harmless : ∃ s : State,
    senders.Reachable (Acceptable 16) s ∧ s.returned.map (·.result) = [.failed 11, .ok] ∧
      (readLoop 16 {} [.chunk "def\n".toList]).delivered = succeeded s.returned := by
  have habc : Sendable 16 "abc".toList := ⟨by decide, by decide, by decide⟩
  have hdef : Sendable 16 "def".toList := ⟨by decide, by decide, by decide⟩
  have h₀ : senders.Reachable (Acceptable 16) fresh := .initial rfl
  have h₁ := reachable_other h₀ (.run true) nofun id
  have h₂ := reachable_call h₁ (@Step.call _ 0 _ rfl) habc id
  have h₃ := reachable_other h₂ (@Step.lock _ 0 _ rfl rfl) nofun id
  have h₄ := reachable_other h₃ (@Step.fail _ 0 _ _ 11 rfl) nofun id
  have h₅ := reachable_call h₄ (@Step.call _ 1 _ rfl) hdef id
  have h₆ := reachable_other h₅ (@Step.lock _ 1 _ rfl rfl) nofun id
  have h₇ := reachable_other h₆ (@Step.write _ 1 _ _ 3 rfl (by decide) (by decide)) nofun id
  have h₈ := reachable_other h₇ (@Step.newline _ 1 _ rfl) nofun id
  have hiff := @failed_send_harmless_iff _ _ h₈ [.chunk "def\n".toList] rfl
  exact ⟨_, h₈, rfl, hiff.mpr (.cons (by simp) (.cons (by simp) .nil))⟩

end Mcp.Stdio
