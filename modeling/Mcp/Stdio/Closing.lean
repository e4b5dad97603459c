import Mcp.Stdio.Lifecycle

/-! close() of a StdioTransport returns, whatever its read thread was doing. -/
namespace Mcp.Stdio.Lifecycle

open Transition

variable {maxFrameBytes : ℕ} {s s' : State} {a : Action}

/-- In close(), before the store to `running_`, and behind it. -/
def Control.Stopping : Control → Prop
  | .stopping _ => True
  | _ => False

def Control.Stopped : Control → Prop
  | .waking | .joining _ | .closingPipe | .locking | .firing | .calling => True
  | _ => False

/-- How much the read thread has still to do once `running_` is clear. -/
def Reader.rank : Reader → ℕ
  | .absent | .exited => 0
  | .calling => 1
  | .leaving => 2
  | .looping => 3
  | .handing frames _ => frames.length + 4
  | .reading => kReadChunkBytes + 5
  | .deciding _ => kReadChunkBytes + 6
  | .drained _ => kReadChunkBytes + 7
  | .polled _ _ => kReadChunkBytes + 8
  | .polling => kReadChunkBytes + 9

def Control.rank : Control → ℕ
  | .waking => 6
  | .joining _ => 5
  | .closingPipe => 4
  | .locking => 3
  | .firing => 2
  | .calling => 1
  | _ => 0

/-- How much is left to do for a close() that is about to return. -/
def State.rank (s : State) : ℕ :=
  s.reader.rank + s.control.rank + 2 * s.senders + s.writing.toNat

theorem not_running (hs : s.control.Sound s) (hc : s.control.Stopped) : s.running = false := by
  cases hcontrol : s.control <;> rw [hcontrol] at hs hc <;>
    first | exact hc.elim | exact hs.2.1

theorem rank_step (hst : Step maxFrameBytes s a s') (hs : s.control.Sound s)
    (hc : s.control.Stopped) : s'.rank < s.rank := by
  have hrun := not_running hs hc
  cases hst with
  | send hyes =>
    rw [hrun] at hyes
    cases hyes
  | startCall hidle | startClear hidle | startRearm hidle | startPipe hidle | startFail hidle
  | startSpawn hidle | startThrow hidle | close hidle | closeStop hidle =>
    rw [hidle] at hc
    exact hc.elim
  | @closeJoin first hjoin hr =>
    cases first <;> simp [State.rank, hjoin, Control.rank, Reader.rank]
  | closeFire hfire => cases s.closeFired <;> simp [State.rank, hfire, Control.rank]
  | closeWake _ h _ _ | closePipe h | closeLock h _ | closeCalled h =>
    simp [State.rank, h, Control.rank]
  | load hr => simp [State.rank, hr, hrun, Reader.rank]
  | @read bytes hr hne hlen =>
    have hle := length_delivered_readBytes maxFrameBytes s.buffer bytes
    simp only [State.rank, hr, Reader.rank, State.scan]
    omega
  | @decide input hr => cases input <;> simp [State.rank, hr, Input.next, Reader.rank]
  | check hr => cases s.closing <;> simp [State.rank, hr, Reader.rank]
  | @handEnd tooLong hr => cases tooLong <;> simp [State.rank, hr, Reader.rank]
  | fire hr => cases s.closeFired <;> simp [State.rank, hr, Reader.rank]
  | lock hn hw =>
    simp only [State.rank, hn, hw, Bool.toNat_true, Bool.toNat_false]
    omega
  | unlock hw => simp [State.rank, hw]
  | poll _ hr _ _ | interrupt hr | pollFail hr | drain hr | notWoken hr | readAgain hr
  | readEnd hr | hand hr | called hr => simp [State.rank, hr, Reader.rank]

/-- A read thread with an open pipe can go on, if only there is a byte in the pipe when it polls. -/
theorem reader_enabled (hlive : s.Live) (habsent : s.reader ≠ .absent)
    (hexited : s.reader ≠ .exited) (hwake : s.reader = .polling → s.wake ≠ some 0) :
    ∃ a s', Step maxFrameBytes s a s' := by
  obtain ⟨n, hn⟩ := Option.isSome_iff_exists.mp hlive
  cases hr : s.reader with
  | absent => exact absurd hr habsent
  | exited => exact absurd hr hexited
  | looping => exact ⟨_, _, .load hr⟩
  | polling =>
    have hpos : n ≠ 0 := fun h => hwake hr (h ▸ hn)
    exact ⟨_, _, .poll .nothing hr hn (.inl hpos)⟩
  | polled woken input =>
    cases woken with
    | true => exact ⟨_, _, .drain hr⟩
    | false => exact ⟨_, _, .notWoken hr⟩
  | drained input => exact ⟨_, _, .check hr⟩
  | deciding input => exact ⟨_, _, .decide hr⟩
  | reading => exact ⟨_, _, .readEnd hr⟩
  | handing frames tooLong =>
    cases frames with
    | nil => exact ⟨_, _, .handEnd hr⟩
    | cons frame frames => exact ⟨_, _, .hand hr⟩
  | leaving => exact ⟨_, _, .fire hr⟩
  | calling => exact ⟨_, _, .called hr⟩

theorem step_enabled (hs : s.control.Sound s) (hc : s.control.Stopped) :
    ∃ a s', Step maxFrameBytes s a s' := by
  cases hcontrol : s.control with
  | waking =>
    rw [hcontrol] at hs
    obtain ⟨n, hn⟩ := Option.isSome_iff_exists.mp hs.2.2
    exact ⟨_, _, .closeWake false hcontrol hn nofun⟩
  | joining first =>
    rw [hcontrol] at hs
    obtain ⟨-, -, hs | ⟨-, hlive, hwake⟩⟩ := hs
    · exact ⟨_, _, .closeJoin hcontrol (.inl hs.1)⟩
    · by_cases hover : s.reader = .absent ∨ s.reader = .exited
      · exact ⟨_, _, .closeJoin hcontrol hover⟩
      · obtain ⟨habsent, hexited⟩ := not_or.mp hover
        exact reader_enabled hlive habsent hexited hwake
  | closingPipe => exact ⟨_, _, .closePipe hcontrol⟩
  | locking =>
    cases hw : s.writing with
    | true => exact ⟨_, _, .unlock hw⟩
    | false => exact ⟨_, _, .closeLock hcontrol hw⟩
  | firing => exact ⟨_, _, .closeFire hcontrol⟩
  | calling => exact ⟨_, _, .closeCalled hcontrol⟩
  | idle | claimed | opened | rearmed | piped | stopping first =>
    rw [hcontrol] at hc
    exact hc.elim

theorem stopping_step (hst : Step maxFrameBytes s a s') (hc : s.control.Stopping) :
    s'.control.Stopped ∨ a ≠ .closeStop ∧ s'.control = s.control := by
  cases hst with
  | @closeStop first h =>
    left
    cases first && s.wake.isSome <;> trivial
  | startCall h | startClear h | startRearm h | startPipe h | startFail h | startSpawn h
  | startThrow h | close h
  | closeWake _ h _ _ | closeJoin h _ | closePipe h | closeLock h _ | closeFire h
  | closeCalled h =>
    rw [h] at hc
    exact hc.elim
  | _ => exact .inr ⟨nofun, rfl⟩

theorem closed_of_fired (hclean : s.Clean) (hstopped : s.running = false)
    (hcalls : s.control.calls = 0) (hfired : s.fired = s.closeFired.toNat)
    (hyes : s.closeFired = true) : Closed s := by
  refine ⟨hstopped, hclean, hyes, ?_⟩
  simpa [State.fired, hclean.1, hcalls, hyes, Reader.calls] using hfired

/-- close() leaves nothing behind. -/
theorem stopped_step (hst : Step maxFrameBytes s a s') (hs : s.control.Sound s)
    (hfired : s.fired = s.closeFired.toNat) (hc : s.control.Stopped) :
    s'.control.Stopped ∨ s'.control = .idle ∧ Closed s' := by
  have hfired' := fired_step hst hs hfired
  cases hst with
  | startCall h | startClear h | startRearm h | startPipe h | startFail h | startSpawn h
  | startThrow h | close h
  | closeStop h =>
    rw [h] at hc
    exact hc.elim
  | @closeJoin first h _ =>
    left
    cases first <;> trivial
  | closeWake _ _ _ _ | closePipe _ | closeLock _ _ => exact .inl trivial
  | closeFire h =>
    rw [h] at hs
    cases hf : s.closeFired with
    | false => exact .inl trivial
    | true =>
      rw [hf] at hfired'
      exact .inr ⟨rfl, closed_of_fired hs.2.2 hs.2.1 rfl hfired' rfl⟩
  | closeCalled h =>
    rw [h] at hs
    have hyes : s.closeFired = true := by
      by_contra hno
      simp [State.fired, h, Control.calls, Bool.eq_false_iff.mpr hno] at hfired
    exact .inr ⟨rfl, closed_of_fired hs.2.2 hs.2.1 rfl hfired' hyes⟩
  | _ => exact .inl hc

/-- In close(), the store to `running_`, and behind it any step. -/
def Due (s : State) (a : Action) : Prop :=
  s.control.Stopping ∧ a = .closeStop ∨ s.control.Stopped

def Control.toStop : Control → ℕ
  | .stopping _ => 1
  | _ => 0

theorem toStop_of_stopped {c : Control} (h : c.Stopped) : c.toStop = 0 := by
  cases c <;> first | rfl | exact h.elim

theorem stopping_of_toStop {c : Control} (h : c.toStop ≠ 0) : ∃ first, c = .stopping first := by
  cases c <;> first | exact ⟨_, rfl⟩ | exact absurd rfl h

/-- A close() under way, in a state that can be reached. -/
structure Closing (s : State) : Prop where
  sound : s.control.Sound s
  fired : s.fired = s.closeFired.toNat
  inClose : s.control.Stopping ∨ s.control.Stopped

theorem toStop_le (hst : Step maxFrameBytes s a s') (h : Closing s) :
    s'.control.toStop ≤ s.control.toStop := by
  rcases h.inClose with hc | hc
  · rcases stopping_step hst hc with hc' | ⟨-, hsame⟩
    · rw [toStop_of_stopped hc']
      exact Nat.zero_le _
    · exact Nat.le_of_eq (by rw [hsame])
  · rcases stopped_step hst h.sound h.fired hc with hc' | ⟨hidle, -⟩
    · rw [toStop_of_stopped hc']
      exact Nat.zero_le _
    · rw [hidle]
      exact Nat.zero_le _

theorem toStop_lt (hst : Step maxFrameBytes s a s') (hpos : s.control.toStop ≠ 0)
    (hdue : Due s a) : s'.control.toStop < s.control.toStop := by
  obtain ⟨first, hfirst⟩ := stopping_of_toStop hpos
  rcases hdue with ⟨hc, rfl⟩ | hc
  · rcases stopping_step hst hc with hc' | ⟨hne, -⟩
    · rw [toStop_of_stopped hc']
      exact Nat.pos_of_ne_zero hpos
    · exact absurd rfl hne
  · rw [hfirst] at hc
    exact hc.elim

theorem rank_pos (hc : s.control.Stopped) : s.rank ≠ 0 := by
  cases h : s.control <;> rw [h] at hc <;>
    first | exact hc.elim | (unfold State.rank; rw [h]; simp [Control.rank])

/-- In an execution that does not stand still, a close() returns, wherever the read thread was, and
leaves nothing behind: no thread, no pipe, and `on_close` called once. -/
theorem close_returns {E : Execution State Action} {n : ℕ}
    (hE : E.Valid (lifecycle maxFrameBytes) Free)
    (hreach : (lifecycle maxFrameBytes).Reachable Free (E.state 0))
    (hfair : E.Fair (lifecycle maxFrameBytes) Free Due)
    (hclose : (E.state n).control.Stopping ∨ (E.state n).control.Stopped) :
    ∃ m, n ≤ m ∧ (E.state m).control = .idle ∧ Closed (E.state m) := by
  have hinv : ∀ m, (E.state m).control.Sound (E.state m) ∧
      (E.state m).fired = (E.state m).closeFired.toNat := by
    intro m
    obtain ⟨hsound, hfired, -⟩ := invariant_reachable (hreach.run (hE.run (Nat.zero_le m)))
    exact ⟨hsound, hfired⟩
  by_contra hnever
  have hin : ∀ m, n ≤ m → (E.state m).control.Stopping ∨ (E.state m).control.Stopped := by
    intro m hm
    induction m, hm using Nat.le_induction with
    | base => exact hclose
    | succ m hm ih =>
      rcases hE.next m with heq | ⟨a, -, hst⟩
      · rwa [heq]
      · rcases ih with hc | hc
        · rcases stopping_step hst hc with hc' | ⟨-, hsame⟩
          · exact .inr hc'
          · exact .inl (hsame ▸ hc)
        · rcases stopped_step hst (hinv m).1 (hinv m).2 hc with hc' | hclosed
          · exact .inr hc'
          · exact absurd ⟨m + 1, Nat.le_succ_of_le hm, hclosed⟩ hnever
  have hclosing : ∀ m, n ≤ m → Closing (E.state m) := fun m hm =>
    ⟨(hinv m).1, (hinv m).2, hin m hm⟩
  -- the store to `running_` comes
  obtain ⟨m, hnm, hstop⟩ := @Execution.Fair.rank_zero _ _ _ _ _ _ Closing
    (fun s => s.control.toStop) n hfair hE hclosing (fun _ _ _ h _ hst => toStop_le hst h)
    (fun s _ hpos => by
      obtain ⟨first, hfirst⟩ := stopping_of_toStop hpos
      exact ⟨_, _, trivial, .inl ⟨by rw [hfirst]; trivial, rfl⟩, .closeStop hfirst⟩)
    (fun _ _ _ _ hpos hdue hst => toStop_lt hst hpos hdue)
  have hstopped : ∀ k, m ≤ k → (E.state k).control.Sound (E.state k) ∧
      (E.state k).control.Stopped := by
    intro k hk
    refine ⟨(hinv k).1, (hin k (Nat.le_trans hnm hk)).resolve_left fun hc => ?_⟩
    have hzero := hstop k hk
    cases h : (E.state k).control <;> rw [h] at hc hzero <;> first | exact hc | cases hzero
  -- and then every step brings it nearer to its end
  obtain ⟨k, hmk, hzero⟩ := @Execution.Fair.rank_zero _ _ _ _ _ _
    (fun s => s.control.Sound s ∧ s.control.Stopped) State.rank m hfair hE hstopped
    (fun _ _ _ h _ hst => Nat.le_of_lt (rank_step hst h.1 h.2))
    (fun s h _ => by
      obtain ⟨a, s', hst⟩ := step_enabled h.1 h.2
      exact ⟨a, s', trivial, .inr h.2, hst⟩)
    (fun _ _ _ h _ _ hst => rank_step hst h.1 h.2)
  exact rank_pos (hstopped k hmk).2 (hzero k (Nat.le_refl k))

/-- A close() that has just begun, and its run to the end. -/
theorem asleep_run : ∃ s, (lifecycle 1).Run Free { asleep with
    closing := true, control := .stopping true } s ∧ s.control = .idle := by
  have h : (lifecycle 1).Run Free { asleep with closing := true, control := .stopping true } _ :=
    .refl
  have h₁ := h.step trivial (.closeStop rfl)
  have h₂ := h₁.step trivial (.closeWake false rfl rfl nofun)
  have h₃ := h₂.step trivial (.poll .nothing rfl rfl (.inl (by decide)))
  have h₄ := h₃.step trivial (.drain rfl)
  have h₅ := h₄.step trivial (.check rfl)
  have h₆ := h₅.step trivial (.fire rfl)
  have h₇ := h₆.step trivial (.called rfl)
  have h₈ := h₇.step trivial (.closeJoin rfl (.inr rfl))
  have h₉ := h₈.step trivial (.closePipe rfl)
  have h₁₀ := h₉.step trivial (.closeLock rfl rfl)
  exact ⟨_, h₁₀.step trivial (.closeFire rfl), rfl⟩

theorem asleep_is_closed : ∃ E : Execution State Action,
    (E.state 0).reader = .polling ∧ ∃ m, (E.state m).control = .idle ∧ Closed (E.state m) := by
  obtain ⟨s, hrun, hidle⟩ := asleep_run
  have hquiet : ∀ a, ¬Due s a := by
    rintro a (⟨hc, -⟩ | hc) <;> rw [hidle] at hc <;> exact hc
  obtain ⟨E, hE, hfair, h₀⟩ := Execution.exists_of_run hrun hquiet
  have hreach : (lifecycle 1).Reachable Free (E.state 0) := by
    rw [h₀]
    exact asleep_reachable.step trivial (.close rfl)
  obtain ⟨m, -, hm⟩ := close_returns hE hreach hfair (n := 0) (.inl (by rw [h₀]; trivial))
  exact ⟨E, by rw [h₀]; rfl, m, hm⟩

end Mcp.Stdio.Lifecycle
