import Mcp.Library.Fairness
import Mcp.Session.Closing

/-! The timeout thread: what it waits for, and that it does not sleep through close(). -/
namespace Mcp.Session

open Transition

variable {V : Type} {opts : Options} {calls : ℕ → Call V} {s s' : State V} {a : Action}
  {t : Thread} {until? : Option Int64} {now : Int64}

/-- What the thread may wait for while these requests are parked. -/
def Awaits (pending : Dict RequestId Pending) : Option Int64 → Prop
  | none => pending = ∅
  | some t => ∀ id p, pending.lookup id = some p → t ≤ p.deadline

/-- Asleep without a notification, the thread will wake in time. -/
def Punctual (s : State V) : Prop :=
  ∀ until?, s.pc .timer = .waiting until? → s.notified = false → Awaits s.pending until?

theorem foldl_le (ps : List Pending) (t : Int64) :
    let r := ps.foldl (fun t p => if p.deadline < t then p.deadline else t) t
    r ≤ t ∧ ∀ p ∈ ps, r ≤ p.deadline := by
  induction ps generalizing t with
  | nil => exact ⟨Int64.le_refl t, nofun⟩
  | cons p ps ih =>
    obtain ⟨hle, hall⟩ := ih (if p.deadline < t then p.deadline else t)
    simp only [List.foldl_cons, List.mem_cons]
    by_cases hp : p.deadline < t
    · simp only [hp, if_true] at hle hall ⊢
      refine ⟨Int64.le_trans hle (Int64.le_of_lt hp), ?_⟩
      rintro q (rfl | hq)
      · exact hle
      · exact hall q hq
    · simp only [hp, if_false] at hle hall ⊢
      refine ⟨hle, ?_⟩
      rintro q (rfl | hq)
      · exact Int64.le_trans hle (Int64.not_lt.mp hp)
      · exact hall q hq

theorem soonest_le {pending : Dict RequestId Pending} {id : RequestId} {p : Pending}
    (h : pending.lookup id = some p) : soonest pending ≤ p.deadline :=
  (foldl_le _ _).2 p (List.mem_map.mpr ⟨_, AList.mem_lookup_iff.mp h, rfl⟩)

/-- The section of the loop leaves or goes to sleep punctually. -/
theorem punctual_timeoutSection (s : State V) : Punctual s.timeoutSection := by
  intro until? hw hn
  unfold State.timeoutSection at hw hn ⊢
  split at hw
  · simp at hw
  · next hopen =>
    rw [if_neg hopen]
    split at hw
    · next hempty =>
      rw [if_pos hempty]
      simp only [setPC_pc, Function.update_self, PC.waiting.injEq] at hw
      subst until?
      exact AList.ext (List.isEmpty_iff.mp hempty)
    · next hne =>
      rw [if_neg hne]
      simp only [setPC_pc, Function.update_self, PC.waiting.injEq] at hw
      subst until?
      exact fun id p hl => soonest_le hl

theorem empty_of_lookup {pending : Dict RequestId Pending}
    (h : ∀ id p, pending.lookup id ≠ some p) : pending = ∅ := by
  apply AList.ext
  apply List.eq_nil_iff_forall_not_mem.mpr
  rintro ⟨id, p⟩ hm
  exact h id p (AList.mem_lookup_iff.mpr hm)

/-- Whoever adds an entry notifies. -/
theorem notified_step (hs : Step opts calls s a s') (hsection : a ≠ .timerSection)
    (hwake : a ≠ .timerWake) : s'.notified = true ∨ (s'.notified = s.notified ∧
      ∀ id p, s'.pending.lookup id = some p → s.pending.lookup id = some p) := by
  cases hs with
  | park _ =>
    unfold State.park
    split
    · exact .inr ⟨rfl, fun _ _ => id⟩
    · split
      · exact .inr ⟨rfl, fun _ _ => id⟩
      · exact .inl rfl
  | pull _ =>
    unfold State.pull
    split
    · exact .inr ⟨rfl, fun _ _ => id⟩
    · exact .inr ⟨rfl, fun _ _ => Dict.lookup_of_lookup_erase⟩
  | response _ =>
    unfold State.takeResponse
    dsimp only
    split
    · exact .inr ⟨rfl, fun _ _ => id⟩
    · split
      · exact .inr ⟨rfl, fun _ _ => id⟩
      · exact .inl rfl
  | timerSection _ => exact absurd rfl hsection
  | timerWake _ => exact absurd rfl hwake
  | timerExpire _ _ => exact .inr ⟨rfl, fun _ _ hl => (Dict.lookup_of_lookup_filter hl).1⟩
  | onClose _ | closeCancel _ | closeNotify _ => exact .inl rfl
  | _ => exact .inr ⟨rfl, fun _ _ => id⟩

/-- Only its own section puts the thread to sleep. -/
theorem waiting_step (hs : Step opts calls s a s') (hw : s'.pc .timer = .waiting until?)
    (hsection : a ≠ .timerSection) (hwake : a ≠ .timerWake) : s.pc .timer = .waiting until? := by
  rcases pc_enter (P := (· = .waiting until?)) hs hw with hw | hf
  · exact hw
  · generalize s.pc .timer = pc at hf ⊢
    generalize s'.pc .timer = pc' at hf hw
    cases hf with
    | lockedWait => exact absurd rfl hsection
    | wokenWait => exact absurd rfl hwake
    | @rejected _ _ next => cases next <;> cases hw
    | _ => cases hw

theorem punctual_step (hs : Step opts calls s a s') (h : Punctual s) : Punctual s' := by
  by_cases hsection : a = .timerSection
  · subst a
    cases hs
    exact punctual_timeoutSection s
  · by_cases hwake : a = .timerWake
    · subst a
      cases hs
      exact punctual_timeoutSection s
    · intro until? hw hn
      have hw₀ := waiting_step hs hw hsection hwake
      rcases notified_step hs hsection hwake with hn' | ⟨hn', hsub⟩
      · simp [hn'] at hn
      · have ha := h until? hw₀ (hn'.symm.trans hn)
        cases until? with
        | none =>
          refine empty_of_lookup fun id p hl => ?_
          have hnone := hsub id p hl
          rw [show s.pending = ∅ from ha] at hnone
          cases hnone
        | some t => exact fun id p hl => ha id p (hsub id p hl)

theorem punctual_reachable (h : (machine opts calls).Reachable Free s) : Punctual s := by
  refine h.invariant (P := Punctual) ?_ fun _ _ _ _ hp _ hst => punctual_step hst hp
  rintro s rfl until? hw
  cases hw

/-- The session is closed, and the thread has been told so unless it is awake. -/
structure Alerted (s : State V) : Prop where
  closed : s.closed = true
  notified : ∀ until?, s.pc .timer = .waiting until? → s.notified = true

theorem alerted_step (hs : Step opts calls s a s') (hok : NoStart s a) (h : Alerted s) :
    Alerted s' := by
  refine ⟨closed_step hs h.closed (noStart_ne hok), ?_⟩
  intro until? hw
  by_cases hsection : a = .timerSection
  · subst a
    cases hs
    simp [State.timeoutSection, h.closed] at hw
  · by_cases hwake : a = .timerWake
    · subst a
      cases hs
      simp [State.timeoutSection, h.closed] at hw
    · rcases notified_step hs hsection hwake with hn | ⟨hn, -⟩
      · exact hn
      · exact hn.trans (h.notified until? (waiting_step hs hw hsection hwake))

/-- The final notify of close() reaches the thread, or the thread is awake. -/
theorem alerted_run {s₀ s₁ s₂ s₃ : State V} (hcall : Step opts calls s₀ (.closeCall t) s₁)
    (hbefore : (machine opts calls).Run NoStart s₁ s₂)
    (hnotify : Step opts calls s₂ (.closeNotify t) s₃)
    (hafter : (machine opts calls).Run NoStart s₃ s) : Alerted s := by
  have hc₁ : s₁.closed = true := by
    cases hcall
    rfl
  have hc₂ := closed_run hbefore hc₁
  have h₃ : Alerted s₃ := by
    refine ⟨closed_step hnotify hc₂ nofun, ?_⟩
    cases hnotify
    exact fun _ _ => rfl
  refine hafter.invariant (P := Alerted) ?_ h₃
  intro s a s' h hok hst
  exact alerted_step hst hok h

/-- The thread has been made. -/
def PC.born : PC → Prop
  | .locking | .waiting _ | .rejecting _ _ .locking | .exited => True
  | _ => False

/-- How far the thread of a closed session is from its exit. -/
def State.rank (s : State V) : ℕ :=
  match s.pc .timer with
  | .waiting _ => s.pending.entries.length + 3
  | .rejecting ks _ _ => ks.length + 2
  | .locking => 1
  | _ => 0

/-- The steps of the thread that nothing holds up: it is awake, or it has been notified. -/
def Due (s : State V) : Action → Prop
  | .timerSection | .reject .timer | .rejected .timer => True
  | .timerWake => s.notified = true
  | _ => False

/-- The thread stays within its loop. -/
theorem born_step (hs : Step opts calls s a s') (h : (s.pc .timer).born) :
    (s'.pc .timer).born := by
  rcases pc_step hs .timer with he | hf
  · rwa [he]
  · generalize s.pc .timer = pc at hf h
    generalize s'.pc .timer = pc' at hf ⊢
    cases hf with
    | lockedExit | lockedWait | wokenExit | wokenWait | expire => trivial
    | @reject _ _ _ _ next | @rejected _ _ next => cases next <;> trivial
    | _ => exact h.elim

theorem stage_step (hs : Step opts calls s a s')
    (h : s.pc .timer = .unborn ∨ (s.pc .timer).born) :
    s'.pc .timer = .unborn ∨ (s'.pc .timer).born := by
  rcases h with hu | hb
  · rcases pc_step hs .timer with he | hf
    · exact .inl (he.trans hu)
    · rw [hu] at hf
      generalize s'.pc .timer = pc' at hf ⊢
      cases hf
      exact .inr trivial
  · exact .inr (born_step hs hb)

theorem stage_reachable (h : (machine opts calls).Reachable Free s) :
    s.pc .timer = .unborn ∨ (s.pc .timer).born := by
  refine h.invariant (P := fun s : State V => s.pc .timer = .unborn ∨ (s.pc .timer).born) ?_ ?_
  · rintro s rfl
    exact .inl rfl
  · exact fun _ _ _ _ hs _ hst => stage_step hst hs

/-- A closed session parks nothing more. -/
theorem pending_length_step (hs : Step opts calls s a s') (hc : s.closed = true) :
    s'.pending.entries.length ≤ s.pending.entries.length := by
  cases hs with
  | park _ => simp [State.park, hc, State.setPC]
  | pull _ =>
    unfold State.pull
    split
    · exact le_refl _
    · exact (List.kerase_sublist _ _).length_le
  | response _ =>
    unfold State.takeResponse
    dsimp only
    split
    · exact le_refl _
    · split
      · exact le_refl _
      · exact (List.kerase_sublist _ _).length_le
  | timerSection _ | timerWake _ => simp [State.timeoutSection, hc, State.setPC]
  | timerExpire _ _ => exact List.length_filter_le _ _
  | onClose _ | closeCancel _ => exact Nat.zero_le _
  | _ => exact le_refl _

theorem exited_of_closed (hs : Step opts calls s a s') (hc : s.closed = true)
    (ha : a = .timerSection ∨ a = .timerWake) : s'.pc .timer = .exited := by
  rcases ha with rfl | rfl <;> cases hs <;> simp [State.timeoutSection, hc]

theorem rank_expire (hs : Step opts calls s (.timerExpire now) s') : s'.rank ≤ s.rank := by
  cases hs with
  | timerExpire hpc _ =>
    have hle : (Dict.list (Dict.filter (expired now) s.pending)).length ≤
        s.pending.entries.length := by
      simpa [Dict.list, Dict.filter] using List.length_filter_le _ _
    simp [State.rank, State.sweep, hpc]
    omega

/-- No step takes the thread of a closed session away from its exit. -/
theorem rank_step (hs : Step opts calls s a s') (hc : s.closed = true)
    (hb : (s.pc .timer).born) : s'.rank ≤ s.rank := by
  by_cases hexpire : ∃ now, a = .timerExpire now
  · obtain ⟨now, rfl⟩ := hexpire
    exact rank_expire hs
  · rcases pc_step hs .timer with he | hf
    · have hle := pending_length_step hs hc
      simp only [State.rank, he]
      split <;> omega
    · have hexit := exited_of_closed hs hc
      simp only [State.rank]
      generalize s.pc .timer = pc at hf hb ⊢
      generalize s'.pc .timer = pc' at hf hexit ⊢
      cases hf with
      | lockedExit | wokenExit => exact Nat.zero_le _
      | lockedWait => cases hexit (.inl rfl)
      | wokenWait => cases hexit (.inr rfl)
      | expire => exact absurd ⟨_, rfl⟩ hexpire
      | reject => simp
      | @rejected _ _ next =>
        cases next with
        | locking => simp [After.pc]
        | idle | storingClosed | draining _ => exact hb.elim
      | _ => exact hb.elim

/-- A step that is due takes it nearer. -/
theorem rank_due (hs : Step opts calls s a s') (hc : s.closed = true) (hb : (s.pc .timer).born)
    (hdue : Due s a) : s'.rank < s.rank := by
  cases hs with
  | timerSection hpc | timerWake hpc => simp [State.rank, State.timeoutSection, hc, hpc]
  | @reject t k ks e next hpc =>
    cases t with
    | timer => simp [State.rank, hpc]
    | app n => exact hdue.elim
  | @rejected t e next hpc =>
    cases t with
    | timer =>
      rw [hpc] at hb
      cases next with
      | locking => simp [State.rank, hpc, After.pc]
      | idle | storingClosed | draining _ => exact hb.elim
    | app n => exact hdue.elim
  | _ => exact hdue.elim

/-- Until it has left, some step of the thread is due. -/
theorem due_of_rank (h : Alerted s) (hb : (s.pc .timer).born) (hr : s.rank ≠ 0) :
    ∃ a s', NoStart s a ∧ Due s a ∧ Step opts calls s a s' := by
  cases hpc : s.pc .timer with
  | locking => exact ⟨.timerSection, _, trivial, trivial, .timerSection hpc⟩
  | waiting until? => exact ⟨.timerWake, _, trivial, h.notified _ hpc, .timerWake hpc⟩
  | rejecting ks e next =>
    cases ks with
    | nil => exact ⟨.rejected .timer, _, trivial, trivial, .rejected hpc⟩
    | cons k ks => exact ⟨.reject .timer, _, trivial, trivial, .reject hpc⟩
  | exited => simp [State.rank, hpc] at hr
  | _ =>
    rw [hpc] at hb
    exact hb.elim

theorem exited_of_rank (hb : (s.pc .timer).born) (hr : s.rank = 0) : s.pc .timer = .exited := by
  cases hpc : s.pc .timer with
  | exited => rfl
  | locking | waiting _ | rejecting _ _ _ => simp [State.rank, hpc] at hr
  | _ =>
    rw [hpc] at hb
    exact hb.elim

/-- If the thread is not held up for ever where nothing holds it up, it comes to its exit. -/
theorem exits {E : Execution (State V) Action} (h : E.Valid (machine opts calls) NoStart)
    (hfair : E.Fair (machine opts calls) NoStart Due) {n : ℕ} (halert : Alerted (E.state n))
    (hb : ((E.state n).pc .timer).born) :
    ∃ m, n ≤ m ∧ ∀ k, m ≤ k → (E.state k).pc .timer = .exited := by
  have hP : ∀ k, n ≤ k → Alerted (E.state k) ∧ ((E.state k).pc .timer).born := by
    intro k hk
    refine (h.run hk).invariant (P := fun s => Alerted s ∧ (s.pc .timer).born) ?_ ⟨halert, hb⟩
    rintro s a s' ⟨ha, hb⟩ hok hst
    exact ⟨alerted_step hst hok ha, born_step hst hb⟩
  obtain ⟨m, hnm, hzero⟩ := @Execution.Fair.rank_zero _ _ _ _ _ _
    (fun s => Alerted s ∧ (s.pc .timer).born) State.rank n hfair h hP
    (fun s a s' hs _ hst => rank_step hst hs.1.closed hs.2)
    (fun s hs hr => due_of_rank hs.1 hs.2 hr)
    (fun s a s' hs _ hdue hst => rank_due hst hs.1.closed hs.2 hdue)
  exact ⟨m, hnm, fun k hk => exited_of_rank (hP k (by omega)).2 (hzero k hk)⟩

/-- The join of close() finds the thread unmade or at its exit, from some moment on. -/
theorem joinable {E : Execution (State V) Action} (h : E.Valid (machine opts calls) NoStart)
    (hfair : E.Fair (machine opts calls) NoStart Due) (halert : Alerted (E.state 0))
    (hstage : (E.state 0).pc .timer = .unborn ∨ ((E.state 0).pc .timer).born) :
    ∃ m, ∀ k, m ≤ k → (E.state k).pc .timer = .unborn ∨ (E.state k).pc .timer = .exited := by
  by_cases hall : ∀ k, (E.state k).pc .timer = .unborn
  · exact ⟨0, fun k _ => .inl (hall k)⟩
  · obtain ⟨n, hn⟩ := not_forall.mp hall
    have hrun := h.run (Nat.zero_le n)
    have hborn : ((E.state n).pc .timer).born := by
      have hstage' := hrun.invariant (P := fun s : State V => s.pc .timer = .unborn ∨
        (s.pc .timer).born) (fun _ _ _ hs _ hst => stage_step hst hs) hstage
      exact hstage'.resolve_left hn
    have halert' := hrun.invariant (P := Alerted)
      (fun _ _ _ hs hok hst => alerted_step hst hok hs) halert
    obtain ⟨m, -, hm⟩ := exits h hfair halert' hborn
    exact ⟨m, fun k hk => .inr (hm k hk)⟩

/-- A sweep takes out the requests whose deadline has passed, and no others. -/
theorem sweep_exact (hs : Step opts calls s (.timerExpire now) s') :
    (∀ id p, s'.pending.lookup id = some p ↔ s.pending.lookup id = some p ∧ now < p.deadline) ∧
    ∃ ks, s'.pc .timer = .rejecting ks timedOut .locking ∧
      ∀ k, k ∈ ks ↔ ∃ id p, s.pending.lookup id = some p ∧ p.promise = k ∧ p.deadline ≤ now := by
  cases hs with
  | timerExpire hpc _ =>
    refine ⟨?_, (Dict.list (Dict.filter (expired now) s.pending)).map Pending.promise,
      by simp [State.sweep], ?_⟩
    · intro id p
      constructor
      · intro hl
        obtain ⟨hl, hp⟩ := Dict.lookup_of_lookup_filter hl
        exact ⟨hl, Int64.not_le.mp (by simpa [expired] using hp)⟩
      · rintro ⟨hl, hp⟩
        exact Dict.lookup_filter _ hl (by simpa [expired] using Int64.not_le.mpr hp)
    · intro k
      simp only [Dict.list, List.map_map, List.mem_map, Function.comp_apply]
      constructor
      · rintro ⟨⟨id, p⟩, hm, rfl⟩
        obtain ⟨hl, hp⟩ := Dict.lookup_of_lookup_filter (AList.mem_lookup_iff.mpr hm)
        exact ⟨id, p, hl, rfl, by simpa [expired] using hp⟩
      · rintro ⟨id, p, hl, rfl, hp⟩
        have hf := Dict.lookup_filter (expired now) hl (by simpa [expired] using hp)
        exact ⟨⟨id, p⟩, AList.mem_lookup_iff.mp hf, rfl⟩

/-- Of the requests that were swept, the first have been rejected, and the rest are next. -/
def Sweeping (ks : List ℕ) (s : State V) : Prop :=
  ∃ ks₁ ks₂, ks = ks₁ ++ ks₂ ∧ (∀ k ∈ ks₁, (k, Settlement.exception timedOut) ∈ s.settled) ∧
    (ks₂ = [] ∨ s.pc .timer = .rejecting ks₂ timedOut .locking)

theorem settled_mono (hs : Step opts calls s a s') {x : ℕ × Settlement V} (hx : x ∈ s.settled) :
    x ∈ s'.settled := by
  cases hs with
  | park _ => rwa [(park_untouched ..).settled]
  | pull _ => rwa [(pull_untouched ..).settled]
  | response _ => rwa [(takeResponse_untouched ..).settled]
  | timerSection _ | timerWake _ => rwa [(timeoutSection_untouched s).settled]
  | resolve _ | reject _ => exact List.mem_append_left _ hx
  | _ => exact hx

theorem sweeping_step {ks : List ℕ} (hs : Step opts calls s a s') (h : Sweeping ks s) :
    Sweeping ks s' := by
  obtain ⟨ks₁, ks₂, hks, hdone, hrest⟩ := h
  have hdone' : ∀ k ∈ ks₁, (k, Settlement.exception timedOut) ∈ s'.settled :=
    fun k hk => settled_mono hs (hdone k hk)
  rcases hrest with rfl | hpc
  · exact ⟨ks₁, [], hks, hdone', .inl rfl⟩
  · rcases pc_step hs .timer with he | hf
    · exact ⟨ks₁, ks₂, hks, hdone', .inr (he.trans hpc)⟩
    · rw [hpc] at hf
      generalize hpc' : s'.pc .timer = pc' at hf
      cases hf with
      | @reject _ k ks₂ _ _ =>
        refine ⟨ks₁ ++ [k], ks₂, by simp [hks], ?_, .inr hpc'⟩
        intro k' hk'
        rcases List.mem_append.mp hk' with hk' | hk'
        · exact hdone' k' hk'
        · cases List.mem_singleton.mp hk'
          cases hs with
          | reject h =>
            cases hpc.symm.trans h
            exact List.mem_append_right _ (List.mem_singleton_self _)
      | rejected => exact ⟨ks₁, [], hks, hdone', .inl rfl⟩

theorem swept_run {ks : List ℕ} (hpc : s.pc .timer = .rejecting ks timedOut .locking)
    (hrun : (machine opts calls).Run Free s s')
    (hleft : ∀ ks e next, s'.pc .timer ≠ .rejecting ks e next) :
    ∀ k ∈ ks, (k, Settlement.exception timedOut) ∈ s'.settled := by
  have hsweep : Sweeping ks s' := by
    refine hrun.invariant (P := Sweeping ks) (fun _ _ _ h _ hst => sweeping_step hst h) ?_
    exact ⟨[], ks, rfl, nofun, .inr hpc⟩
  obtain ⟨ks₁, ks₂, rfl, hdone, rfl | hpc'⟩ := hsweep
  · simpa using hdone
  · exact absurd hpc' (hleft _ _ _)

/-- Asleep without a notification, the timeout thread waits for no later than the earliest deadline,
for nothing if nothing is parked, and no close() has made its final notify; so the join of close()
comes to an end where nothing holds the thread up. And a sweep takes out the requests whose deadline
has passed, and rejects them and no others. -/
theorem timeout_thread_wakes (opts : Options) (calls : ℕ → Call V) :
    (∀ s : State V, (machine opts calls).Reachable Free s → ∀ until?,
      s.pc .timer = .waiting until? → s.notified = false → Awaits s.pending until?) ∧
    (∀ (s₀ s₁ s₂ s₃ : State V) (t : Thread), (machine opts calls).Reachable Free s₀ →
      Step opts calls s₀ (.closeCall t) s₁ → (machine opts calls).Run NoStart s₁ s₂ →
      Step opts calls s₂ (.closeNotify t) s₃ →
      (∀ s until?, (machine opts calls).Run NoStart s₃ s → s.pc .timer = .waiting until? →
        s.notified = true) ∧
      ∀ E : Execution (State V) Action, E.state 0 = s₃ → E.Valid (machine opts calls) NoStart →
        E.Fair (machine opts calls) NoStart Due →
        ∃ m, ∀ k, m ≤ k → ∀ u, (E.state k).pc u = .joining →
          ∃ s, Step opts calls (E.state k) (.closeReturn u) s) ∧
    ∀ (s s' : State V) (now : Int64), Step opts calls s (.timerExpire now) s' →
      (∀ id p, s'.pending.lookup id = some p ↔
        s.pending.lookup id = some p ∧ now < p.deadline) ∧
      ∃ ks, (∀ k, k ∈ ks ↔
          ∃ id p, s.pending.lookup id = some p ∧ p.promise = k ∧ p.deadline ≤ now) ∧
        s'.pc .timer = .rejecting ks timedOut .locking ∧
        ∀ s'', (machine opts calls).Run Free s' s'' →
          (∀ ks e next, s''.pc .timer ≠ .rejecting ks e next) →
          ∀ k ∈ ks, (k, Settlement.exception timedOut) ∈ s''.settled := by
  refine ⟨fun s h => punctual_reachable h, ?_, ?_⟩
  · intro s₀ s₁ s₂ s₃ t h₀ hcall hbefore hnotify
    refine ⟨fun s until? hafter => (alerted_run hcall hbefore hnotify hafter).notified until?, ?_⟩
    intro E h0 hvalid hfair
    have halert := alerted_run hcall hbefore hnotify .refl
    have hreach : (machine opts calls).Reachable Free s₃ :=
      ((h₀.step trivial hcall).run (hbefore.mono fun _ _ _ => trivial)).step trivial hnotify
    rw [← h0] at halert hreach
    obtain ⟨m, hm⟩ := joinable hvalid hfair halert (stage_reachable hreach)
    exact ⟨m, fun k hk u hu => ⟨_, .closeReturn hu (hm k hk)⟩⟩
  · intro s s' now hs
    obtain ⟨hstay, ks, hpc, hks⟩ := sweep_exact hs
    exact ⟨hstay, ks, hks, hpc, fun s'' hrun hleft => swept_run hpc hrun hleft⟩

/-- A ping is parked, and the thread sleeps until its deadline. -/
theorem exists_asleep : ∃ s : State Json, (machine {} (fun _ => ping)).Reachable Free s ∧
    s.pending = Dict.tryEmplace (requestId 0) ⟨0, 30000000000⟩ ∅ ∧
    s.pc .timer = .waiting (some 30000000000) ∧ s.notified = false := by
  have h₀ : (machine {} (fun _ => ping)).Reachable Free (fresh Json) := .initial rfl
  have h₁ := reachable_step (a := .startClaim (.app 0)) h₀ trivial (.startClaim rfl rfl)
  have h₂ := reachable_step (a := .startClear (.app 0)) h₁ trivial (.startClear rfl)
  have h₃ := reachable_step (a := .nextId (.app 1) 0) h₂ trivial (.nextId rfl)
  have h₄ := reachable_step (a := .park (.app 1)) h₃ trivial (.park rfl)
  have h₅ := reachable_step (a := .startTimer (.app 0)) h₄ trivial (.startTimer rfl rfl)
  have h₆ := reachable_step (a := .timerSection) h₅ trivial (.timerSection rfl)
  exact ⟨_, h₆, rfl, rfl, rfl⟩

/-- The thread wakes at the deadline, and the ping is rejected. -/
theorem ping_is_timed_out : ∃ s s' : State Json, Awaits s.pending (some 30000000000) ∧
    Step {} (fun _ => ping) s (.timerExpire 30000000000) (s.sweep 30000000000) ∧
    (s.sweep 30000000000).pending.lookup (requestId 0) ≠ some ⟨0, 30000000000⟩ ∧
    (machine {} (fun _ => ping)).Run Free (s.sweep 30000000000) s' ∧ s'.pc .timer = .locking ∧
    (0, Settlement.exception timedOut) ∈ s'.settled := by
  obtain ⟨s, h, hpending, hpc, hnotified⟩ := exists_asleep
  obtain ⟨hasleep, -, hsweep⟩ := timeout_thread_wakes {} (fun _ => (ping : Call Json))
  have hexpire : Step {} (fun _ => ping) s (.timerExpire 30000000000) (s.sweep 30000000000) :=
    .timerExpire hpc (by decide)
  have hlookup : s.pending.lookup (requestId 0) = some ⟨0, 30000000000⟩ := by
    rw [hpending]
    rfl
  have hks : (s.sweep 30000000000).pc .timer = .rejecting [0] timedOut .locking := by
    rw [State.sweep, hpending]
    rfl
  have hreject : Step {} (fun _ => ping) (s.sweep 30000000000) (.reject .timer) _ := .reject hks
  have hrejected : Step {} (fun _ => ping) (State.setPC { s.sweep 30000000000 with
        settled := (s.sweep 30000000000).settled ++ [(0, .exception timedOut)] } .timer
      (.rejecting [] timedOut .locking)) (.rejected .timer) _ :=
    .rejected (by rw [setPC_pc, Function.update_self])
  have hrefl : (machine {} (fun _ => ping)).Run Free (s.sweep 30000000000) _ := .refl
  have hrun := (hrefl.step trivial hreject).step trivial hrejected
  obtain ⟨hstay, ks, hmem, -, hdone⟩ := hsweep s _ 30000000000 hexpire
  have hswept : 0 ∈ ks := (hmem 0).mpr ⟨requestId 0, _, hlookup, rfl, by decide⟩
  refine ⟨s, _, hasleep s h _ hpc hnotified, hexpire, ?_, hrun, by simp [After.pc],
    hdone _ hrun ?_ 0 hswept⟩
  · intro hl
    exact absurd ((hstay _ _).mp hl).2 (by decide)
  · intro ks e next he
    rw [setPC_pc, Function.update_self] at he
    cases he

end Mcp.Session
