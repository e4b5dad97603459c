import Mcp.Library.Custody
import Mcp.Session.Model

/-! Every outbound request is in one place at a time, and settles once, from its own response. -/
namespace Mcp.Session

open Transition Custody

variable {V : Type} {opts : Options} {calls : ℕ → Call V} {s s' : State V} {a : Action}
  {t : Thread} {k : ℕ}

/-- Where a request can be. -/
inductive Place where
  | caller (t : Thread)
  | parked
  | held (t : Thread)
  | settled
  deriving DecidableEq

/-- The request a thread is about to park. -/
def PC.unparked : PC → Multiset ℕ
  | .registering k _ => {k}
  | _ => 0

/-- The requests a thread has taken out and is about to settle. -/
def PC.held : PC → Multiset ℕ
  | .resolving k _ => {k}
  | .rejecting ks _ _ => ks
  | _ => 0

def hold (s : State V) : Place → Multiset ℕ
  | .caller t => (s.pc t).unparked
  | .parked => (Dict.values s.pending).map Pending.promise
  | .held t => (s.pc t).held
  | .settled => s.settled.map Prod.fst

/-- Requests that have an id. -/
def Live (s : State V) (k : ℕ) : Prop := k < s.issued

@[simp] theorem unparked_after (next : After) : next.pc.unparked = 0 := by
  cases next <;> rfl

@[simp] theorem held_after (next : After) : next.pc.held = 0 := by
  cases next <;> rfl

abbrev Moves (s s' : State V) : Prop := Move (Live s) (hold s) (Live s') (hold s')

section Moves

variable {pc : PC}

theorem hold_caller_same (hpc : s'.pc = Function.update s.pc t pc)
    (hu : pc.unparked = (s.pc t).unparked) (u : Thread) :
    hold s' (.caller u) = hold s (.caller u) := by
  by_cases he : u = t
  · subst u; simp [hold, hpc, hu]
  · simp [hold, hpc, he]

theorem hold_held_same (hpc : s'.pc = Function.update s.pc t pc)
    (hh : pc.held = (s.pc t).held) (u : Thread) : hold s' (.held u) = hold s (.held u) := by
  by_cases he : u = t
  · subst u; simp [hold, hpc, hh]
  · simp [hold, hpc, he]

theorem hold_caller_ne (hpc : s'.pc = Function.update s.pc t pc) {u : Thread} (he : u ≠ t) :
    hold s' (.caller u) = hold s (.caller u) := by
  simp [hold, hpc, he]

theorem hold_held_ne (hpc : s'.pc = Function.update s.pc t pc) {u : Thread} (he : u ≠ t) :
    hold s' (.held u) = hold s (.held u) := by
  simp [hold, hpc, he]

/-- A thread that moves on with the same requests in hand. -/
theorem moves_pc (hp : s'.pending = s.pending) (hs : s'.settled = s.settled)
    (hi : s'.issued = s.issued) (hpc : s'.pc = Function.update s.pc t pc)
    (hu : pc.unparked = (s.pc t).unparked) (hh : pc.held = (s.pc t).held) : Moves s s' := by
  apply Move.still
  · intro p
    cases p with
    | caller u => exact hold_caller_same hpc hu u
    | parked => simp [hold, hp]
    | held u => exact hold_held_same hpc hh u
    | settled => simp [hold, hs]
  · simp [Live, hi]

/-- `next_id` brings a request into being, in its caller's hands. -/
theorem moves_issue (hp : s'.pending = s.pending) (hs : s'.settled = s.settled)
    (hi : s'.issued = s.issued + 1) (hpc : s'.pc = Function.update s.pc t pc)
    (hempty : (s.pc t).unparked = 0) (hu : pc.unparked = {s.issued})
    (hh : pc.held = (s.pc t).held) : Moves s s' := by
  apply Move.mint s.issued (.caller t)
  · simp [Live]
  · constructor
    · simp [hold, hpc, hu, hempty]
    · intro p hne
      cases p with
      | caller u => exact hold_caller_ne hpc (fun he => hne (by rw [he]))
      | parked => simp [hold, hp]
      | held u => exact hold_held_same hpc hh u
      | settled => simp [hold, hs]
  · intro k
    simp only [Live, hi]
    omega

/-- A caller that may not park keeps the request, to reject it. -/
theorem moves_keep (hp : s'.pending = s.pending) (hs : s'.settled = s.settled)
    (hi : s'.issued = s.issued) (hpc : s'.pc = Function.update s.pc t pc)
    (hk : (s.pc t).unparked = {k}) (hempty : (s.pc t).held = 0)
    (hu : pc.unparked = 0) (hh : pc.held = {k}) : Moves s s' := by
  apply Move.transfer {k} (.caller t) (.held t) (by simp)
  · constructor
    · simp [hold, hpc, hk, hu]
    · simp [hold, hpc, hh, hempty]
    · intro p hne hnt
      cases p with
      | caller u => exact hold_caller_ne hpc (fun he => hne (by rw [he]))
      | parked => simp [hold, hp]
      | held u => exact hold_held_ne hpc (fun he => hnt (by rw [he]))
      | settled => simp [hold, hs]
  · simp [Live, hi]

/-- A caller parks the request. -/
theorem moves_park {id : RequestId} {deadline : Int64} (hid : id ∉ s.pending)
    (hp : s'.pending = s.pending.insert id ⟨k, deadline⟩) (hs : s'.settled = s.settled)
    (hi : s'.issued = s.issued) (hpc : s'.pc = Function.update s.pc t pc)
    (hk : (s.pc t).unparked = {k}) (hu : pc.unparked = 0) (hh : pc.held = (s.pc t).held) :
    Moves s s' := by
  apply Move.transfer {k} (.caller t) .parked (by simp)
  · constructor
    · simp [hold, hpc, hk, hu]
    · simp [hold, hp, Dict.values_insert hid]
    · intro p hne hnt
      cases p with
      | caller u => exact hold_caller_ne hpc (fun he => hne (by rw [he]))
      | parked => exact absurd rfl hnt
      | held u => exact hold_held_same hpc hh u
      | settled => simp [hold, hs]
  · simp [Live, hi]

/-- A thread with empty hands takes entries out of the map. -/
theorem moves_take {d : Dict RequestId Pending} {xs : Multiset Pending}
    (hd : Dict.values s.pending = xs + Dict.values d) (hp : s'.pending = d)
    (hs : s'.settled = s.settled) (hi : s'.issued = s.issued)
    (hpc : s'.pc = Function.update s.pc t pc) (hu : pc.unparked = (s.pc t).unparked)
    (hempty : (s.pc t).held = 0) (hh : pc.held = xs.map Pending.promise) : Moves s s' := by
  apply Move.transfer (xs.map Pending.promise) .parked (.held t) (by simp)
  · constructor
    · simp [hold, hp, hd]
    · simp [hold, hpc, hh, hempty]
    · intro p hne hnt
      cases p with
      | caller u => exact hold_caller_same hpc hu u
      | parked => exact absurd rfl hne
      | held u => exact hold_held_ne hpc (fun he => hnt (by rw [he]))
      | settled => simp [hold, hs]
  · simp [Live, hi]

/-- A thread runs one callback. -/
theorem moves_settle {x : Settlement V} (hp : s'.pending = s.pending)
    (hs : s'.settled = s.settled ++ [(k, x)]) (hi : s'.issued = s.issued)
    (hpc : s'.pc = Function.update s.pc t pc) (hu : pc.unparked = (s.pc t).unparked)
    (hh : (s.pc t).held = {k} + pc.held) : Moves s s' := by
  apply Move.transfer {k} (.held t) .settled (by simp)
  · constructor
    · simp [hold, hpc, hh]
    · simp only [hold, hs, List.map_append, ← Multiset.coe_add]
      exact Multiset.add_comm _ _
    · intro p hne hnt
      cases p with
      | caller u => exact hold_caller_same hpc hu u
      | parked => simp [hold, hp]
      | held u => exact hold_held_ne hpc (fun he => hne (by rw [he]))
      | settled => exact absurd rfl hnt
  · simp [Live, hi]

end Moves

/-- The park section hands the request back to be rejected, or parks it. -/
theorem moves_park_section {deadline : Int64} (hpc : s.pc t = .registering k deadline) :
    Moves s (s.park t k deadline) := by
  unfold State.park
  split
  · exact moves_keep rfl rfl rfl rfl (by rw [hpc]; rfl) (by rw [hpc]; rfl) rfl rfl
  · split
    · exact moves_keep rfl rfl rfl rfl (by rw [hpc]; rfl) (by rw [hpc]; rfl) rfl rfl
    · rename_i hid
      exact moves_park hid rfl rfl rfl rfl (by rw [hpc]; rfl) rfl (by rw [hpc]; rfl)

/-- One entry of the map, and the rest. -/
theorem values_of_lookup {d : Dict RequestId Pending} {id : RequestId} {p : Pending}
    (h : d.lookup id = some p) : Dict.values d = {p} + Dict.values (d.erase id) := by
  rw [Dict.values_erase h, Multiset.singleton_add]

theorem moves_pull {e : Exception} (hpc : s.pc t = .pulling k e) : Moves s (s.pull t k e) := by
  unfold State.pull
  split
  · exact moves_pc rfl rfl rfl rfl (by rw [hpc]; rfl) (by rw [hpc]; rfl)
  · rename_i p hp
    exact moves_take (values_of_lookup hp) rfl rfl rfl rfl (by rw [hpc]; rfl) (by rw [hpc]; rfl)
      (by simp [PC.held])

theorem moves_takeResponse {resp : JsonRpcResponse} (hpc : s.pc t = .idle) :
    Moves s (s.takeResponse t resp) := by
  have hsame : s.pc = Function.update s.pc t .idle := by simp [← hpc]
  have hstill : Moves s { s with received := s.received ++ [resp] } :=
    moves_pc rfl rfl rfl hsame (by rw [hpc]) (by rw [hpc])
  unfold State.takeResponse
  dsimp only
  split
  · exact hstill
  · split
    · exact hstill
    · rename_i p hp
      exact moves_take (values_of_lookup hp) rfl rfl rfl rfl (by rw [hpc]; rfl) (by rw [hpc]; rfl)
        (by simp [PC.held])

theorem moves_cancelAllPending {e : Exception} {next : After}
    (hu : (s.pc t).unparked = 0) (hh : (s.pc t).held = 0) :
    Moves s (s.cancelAllPending t e next) :=
  moves_take (d := ∅) (Multiset.add_zero _).symm rfl rfl rfl rfl (by rw [hu]; rfl) hh
    (by simp [PC.held, Dict.values])

theorem moves_sweep {now : Int64} {u : Option Int64} (hpc : s.pc .timer = .waiting u) :
    Moves s (s.sweep now) :=
  moves_take (Dict.values_filter_add_not (expired now) s.pending).symm rfl rfl rfl rfl
    (by rw [hpc]; rfl) (by rw [hpc]; rfl) (by simp [PC.held, Dict.values])

theorem moves_timeoutSection (hu : (s.pc .timer).unparked = 0) (hh : (s.pc .timer).held = 0) :
    Moves s s.timeoutSection := by
  unfold State.timeoutSection
  split
  · exact moves_pc rfl rfl rfl rfl (by rw [hu]; rfl) (by rw [hh]; rfl)
  · split
    · exact moves_pc rfl rfl rfl rfl (by rw [hu]; rfl) (by rw [hh]; rfl)
    · exact moves_pc rfl rfl rfl rfl (by rw [hu]; rfl) (by rw [hh]; rfl)

theorem moves_startTimer (hpc : s.pc t = .spawningTimer) (htimer : s.pc .timer = .unborn) :
    Moves s ((s.setPC .timer .locking).setPC t .startingTransport) := by
  have hne : t ≠ .timer := by
    intro he
    subst t
    simp [hpc] at htimer
  refine Move.still ?_ (fun _ => Iff.rfl)
  intro p
  cases p with
  | caller u =>
    exact (hold_caller_same rfl (by simp [hne, hpc, PC.unparked]) u).trans
      (hold_caller_same rfl (by simp [htimer, PC.unparked]) u)
  | parked => rfl
  | held u =>
    exact (hold_held_same rfl (by simp [hne, hpc, PC.held]) u).trans
      (hold_held_same rfl (by simp [htimer, PC.held]) u)
  | settled => rfl

/-- Each step of the session is one custody move of the requests. -/
theorem step_moves (h : Step opts calls s a s') : Moves s s' := by
  cases h with
  | startClaim hpc _ | startClear hpc | startTransport hpc | sendOk hpc | sendThrow hpc
  | onCloseStore hpc | onCloseFire hpc | onCloseReturn hpc | closeCall hpc | closeDrained hpc _
  | closeTransport hpc | closeNotify hpc | closeReturn hpc _ | dispatch hpc | spawn hpc
  | spawnThrow hpc =>
    exact moves_pc rfl rfl rfl rfl (by rw [hpc]; rfl) (by rw [hpc]; rfl)
  | startTimer hpc htimer => exact moves_startTimer hpc htimer
  | nextId hpc =>
    exact moves_issue rfl rfl rfl rfl (by rw [hpc]; rfl) rfl (by rw [hpc]; rfl)
  | park hpc => exact moves_park_section hpc
  | pull hpc => exact moves_pull hpc
  | response hpc => exact moves_takeResponse hpc
  | resolve hpc => exact moves_settle rfl rfl rfl rfl (by rw [hpc]; rfl) (by rw [hpc]; rfl)
  | reject hpc => exact moves_settle rfl rfl rfl rfl (by rw [hpc]; rfl) (by rw [hpc]; rfl)
  | rejected hpc =>
    exact moves_pc rfl rfl rfl rfl (by rw [hpc, unparked_after]; rfl)
      (by rw [hpc, held_after]; rfl)
  | timerSection hpc => exact moves_timeoutSection (by rw [hpc]; rfl) (by rw [hpc]; rfl)
  | timerWake hpc => exact moves_timeoutSection (by rw [hpc]; rfl) (by rw [hpc]; rfl)
  | timerExpire hpc _ => exact moves_sweep hpc
  | setOnClosed => exact Move.still (fun p => by cases p <;> rfl) (fun _ => Iff.rfl)
  | onClose hpc => exact moves_cancelAllPending (by rw [hpc]; rfl) (by rw [hpc]; rfl)
  | closeCancel hpc => exact moves_cancelAllPending (by rw [hpc]; rfl) (by rw [hpc]; rfl)
  | workerDone _ => exact Move.still (fun p => by cases p <;> rfl) (fun _ => Iff.rfl)

theorem exclusive_fresh : Exclusive (Live (fresh V)) (hold (fresh V)) := by
  apply Exclusive.empty
  · intro p
    rcases p with t | _ | t | _ <;> try cases t
    all_goals rfl
  · simp [Live, fresh]

theorem exclusive_reachable (h : (machine opts calls).Reachable Free s) :
    Exclusive (Live s) (hold s) := by
  refine h.invariant (P := fun s => Exclusive (Live s) (hold s)) ?_ ?_
  · rintro s rfl
    exact exclusive_fresh
  · intro s a s' _ hs _ hst
    exact hs.move (step_moves hst)

/-- A response frame for request `k` with this outcome has been received. -/
def Answered (s : State V) (k : ℕ) (outcome : Outcome) : Prop :=
  ∃ resp ∈ s.received, resp.id = some (requestId k) ∧ resp.outcome = outcome

/-- Entries are filed under their own id, and what is about to resolve or has resolved a promise
came in a response frame with that id. -/
structure Sourced (calls : ℕ → Call V) (s : State V) : Prop where
  filed : ∀ id p, s.pending.lookup id = some p → id = requestId p.promise
  taken : ∀ t k outcome, s.pc t = .resolving k outcome → Answered s k outcome
  value : ∀ k v, (k, Settlement.value v) ∈ s.settled →
    ∃ j, Answered s k (.result j) ∧ (calls k).convert j = .ok v

theorem Answered.mono {outcome : Outcome} (h : Answered s k outcome)
    (hr : ∀ resp ∈ s.received, resp ∈ s'.received) : Answered s' k outcome := by
  obtain ⟨resp, hm, hid, ho⟩ := h
  exact ⟨resp, hr resp hm, hid, ho⟩

/-- Nothing but `handle_response` makes a thread resolve. -/
theorem Sourced.of_pc {pc : PC} (h : Sourced calls s)
    (hp : ∀ id p, s'.pending.lookup id = some p → s.pending.lookup id = some p)
    (hr : ∀ resp ∈ s.received, resp ∈ s'.received)
    (hs : ∀ k v, (k, Settlement.value v) ∈ s'.settled → (k, Settlement.value v) ∈ s.settled)
    (hpc : s'.pc = Function.update s.pc t pc) (hpc' : ∀ k outcome, pc ≠ .resolving k outcome) :
    Sourced calls s' := by
  constructor
  · intro id p hl
    exact h.filed id p (hp id p hl)
  · intro u k outcome hu
    rw [hpc] at hu
    rcases update_cases hu with ⟨-, hmine⟩ | ⟨-, hu⟩
    · exact absurd hmine (hpc' k outcome)
    · exact (h.taken u k outcome hu).mono hr
  · intro k v hv
    obtain ⟨j, hj, hc⟩ := h.value k v (hs k v hv)
    exact ⟨j, hj.mono hr, hc⟩

/-- A thread moves on, and no entry, frame or settlement is new. -/
theorem Sourced.still {pc : PC} (h : Sourced calls s) (hp : s'.pending = s.pending)
    (hr : s'.received = s.received) (hs : s'.settled = s.settled)
    (hpc : s'.pc = Function.update s.pc t pc) (hpc' : ∀ k outcome, pc ≠ .resolving k outcome) :
    Sourced calls s' := by
  refine h.of_pc ?_ ?_ ?_ hpc hpc'
  · intro id p hl
    rwa [hp] at hl
  · intro resp hm
    rwa [hr]
  · intro k v hv
    rwa [hs] at hv

theorem sourced_park {deadline : Int64} (h : Sourced calls s) :
    Sourced calls (s.park t k deadline) := by
  unfold State.park
  split
  · exact h.still rfl rfl rfl rfl nofun
  · split
    · exact h.still rfl rfl rfl rfl nofun
    · have hbase : Sourced calls (s.setPC t (.sending k)) :=
        h.still rfl rfl rfl rfl nofun
      refine ⟨?_, hbase.taken, hbase.value⟩
      intro id p hl
      rcases Dict.lookup_of_lookup_insert hl with ⟨rfl, rfl⟩ | ⟨-, hl⟩
      · rfl
      · exact h.filed id p hl

theorem sourced_pull {e : Exception} (h : Sourced calls s) : Sourced calls (s.pull t k e) := by
  unfold State.pull
  split
  · exact h.still rfl rfl rfl rfl nofun
  · exact h.of_pc (fun _ _ => Dict.lookup_of_lookup_erase) (fun _ => id) (fun _ _ => id) rfl nofun

/-- The entry a response takes out is the one filed under the id the response carries. -/
theorem sourced_takeResponse {resp : JsonRpcResponse} (h : Sourced calls s) (hpc : s.pc t = .idle) :
    Sourced calls (s.takeResponse t resp) := by
  have hr : ∀ r ∈ s.received, r ∈ s.received ++ [resp] := fun r hm => by simp [hm]
  have hsame : s.pc = Function.update s.pc t .idle := by simp [← hpc]
  have hbase : Sourced calls { s with received := s.received ++ [resp] } :=
    h.of_pc (fun _ _ => id) hr (fun _ _ => id) hsame nofun
  unfold State.takeResponse
  dsimp only
  split
  · exact hbase
  · rename_i id hid
    split
    · exact hbase
    · rename_i p hp
      refine ⟨fun i q hl => h.filed i q (Dict.lookup_of_lookup_erase hl), ?_, hbase.value⟩
      intro u k outcome hu
      rcases update_cases hu with ⟨-, hmine⟩ | ⟨-, hu⟩
      · cases hmine
        refine ⟨resp, List.mem_append_right _ (List.mem_singleton.mpr rfl), ?_, rfl⟩
        rw [hid, h.filed id p hp]
      · exact hbase.taken u k outcome hu

theorem sourced_resolve {outcome : Outcome} (h : Sourced calls s)
    (hpc : s.pc t = .resolving k outcome) :
    Sourced calls ({ s with settled := s.settled ++ [(k, settlementOf (calls k) outcome)] }.setPC t
      .idle) := by
  have hbase : Sourced calls (s.setPC t .idle) :=
    h.still rfl rfl rfl rfl nofun
  refine ⟨hbase.filed, hbase.taken, ?_⟩
  intro l v hv
  rcases List.mem_append.mp hv with hv | hv
  · exact h.value l v hv
  · simp only [List.mem_singleton, Prod.mk.injEq] at hv
    obtain ⟨rfl, hv⟩ := hv
    cases outcome with
    | error e => simp [settlementOf] at hv
    | result j =>
      refine ⟨j, h.taken t l (.result j) hpc, ?_⟩
      cases hc : (calls l).convert j <;> simp_all [settlementOf]

theorem sourced_timeoutSection (h : Sourced calls s) : Sourced calls s.timeoutSection := by
  unfold State.timeoutSection
  split
  · exact h.still rfl rfl rfl rfl nofun
  · split <;> exact h.still rfl rfl rfl rfl nofun

theorem sourced_step (h : Step opts calls s a s') (hs : Sourced calls s) : Sourced calls s' := by
  cases h with
  | startClaim _ _ | startClear _ | startTransport _ | sendOk _ | sendThrow _ | nextId _
  | onCloseStore _ | onCloseFire _ | onCloseReturn _ | closeCall _ | closeDrained _ _
  | closeTransport _ | closeNotify _ | closeReturn _ _ | dispatch _ | spawn _ | spawnThrow _ =>
    exact hs.still rfl rfl rfl rfl nofun
  | startTimer _ _ =>
    have htimer : Sourced calls (s.setPC .timer .locking) :=
      hs.still rfl rfl rfl rfl nofun
    exact htimer.still rfl rfl rfl rfl nofun
  | park _ => exact sourced_park hs
  | pull _ => exact sourced_pull hs
  | response hpc => exact sourced_takeResponse hs hpc
  | resolve hpc => exact sourced_resolve hs hpc
  | reject _ =>
    refine hs.of_pc (fun _ _ => id) (fun _ => id) ?_ rfl nofun
    intro l v hv
    simpa [State.setPC] using hv
  | rejected _ =>
    rename_i next _
    refine hs.still rfl rfl rfl rfl ?_
    cases next <;> nofun
  | timerSection _ => exact sourced_timeoutSection hs
  | timerWake _ => exact sourced_timeoutSection hs
  | timerExpire _ _ =>
    exact hs.of_pc (fun _ _ hl => (Dict.lookup_of_lookup_filter hl).1) (fun _ => id) (fun _ _ => id)
      rfl nofun
  | setOnClosed => exact ⟨hs.filed, hs.taken, hs.value⟩
  | onClose _ => exact hs.of_pc nofun (fun _ => id) (fun _ _ => id) rfl nofun
  | closeCancel _ => exact hs.of_pc nofun (fun _ => id) (fun _ _ => id) rfl nofun
  | workerDone _ => exact ⟨hs.filed, hs.taken, hs.value⟩

theorem sourced_reachable (h : (machine opts calls).Reachable Free s) : Sourced calls s := by
  refine h.invariant (P := Sourced calls) ?_ (fun _ _ _ _ hs _ hst => sourced_step hst hs)
  rintro s rfl
  refine ⟨nofun, ?_, nofun⟩
  intro t k outcome ht
  cases t <;> cases ht

/-- The park section of request `k` has run. -/
def Issued (s : State V) (k : ℕ) : Prop := Live s k ∧ ∀ t, k ∉ (s.pc t).unparked

/-- At every moment of every run an issued request is parked, or held by one thread that is about
to settle it, or settled, and only one of these; its promise has been used at most once; and a
value it was given is what its own `convert` made of a response with its own id. -/
theorem request_correlation (h : (machine opts calls).Reachable Free s) (k : ℕ) :
    (Issued s k → ∃! p, k ∈ hold s p) ∧
    (Issued s k → ∀ t, k ∉ hold s (.caller t)) ∧
    (∀ p, (hold s p).count k ≤ 1) ∧
    (s.settled.map Prod.fst).count k ≤ 1 ∧
    (∀ v, (k, Settlement.value v) ∈ s.settled → ∃ resp ∈ s.received,
      resp.id = some (requestId k) ∧ ∃ j, resp.outcome = .result j ∧
        (calls k).convert j = .ok v) := by
  have hx := exclusive_reachable h
  refine ⟨fun hk => hx.existsUnique hk.1, fun hk => hk.2, fun p => hx.count_le_one p k, ?_, ?_⟩
  · simpa [hold] using hx.count_le_one .settled k
  · intro v hv
    obtain ⟨j, ⟨resp, hm, hid, ho⟩, hc⟩ := (sourced_reachable h).value k v hv
    exact ⟨resp, hm, hid, j, ho, hc⟩

/-- A fresh session after one thread has parked a ping. -/
def pinged : State Json :=
  let s := { fresh Json with issued := 1 }.setPC (.app 0) (.registering 0 (deadlineOf {} 0 0))
  s.park (.app 0) 0 (deadlineOf {} 0 0)

theorem pinged_reachable : (machine {} (fun _ => ping)).Reachable Free pinged := by
  have h₀ : (machine {} (fun _ => ping)).Reachable Free (fresh Json) := .initial rfl
  have h₁ := reachable_step (a := .nextId (.app 0) 0) h₀ trivial (.nextId rfl)
  exact reachable_step (a := .park (.app 0)) h₁ trivial (.park rfl)

theorem ping_is_parked : ∃! p, 0 ∈ hold pinged p := by
  refine (request_correlation pinged_reachable 0).1 ⟨Nat.zero_lt_one, ?_⟩
  intro t
  rcases t with _ | _ | n <;> simp [pinged, State.park, fresh, State.setPC, PC.unparked]

end Mcp.Session
