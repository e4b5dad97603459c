import Mcp.Library.Crowd
import Mcp.Tasks.Server

/-! The cap on task workers, and the gap between its check and the count. -/
namespace Mcp.Tasks

open Transition

variable {cap : ℕ} {s s' : State} {a : Action} {t u : ℕ}

/-- In handle_call_tool, past the check and not yet counted. -/
def PC.unstarted : PC → Prop
  | .checked => True
  | .notifying _ (.starting _) => True
  | .starting _ => True
  | _ => False

/-- Counted, and not yet counted out. -/
def PC.counted : PC → Prop
  | .spawning _ => True
  | .working _ => True
  | .notifying _ .finishing => True
  | .finishing => True
  | _ => False

abbrev Unstarted (s : State) (t : ℕ) : Prop := (s.pc t).unstarted

abbrev Counted (s : State) (t : ℕ) : Prop := (s.pc t).counted

/-- A call passes its check only while there is room for all that have passed theirs. -/
def Room (cap : ℕ) (s : State) : Action → Prop
  | .check _ => Crowd.AtMost (Unstarted s) (cap - 1 - s.workersInflight)
  | _ => True

/-- The workers and the calls that will start one stay within the cap. -/
structure Bounded (cap : ℕ) (s : State) : Prop where
  inflight_le : s.workersInflight ≤ cap
  unstarted : Crowd.AtMost (Unstarted s) (cap - s.workersInflight)

/-- Neither end of a call to settle a task is on the way to start a worker. -/
theorem not_unstarted_commit {id : String} {pc : PC} {next : After} {r : Projection}
    (h : Calls id pc next) :
    ¬ (match r with | none => next.pc | some p => PC.notifying p next).unstarted := by
  cases h <;> cases r <;> simp [PC.unstarted, After.pc]

theorem unstarted_step (hs : Step cap s a s') (hc : ∀ t, a ≠ .check t) (hu : Unstarted s' u) :
    Unstarted s u := by
  cases hs with
  | refuse _ _ _ | get _ | list _ => exact hu
  | check _ _ => exact absurd rfl (hc _)
  | create hpc _ => exact of_update rfl (fun _ => by rw [hpc]; trivial) hu
  | @notify t p next hpc =>
    refine of_update rfl ?_ hu
    intro h
    rw [hpc]
    cases next with
    | starting _ => trivial
    | idle | finishing => exact h.elim
  | started _ | spawnThrow _ | finished _ => exact of_update rfl False.elim hu
  | spawn _ _ => exact of_update rfl False.elim (of_update rfl False.elim hu)
  | complete hcall | fail hcall | cancel hcall =>
    exact of_update rfl (fun h => absurd h (not_unstarted_commit hcall)) hu

theorem inflight_step (hs : Step cap s a s') (hstart : ∀ t, a ≠ .started t) :
    s'.workersInflight ≤ s.workersInflight := by
  cases hs with
  | started _ => exact absurd rfl (hstart _)
  | finished _ => exact Nat.sub_le _ _
  | _ => exact le_rfl

/-- A call that passes its check takes up room. -/
theorem bounded_check (hb : Bounded cap s) (hroom : s.workersInflight < cap)
    (hok : Room cap s (.check t)) : Bounded cap (s.setPC t .checked) := by
  have hcrowd : Crowd.AtMost (Unstarted s) (cap - 1 - s.workersInflight) := hok
  constructor
  · exact hb.inflight_le
  · refine (hcrowd.enter (t := t) ?_).mono (fun _ h => h) ?_
    · intro u hne hu
      simpa [Unstarted, hne] using hu
    · simp only [State.setPC]
      omega

/-- A call that counts its worker gives up the room it took. -/
theorem bounded_started {i : String} (hb : Bounded cap s) (hpc : s.pc t = .starting i) :
    Bounded cap ({ s with workersInflight := s.workersInflight + 1 }.setPC t (.spawning i)) := by
  have ht : Unstarted s t := by simp [Unstarted, hpc, PC.unstarted]
  have hpos := hb.unstarted.pos ht
  constructor
  · simp only [State.setPC]
    omega
  · refine (hb.unstarted.leave ht ?_).mono (fun _ h => h) ?_
    · intro u hu
      by_cases he : u = t
      · subst u
        simp [PC.unstarted] at hu
      · exact ⟨he, by simpa [Unstarted, he] using hu⟩
    · simp only [State.setPC]
      omega

theorem bounded_step (hs : Step cap s a s') (hcap : 0 < cap) (hok : Room cap s a)
    (hb : Bounded cap s) : Bounded cap s' := by
  by_cases hcheck : ∃ t, a = .check t
  · obtain ⟨t, rfl⟩ := hcheck
    cases hs with
    | check _ hroom => exact bounded_check hb (hroom.resolve_left (by omega)) hok
  · by_cases hstart : ∃ t, a = .started t
    · obtain ⟨t, rfl⟩ := hstart
      cases hs with
      | started hpc => exact bounded_started hb hpc
    · have hle := inflight_step hs (fun t he => hstart ⟨t, he⟩)
      constructor
      · exact hle.trans hb.inflight_le
      · refine hb.unstarted.mono ?_ (by omega)
        intro u hu
        exact unstarted_step hs (fun t he => hcheck ⟨t, he⟩) hu

/-- The steps in which no thread can be made. -/
def Action.failsSpawn : Action → Bool
  | .spawnThrow _ => true
  | _ => false

/-- A call to settle a task leaves a worker counted and a client uncounted. -/
theorem counted_commit {id : String} {pc : PC} {next : After} {r : Projection}
    (h : Calls id pc next) :
    (match r with | none => next.pc | some p => PC.notifying p next).counted ↔ pc.counted := by
  cases h <;> cases r <;> rfl

/-- A thread that moves within the count, or outside it, changes nothing. -/
theorem counted_update {pc : PC} (hpc : s'.pc = Function.update s.pc t pc)
    (ht : pc.counted ↔ (s.pc t).counted) (u : ℕ) : Counted s' u ↔ Counted s u := by
  by_cases he : u = t
  · subst u
    simpa [Counted, hpc] using ht
  · simp [Counted, hpc, he]

theorem counted_enter {pc : PC} {k : ℕ} (hk : Crowd.Exactly (Counted s) k) (ht : ¬ Counted s t)
    (hpc : s'.pc = Function.update s.pc t pc) (hin : pc.counted) :
    Crowd.Exactly (Counted s') (k + 1) := by
  refine hk.enter ht ?_
  intro u
  by_cases he : u = t
  · subst u
    simp [Counted, hpc, hin]
  · simp [Counted, hpc, he]

theorem counted_leave {pc : PC} {k : ℕ} (hk : Crowd.Exactly (Counted s) k) (ht : Counted s t)
    (hpc : s'.pc = Function.update s.pc t pc) (hout : ¬ pc.counted) :
    Crowd.Exactly (Counted s') (k - 1) := by
  refine hk.leave ht ?_
  intro u
  by_cases he : u = t
  · subst u
    simp [Counted, hpc, hout]
  · simp [Counted, hpc, he]

/-- A start hands its place in the count on to the worker. -/
theorem counted_spawn {i : String} {k : ℕ} (hk : Crowd.Exactly (Counted s) k)
    (hpc : s.pc t = .spawning i) (hu : s.pc u = .idle) :
    Crowd.Exactly (Counted ((s.setPC u (.working i)).setPC t .idle)) k := by
  have hne : t ≠ u := by
    rintro rfl
    cases hpc.symm.trans hu
  have hin : Crowd.Exactly (Counted (s.setPC u (.working i))) (k + 1) :=
    counted_enter hk (by simp [Counted, hu, PC.counted]) rfl trivial
  have ht : Counted (s.setPC u (.working i)) t := by simp [Counted, hne, hpc, PC.counted]
  exact counted_leave hin ht rfl id

/-- Every worker that runs, or is about to, is counted, and so is every one that could not be
made. -/
theorem counted_step {k n : ℕ} (hs : Step cap s a s') (hk : Crowd.Exactly (Counted s) k)
    (hn : s.workersInflight = k + n) : ∃ k', Crowd.Exactly (Counted s') k' ∧
      s'.workersInflight = k' + (n + a.failsSpawn.toNat) := by
  cases hs with
  | refuse _ _ _ | get _ | list _ => exact ⟨k, hk, hn⟩
  | check hpc _ | create hpc _ =>
    exact ⟨k, hk.congr (counted_update rfl (by rw [hpc]; rfl)), hn⟩
  | @notify t p next hpc =>
    refine ⟨k, hk.congr (counted_update rfl ?_), hn⟩
    rw [hpc]
    cases next <;> rfl
  | started hpc =>
    refine ⟨k + 1, counted_enter hk (by simp [Counted, hpc, PC.counted]) rfl trivial, ?_⟩
    simp only [State.setPC, Action.failsSpawn, Bool.toNat_false]
    omega
  | spawn hpc hu => exact ⟨k, counted_spawn hk hpc hu, hn⟩
  | @spawnThrow t i hpc =>
    have ht : Counted s t := by simp [Counted, hpc, PC.counted]
    have hpos := hk.pos ht
    refine ⟨k - 1, counted_leave hk ht rfl id, ?_⟩
    simp only [State.setPC, Action.failsSpawn, Bool.toNat_true]
    omega
  | complete hcall | fail hcall | cancel hcall =>
    exact ⟨k, hk.congr (counted_update rfl (counted_commit hcall)), hn⟩
  | @finished t hpc =>
    have ht : Counted s t := by simp [Counted, hpc, PC.counted]
    have hpos := hk.pos ht
    refine ⟨k - 1, counted_leave hk ht rfl id, ?_⟩
    simp only [State.setPC, Action.failsSpawn, Bool.toNat_false]
    omega

theorem bounded_fresh : Bounded cap fresh := by
  constructor
  · exact Nat.zero_le _
  · exact Crowd.AtMost.none (fun _ => id)

theorem counted_reachable {ok : State → Action → Prop} (h : (machine cap).Reachable ok s) :
    Crowd.AtMost (Counted s) s.workersInflight := by
  have hcounted : ∃ k n, Crowd.Exactly (Counted s) k ∧ s.workersInflight = k + n := by
    refine h.invariant (P := fun s => ∃ k n, Crowd.Exactly (Counted s) k ∧
      s.workersInflight = k + n) ?_ ?_
    · rintro s rfl
      exact ⟨0, 0, Crowd.Exactly.none (fun _ => id), rfl⟩
    · rintro s a s' - ⟨k, n, hk, hn⟩ - hst
      obtain ⟨k', hk', hn'⟩ := counted_step hst hk hn
      exact ⟨k', _, hk', hn'⟩
  obtain ⟨k, n, hk, hn⟩ := hcounted
  exact hk.atMost (by omega)

/-- While no call passes its check unless there is room for all that have, no more task workers
are in flight, or run, than the cap allows. -/
theorem workersInflight_le_cap (hcap : 0 < cap) (h : (machine cap).Reachable (Room cap) s) :
    s.workersInflight ≤ cap ∧ Crowd.AtMost (Counted s) cap := by
  have hb : Bounded cap s := by
    refine h.invariant (P := Bounded cap) ?_
      (fun _ _ _ _ hb hok hst => bounded_step hst hcap hok hb)
    rintro s rfl
    exact bounded_fresh
  exact ⟨hb.inflight_le, (counted_reachable h).mono (fun _ hu => hu) hb.inflight_le⟩

/-- Under a cap of one, a second call that comes when the first worker has finished. -/
theorem one_after_another : ∃ s : State, s.pc 1 = .checked ∧ s.workersInflight ≤ 1 := by
  have h₀ : (machine 1).Reachable (Room 1) fresh := .initial rfl
  have h₁ := reachable_step (a := .check 0) h₀ (Crowd.AtMost.none fun _ => id)
    (.check rfl (.inr Nat.one_pos))
  have h₂ := reachable_step (a := .create 0 "a" "t0" 0 none) h₁ trivial (.create rfl (by decide))
  have h₃ := reachable_step (a := .notify 0) h₂ trivial (.notify rfl)
  have h₄ := reachable_step (a := .started 0) h₃ trivial (.started rfl)
  have h₅ := reachable_step (a := .spawn 0 2) h₄ trivial (.spawn rfl rfl)
  have h₆ := reachable_step (a := .complete 2 "a" .null "t1") h₅ trivial (.complete .worker)
  have h₇ := reachable_step (a := .notify 2) h₆ trivial (.notify rfl)
  have h₈ := reachable_step (a := .finished 2) h₇ trivial (.finished rfl)
  have h₉ := reachable_step (a := .check 1) h₈
    (Crowd.AtMost.none fun u => by rcases u with _ | _ | _ | u <;> exact id)
    (.check rfl (.inr Nat.one_pos))
  exact ⟨_, rfl, (workersInflight_le_cap Nat.one_pos h₉).1⟩

/-- Under a cap of one, two calls that both pass the check put two workers in flight. -/
theorem two_pass_the_check : ∃ s : State, (machine 1).Reachable Free s ∧ s.workersInflight = 2 := by
  have h₀ : (machine 1).Reachable Free fresh := .initial rfl
  have h₁ := reachable_step (a := .check 0) h₀ trivial (.check rfl (.inr Nat.one_pos))
  have h₂ := reachable_step (a := .check 1) h₁ trivial (.check rfl (.inr Nat.one_pos))
  have h₃ := reachable_step (a := .create 0 "a" "t0" 0 none) h₂ trivial (.create rfl (by decide))
  have h₄ := reachable_step (a := .notify 0) h₃ trivial (.notify rfl)
  have h₅ := reachable_step (a := .started 0) h₄ trivial (.started rfl)
  have h₆ := reachable_step (a := .create 1 "b" "t1" 0 none) h₅ trivial (.create rfl (by decide))
  have h₇ := reachable_step (a := .notify 1) h₆ trivial (.notify rfl)
  have h₈ := reachable_step (a := .started 1) h₇ trivial (.started rfl)
  exact ⟨_, h₈, rfl⟩

end Mcp.Tasks
