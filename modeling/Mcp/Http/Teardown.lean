import Mcp.Http.Shutdown

/-! The session hook against the two paths that tear a session down: who has still to invoke it,
and who refers to the context. -/
namespace Mcp.Http

open Transition Custody

variable {opts : Options} {s s' : State} {a : Action} {t u k : ℕ}

/-- The context whose hook a DELETE has yet to invoke. -/
def PC.owes : PC → Multiset ℕ
  | .hooking k => {k}
  | _ => 0

def StopPC.owes : StopPC → Multiset ℕ
  | .hooking todo _ => todo
  | _ => 0

/-- Contexts are accounted for by who has to invoke their hook, and invoking it is the work. -/
def owings : Account where
  handler := PC.owes
  stop := StopPC.owes
  done hooked _ := hooked
  handler_eq_zero pc h := by cases pc <;> simp_all [PC.owes]
  handler_hooking _ := rfl
  stop_swapping := rfl
  stop_hooking _ := rfl

open Account in
/-- Each step of the host is one custody move of the hooks that are due. -/
theorem step_owings (hs : Step opts s a s') : owings.Moves s s' := by
  cases hs with
  | refuse hpc _ _ | post hpc _ _ _ | postMint hpc _ _ _ _ _ _ | resolveThrow hpc _ | reply hpc
  | get hpc _ _ | leave hpc | delete hpc _ _ | close hpc | join hpc | respond hpc =>
    exact moves_pc rfl rfl rfl rfl rfl (by rw [hpc]; rfl)
  | resolve hpc => exact moves_resolve hpc
  | «open» hpc =>
    split <;> exact moves_pc rfl rfl rfl rfl rfl (by rw [hpc]; rfl)
  | erase hpc => exact moves_erase hpc
  | hook hpc | hookThrow hpc => exact moves_done rfl rfl rfl rfl rfl (by rw [hpc]; rfl) rfl
  | stop hst | stopHooked hst | stopClose hst | stopClosed hst | stopHttp hst
  | stopListener hst _ | stopJoin hst | stopReturn hst =>
    exact moves_stop rfl rfl rfl rfl (by rw [hst]; rfl)
  | stopAgain _ => exact moves_stop rfl rfl rfl rfl rfl
  | stopSwap hst => exact moves_swap hst
  | stopHook hst | stopHookThrow hst =>
    exact moves_stopDone rfl rfl rfl rfl (by rw [hst]; rfl)

/-- The hook of a context is invoked at most once. -/
theorem hooked_count_le_one {ok : State → Action → Prop} (h : (machine opts).Reachable ok s) :
    s.hooked.count k ≤ 1 := by
  have hx : Exclusive (Inserted s) (owings.ledger s) := by
    refine h.invariant (P := fun s => Exclusive (Inserted s) (owings.ledger s)) ?_
      (fun _ _ _ _ hx _ hst => hx.move (step_owings hst))
    rintro s rfl
    exact Account.exclusive_fresh rfl rfl
  have hc := hx.count_le_one .joined k
  simpa [Account.ledger, owings] using hc

/-- A handler has a reference to the context. -/
def PC.refers (k : ℕ) : PC → Prop
  | .delivering j => j = k
  | pc => k ∈ pc.holds

/-- Somebody has a reference to the context, and so its Server is alive. A DELETE and stop() give
theirs up after the join and no earlier. -/
def Held (s : State) (k : ℕ) : Prop :=
  k ∈ Dict.values s.sessions ∨ (∃ t, (s.pc t).refers k) ∨ k ∈ s.stop.holds

theorem inserted_mono (hs : Step opts s a s') (hk : Inserted s k) : Inserted s' k := by
  cases step_moves hs with
  | still _ hlive | transfer _ _ _ _ _ hlive => exact (hlive k).mpr hk
  | mint _ _ _ _ hlive => exact (hlive k).mpr (.inr hk)

/-- A POST delivers to a context that has been inserted. -/
def Known (s : State) : Prop := ∀ u k, s.pc u = .delivering k → Inserted s k

theorem known_pc {pc : PC} (h : Known s) (hmono : ∀ k, Inserted s k → Inserted s' k)
    (hpc : s'.pc = Function.update s.pc t pc) (hp : ∀ k, pc = .delivering k → Inserted s' k) :
    Known s' := by
  intro u k hu
  rw [hpc] at hu
  rcases update_cases hu with ⟨-, hmine⟩ | ⟨-, hu⟩
  · exact hp k hmine
  · exact hmono k (h u k hu)

theorem known_step (hx : Exclusive (Inserted s) (hold s)) (hs : Step opts s a s') (h : Known s) :
    Known s' := by
  have hmono : ∀ k, Inserted s k → Inserted s' k := fun k => inserted_mono hs
  cases hs with
  | @resolve t req sid hpc =>
    cases hr : s.resolve req sid with
    | found j =>
      rw [hr] at hmono
      refine known_pc h hmono rfl ?_
      rintro _ ⟨⟩
      have hj : j ∈ hold s .table := Dict.mem_values_of_lookup (resolve_found hr)
      exact hx.live_of_mem hj
    | create =>
      rw [hr] at hmono
      refine known_pc h hmono rfl ?_
      rintro _ ⟨⟩
      simp [Inserted, State.insert, State.setPC]
    | unknown | missing => exact known_pc h (fun _ hk => hk) rfl (by simp)
  | «open» _ | erase _ =>
    split <;> exact known_pc h (fun _ hk => hk) rfl (by simp)
  | stop _ | stopAgain _ | stopHook _ | stopHookThrow _ | stopHooked _ | stopClose _
  | stopClosed _ | stopHttp _ | stopListener _ _ | stopJoin _ | stopReturn _ | stopSwap _ =>
    exact h
  | _ => exact known_pc h hmono rfl (by simp)

theorem known_reachable {ok : State → Action → Prop} (h : (machine opts).Reachable ok s) :
    Known s := by
  refine h.invariant (P := Known) ?_
    (fun _ _ _ hr hk _ hst => known_step (exclusive_reachable hr) hst hk)
  rintro s rfl u k hu
  cases hu

theorem inserted_of_held {ok : State → Action → Prop} (h : (machine opts).Reachable ok s)
    (hk : Held s k) : Inserted s k := by
  have hx := exclusive_reachable h
  rcases hk with hk | ⟨t, hk⟩ | hk
  · exact hx.live_of_mem (p := .table) (by exact hk)
  · cases hpc : s.pc t with
    | delivering j =>
      rw [hpc] at hk
      obtain rfl : j = k := hk
      exact known_reachable h t j hpc
    | _ =>
      rw [hpc] at hk
      have hmem : k ∈ hold s (.handler t) := by
        simp only [hold, hpc]
        exact hk
      exact hx.live_of_mem hmem
  · exact hx.live_of_mem (p := .stop) (by exact hk)

/-- Whatever is inserted is held until it has been joined. -/
theorem held_or_joined {ok : State → Action → Prop} (h : (machine opts).Reachable ok s)
    (hk : Inserted s k) : Held s k ∨ k ∈ s.joined := by
  obtain ⟨p, hp, -⟩ := (exclusive_reachable h).existsUnique hk
  cases p with
  | table => exact .inl (.inl hp)
  | handler t =>
    refine .inl (.inr (.inl ⟨t, ?_⟩))
    have hmem : k ∈ (s.pc t).holds := hp
    cases hpc : s.pc t with
    | delivering j =>
      rw [hpc] at hmem
      exact absurd hmem (Multiset.notMem_zero k)
    | _ =>
      rw [hpc] at hmem
      exact hmem
  | stop => exact .inl (.inr (.inr hp))
  | joined => exact .inr hp

/-- A thread is joined by somebody who has invoked the hook. -/
theorem hooked_of_joined_step (hs : Step opts s a s') (ha : Attended s) (hk : k ∈ s'.joined) :
    k ∈ s.hooked := by
  have hold : k ∈ s.joined → k ∈ s.hooked := fun h => (ha.joined k h).1
  cases hs with
  | @join t j hpc =>
    have hj : j ∈ s.hooked ∧ j ∈ s.closed := ha.handler_at hpc
    exact (mem_joined hj.1 k hk).elim hold id
  | @stopJoin j todo hst =>
    have hd : ∀ l ∈ j :: todo, l ∈ s.hooked ∧ l ∈ s.closed := ha.stop_at hst
    exact (mem_joined (P := (· ∈ s.hooked)) (hd j (by simp)).1 k hk).elim hold id
  | @resolve t req sid _ => cases hr : s.resolve req sid <;> rw [hr] at hk <;> exact hold hk
  | «open» _ | erase _ => split at hk <;> exact hold hk
  | _ => exact hold hk

/-- What stop() has yet to close it has taken from the table. -/
def Taken (s : State) : Prop :=
  ∀ todo drained, s.stop = .closing todo drained → ∀ k ∈ todo, k ∈ drained

theorem taken_step (hs : Step opts s a s') (h : Taken s) : Taken s' := by
  cases hs with
  | stop _ | stopSwap _ | stopHook _ | stopHookThrow _ | stopClosed _ | stopHttp _
  | stopListener _ _ | stopJoin _ | stopReturn _ => nofun
  | stopHooked _ =>
    rintro _ _ ⟨⟩ k hk
    exact hk
  | stopClose hst =>
    rintro _ _ ⟨⟩ k hk
    exact h _ _ hst k (List.mem_cons_of_mem _ hk)
  | @resolve t req sid _ => cases s.resolve req sid <;> exact h
  | «open» _ | erase _ => split <;> exact h
  | _ => exact h

theorem taken_reachable {ok : State → Action → Prop} (h : (machine opts).Reachable ok s) :
    Taken s := by
  refine h.invariant (P := Taken) ?_ (fun _ _ _ _ ht _ hst => taken_step hst ht)
  rintro s rfl
  nofun

/-- A transport is closed by somebody who has invoked the hook. -/
theorem hooked_of_closed_step (hs : Step opts s a s') (ha : Attended s) (ht : Taken s)
    (hk : s'.closed = s.closed ++ [k]) : k ∈ s.hooked := by
  have hsame : s'.closed ≠ s.closed := by simp [hk]
  cases hs with
  | @close t j hpc =>
    obtain rfl : j = k := by simpa [State.setPC] using hk
    exact ha.handler_at hpc
  | @stopClose j todo drained hst =>
    obtain rfl : j = k := by simpa using hk
    have hd : ∀ l ∈ drained, l ∈ s.hooked ∧ (l ∈ j :: todo ∨ l ∈ s.closed) := ha.stop_at hst
    exact (hd j (ht _ _ hst j (by simp))).1
  | @resolve t req sid _ =>
    cases hr : s.resolve req sid <;> rw [hr] at hsame <;> exact absurd rfl hsame
  | «open» _ | erase _ => split at hsame <;> exact absurd rfl hsame
  | _ => exact absurd rfl hsame

/-- The hook of a session is invoked at most once, and before any step that closes its transport,
joins its thread or gives up the last reference to its Server. -/
theorem hook_once_and_in_time (opts : Options) (s : State) (h : (machine opts).Reachable Free s)
    (k : ℕ) : s.hooked.count k ≤ 1 ∧ ∀ a s', Step opts s a s' →
      s'.closed = s.closed ++ [k] ∨ s'.joined = s.joined ++ [k] ∨ (Held s k ∧ ¬ Held s' k) →
      k ∈ s.hooked := by
  refine ⟨hooked_count_le_one h, ?_⟩
  intro a s' hs hk
  have ha := attended_reachable h
  rcases hk with hclosed | hjoined | ⟨hheld, hgone⟩
  · exact hooked_of_closed_step hs ha (taken_reachable h) hclosed
  · exact hooked_of_joined_step hs ha (by simp [hjoined])
  · have hi := inserted_mono hs (inserted_of_held h hheld)
    rcases held_or_joined (reachable_step h trivial hs) hi with hheld' | hj
    · exact absurd hheld' hgone
    · exact hooked_of_joined_step hs ha hj

/-- DELETE of the session "a". -/
def deleteA : Request where
  headers := [("Mcp-Session-Id", "a")]
  body := ""

/-- Two DELETEs of one session, and a hook that throws. -/
theorem two_deletes : ∃ s s' : State, (machine {}).Reachable Free s ∧ s.pc 1 = .closing 0 ∧
    s.pc 2 = .responding { status := 204 } ∧ Step {} s (.close 1) s' ∧
    s.hooked.count 0 ≤ 1 ∧ 0 ∈ s.hooked := by
  have h₀ : (machine {}).Reachable Free fresh := .initial rfl
  have h₁ := reachable_step (a := .postMint 0 hello "a") h₀ trivial
    (.postMint rfl rfl rfl rfl hello_isInitializeBody rfl (by decide))
  have h₂ := reachable_step (a := .resolve 0) h₁ trivial
    (resolve_create rfl (resolve_hello rfl rfl))
  have h₃ := reachable_step (a := .delete 1 deleteA) h₂ trivial (.delete rfl rfl (by decide))
  have h₄ := reachable_step (a := .delete 2 deleteA) h₃ trivial (.delete rfl rfl (by decide))
  have h₅ := reachable_step (a := .erase 1) h₄ trivial (.erase rfl)
  have h₆ := reachable_step (a := .erase 2) h₅ trivial (.erase rfl)
  have h₇ := reachable_step (a := .hookThrow 1) h₆ trivial (.hookThrow rfl)
  obtain ⟨honce, htime⟩ := hook_once_and_in_time {} _ h₇ 0
  refine ⟨_, _, h₇, rfl, rfl, .close rfl, honce, ?_⟩
  exact htime (.close 1) _ (.close rfl) (.inl rfl)

end Mcp.Http
