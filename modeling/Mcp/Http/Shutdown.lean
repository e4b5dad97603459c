import Mcp.Http.Ledger

/-! stop() against the handlers in flight: who has a session context in hand, and what has been
done to it. -/
namespace Mcp.Http

open Transition Custody

variable {opts : Options} {s s' : State} {a : Action} {t u k : ℕ}

/-- The context a DELETE has taken out of the table. -/
def PC.holds : PC → Multiset ℕ
  | .hooking k => {k}
  | .closing k => {k}
  | .joining k => {k}
  | _ => 0

/-- The contexts stop() has taken and not yet joined. -/
def StopPC.holds : StopPC → Multiset ℕ
  | .hooking _ drained => drained
  | .closing _ drained => drained
  | .stoppingHttp drained => drained
  | .joiningListener drained => drained
  | .joining todo => todo
  | .running | .swapping | .stopped => 0

def hold (s : State) : Place → Multiset ℕ
  | .table => Dict.values s.sessions
  | .handler t => (s.pc t).holds
  | .stop => s.stop.holds
  | .joined => s.joined

abbrev Moves (s s' : State) : Prop := Move (Inserted s) (hold s) (Inserted s') (hold s')

/-- Contexts are accounted for by who has them in hand, and joining them is the work. -/
def holdings : Account where
  handler := PC.holds
  stop := StopPC.holds
  done _ joined := joined
  handler_eq_zero pc h := by cases pc <;> simp_all [PC.holds]
  handler_hooking _ := rfl
  stop_swapping := rfl
  stop_hooking _ := rfl

theorem hold_eq (s : State) : hold s = holdings.ledger s := by
  funext p
  cases p <;> rfl

open Account in
/-- Each step of the host is one custody move of the session contexts. -/
theorem step_moves (hs : Step opts s a s') : Moves s s' := by
  rw [Moves, hold_eq, hold_eq]
  cases hs with
  | refuse hpc _ _ | post hpc _ _ _ | postMint hpc _ _ _ _ _ _ | resolveThrow hpc _ | reply hpc
  | get hpc _ _ | leave hpc | delete hpc _ _ | hook hpc | hookThrow hpc | close hpc
  | respond hpc =>
    exact moves_pc rfl rfl rfl rfl rfl (by rw [hpc]; rfl)
  | resolve hpc => exact moves_resolve hpc
  | «open» hpc =>
    split <;> exact moves_pc rfl rfl rfl rfl rfl (by rw [hpc]; rfl)
  | erase hpc => exact moves_erase hpc
  | join hpc => exact moves_done rfl rfl rfl rfl rfl (by rw [hpc]; rfl) rfl
  | stop hst | stopHook hst | stopHookThrow hst | stopHooked hst | stopClose hst | stopClosed hst
  | stopHttp hst | stopListener hst _ | stopReturn hst =>
    exact moves_stop rfl rfl rfl rfl (by rw [hst]; rfl)
  | stopAgain _ => exact moves_stop rfl rfl rfl rfl rfl
  | stopSwap hst => exact moves_swap hst
  | stopJoin hst => exact moves_stopDone rfl rfl rfl rfl (by rw [hst]; rfl)

theorem exclusive_reachable {ok : State → Action → Prop} (h : (machine opts).Reachable ok s) :
    Exclusive (Inserted s) (hold s) := by
  refine h.invariant (P := fun s => Exclusive (Inserted s) (hold s)) ?_
    (fun _ _ _ _ hx _ hst => hx.move (step_moves hst))
  rintro s rfl
  rw [hold_eq]
  exact Account.exclusive_fresh rfl rfl

/-- What stop() has done so far to the contexts it has taken. -/
def StopPC.attended (hooked closed : List ℕ) : StopPC → Prop
  | .hooking todo drained => ∀ k ∈ drained, k ∈ todo ∨ k ∈ hooked
  | .closing todo drained => ∀ k ∈ drained, k ∈ hooked ∧ (k ∈ todo ∨ k ∈ closed)
  | .stoppingHttp drained => ∀ k ∈ drained, k ∈ hooked ∧ k ∈ closed
  | .joiningListener drained => ∀ k ∈ drained, k ∈ hooked ∧ k ∈ closed
  | .joining todo => ∀ k ∈ todo, k ∈ hooked ∧ k ∈ closed
  | .running | .swapping | .stopped => True

/-- What a DELETE has done so far to the context it has taken. -/
def PC.attended (hooked closed : List ℕ) : PC → Prop
  | .closing k => k ∈ hooked
  | .joining k => k ∈ hooked ∧ k ∈ closed
  | _ => True

/-- A thread that is joined belongs to a context that has been hooked and closed. -/
structure Attended (s : State) : Prop where
  handler : ∀ t, (s.pc t).attended s.hooked s.closed
  stop : s.stop.attended s.hooked s.closed
  joined : ∀ k ∈ s.joined, k ∈ s.hooked ∧ k ∈ s.closed

theorem pc_attended_mono {hooked hooked' closed closed' : List ℕ} {pc : PC}
    (h : pc.attended hooked closed) (hh : ∀ k ∈ hooked, k ∈ hooked')
    (hc : ∀ k ∈ closed, k ∈ closed') : pc.attended hooked' closed' := by
  cases pc with
  | closing k => exact hh k h
  | joining k => exact ⟨hh k h.1, hc k h.2⟩
  | _ => trivial

theorem stop_attended_mono {hooked hooked' closed closed' : List ℕ} {pc : StopPC}
    (h : pc.attended hooked closed) (hh : ∀ k ∈ hooked, k ∈ hooked')
    (hc : ∀ k ∈ closed, k ∈ closed') : pc.attended hooked' closed' := by
  cases pc with
  | hooking todo drained => exact fun k hk => (h k hk).imp_right (hh k)
  | closing todo drained => exact fun k hk => ⟨hh k (h k hk).1, (h k hk).2.imp_right (hc k)⟩
  | stoppingHttp drained | joiningListener drained | joining todo =>
    exact fun k hk => ⟨hh k (h k hk).1, hc k (h k hk).2⟩
  | running | swapping | stopped => trivial

theorem Attended.handler_at {pc : PC} (h : Attended s) (hpc : s.pc t = pc) :
    pc.attended s.hooked s.closed := by
  rw [← hpc]
  exact h.handler t

theorem Attended.stop_at {pc : StopPC} (h : Attended s) (hst : s.stop = pc) :
    pc.attended s.hooked s.closed := by
  rw [← hst]
  exact h.stop

/-- What has been joined stays hooked and closed. -/
theorem Attended.joined_mono (h : Attended s) (hh : ∀ k ∈ s.hooked, k ∈ s'.hooked)
    (hc : ∀ k ∈ s.closed, k ∈ s'.closed)
    (hj : ∀ k ∈ s'.joined, k ∈ s.joined ∨ (k ∈ s'.hooked ∧ k ∈ s'.closed)) :
    ∀ k ∈ s'.joined, k ∈ s'.hooked ∧ k ∈ s'.closed := by
  intro k hk
  rcases hj k hk with hk | hk
  · exact ⟨hh k (h.joined k hk).1, hc k (h.joined k hk).2⟩
  · exact hk

/-- The context at hand moves from those to do to those done. -/
theorem mem_done {todo done : List ℕ} {l : ℕ} (h : l ∈ k :: todo ∨ l ∈ done) :
    l ∈ todo ∨ l ∈ done ++ [k] := by
  rcases h with h | h
  · rcases List.mem_cons.mp h with rfl | h
    · exact .inr (List.mem_append_right _ (by simp))
    · exact .inl h
  · exact .inr (List.mem_append_left _ h)

theorem mem_joined {P : ℕ → Prop} {xs : List ℕ} (hk : P k) : ∀ l ∈ xs ++ [k], l ∈ xs ∨ P l := by
  intro l hl
  rcases List.mem_append.mp hl with hl | hl
  · exact .inl hl
  · rw [List.mem_singleton.mp hl]
    exact .inr hk

/-- A handler that moves on, having done what its new stage stands for. -/
theorem attended_pc {pc : PC} (h : Attended s) (hpc : s'.pc = Function.update s.pc t pc)
    (hst : s'.stop = s.stop) (hh : ∀ k ∈ s.hooked, k ∈ s'.hooked)
    (hc : ∀ k ∈ s.closed, k ∈ s'.closed) (hp : pc.attended s'.hooked s'.closed)
    (hj : ∀ k ∈ s'.joined, k ∈ s.joined ∨ (k ∈ s'.hooked ∧ k ∈ s'.closed)) : Attended s' := by
  constructor
  · intro u
    by_cases he : u = t
    · subst u
      simpa [hpc] using hp
    · simpa [hpc, he] using pc_attended_mono (h.handler u) hh hc
  · rw [hst]
    exact stop_attended_mono h.stop hh hc
  · exact h.joined_mono hh hc hj

/-- stop() moves on, having done what its new stage stands for. -/
theorem attended_stop (h : Attended s) (hpc : s'.pc = s.pc)
    (hh : ∀ k ∈ s.hooked, k ∈ s'.hooked) (hc : ∀ k ∈ s.closed, k ∈ s'.closed)
    (hst : s'.stop.attended s'.hooked s'.closed)
    (hj : ∀ k ∈ s'.joined, k ∈ s.joined ∨ (k ∈ s'.hooked ∧ k ∈ s'.closed)) : Attended s' := by
  constructor
  · intro u
    rw [hpc]
    exact pc_attended_mono (h.handler u) hh hc
  · exact hst
  · exact h.joined_mono hh hc hj

theorem attended_step (hs : Step opts s a s') (h : Attended s) : Attended s' := by
  have hsame : ∀ xs : List ℕ, ∀ k ∈ xs, k ∈ xs := fun _ _ hk => hk
  have hmore : ∀ (xs : List ℕ) (x : ℕ), ∀ k ∈ xs, k ∈ xs ++ [x] :=
    fun _ _ _ hk => List.mem_append_left _ hk
  cases hs with
  | refuse _ _ _ | post _ _ _ _ | postMint _ _ _ _ _ _ _ | resolveThrow _ _ | reply _
  | get _ _ _ | leave _ | delete _ _ _ | respond _ =>
    exact attended_pc h rfl rfl (hsame _) (hsame _) trivial (fun _ hk => .inl hk)
  | @resolve t req sid _ =>
    cases s.resolve req sid <;>
      exact attended_pc h rfl rfl (hsame _) (hsame _) trivial (fun _ hk => .inl hk)
  | «open» _ | erase _ =>
    split <;> exact attended_pc h rfl rfl (hsame _) (hsame _) trivial (fun _ hk => .inl hk)
  | @hook t k hpc | @hookThrow t k hpc =>
    exact attended_pc h rfl rfl (hmore _ k) (hsame _) (List.mem_append_right _ (by simp))
      (fun _ hk => .inl hk)
  | @close t k hpc =>
    have hk : k ∈ s.hooked := h.handler_at hpc
    exact attended_pc h rfl rfl (hsame _) (hmore _ k) ⟨hk, List.mem_append_right _ (by simp)⟩
      (fun _ hk => .inl hk)
  | @join t k hpc =>
    have hk : k ∈ s.hooked ∧ k ∈ s.closed := h.handler_at hpc
    exact attended_pc h rfl rfl (hsame _) (hsame _) trivial (mem_joined hk)
  | stop hst =>
    exact attended_stop h rfl (hsame _) (hsame _) trivial (fun _ hk => .inl hk)
  | stopAgain _ => exact h
  | stopSwap hst =>
    exact attended_stop h rfl (hsame _) (hsame _) (fun _ hk => .inl hk) (fun _ hk => .inl hk)
  | @stopHook k todo drained hst | @stopHookThrow k todo drained hst =>
    have hd : ∀ l ∈ drained, l ∈ k :: todo ∨ l ∈ s.hooked := h.stop_at hst
    refine attended_stop h rfl (hmore _ k) (hsame _) ?_ (fun _ hk => .inl hk)
    intro l hl
    exact mem_done (hd l hl)
  | @stopHooked drained hst =>
    have hd : ∀ l ∈ drained, l ∈ [] ∨ l ∈ s.hooked := h.stop_at hst
    refine attended_stop h rfl (hsame _) (hsame _) ?_ (fun _ hk => .inl hk)
    intro l hl
    exact ⟨(hd l hl).resolve_left (by simp), .inl hl⟩
  | @stopClose k todo drained hst =>
    have hd : ∀ l ∈ drained, l ∈ s.hooked ∧ (l ∈ k :: todo ∨ l ∈ s.closed) := h.stop_at hst
    refine attended_stop h rfl (hsame _) (hmore _ k) ?_ (fun _ hk => .inl hk)
    intro l hl
    exact ⟨(hd l hl).1, mem_done (hd l hl).2⟩
  | @stopClosed drained hst =>
    have hd : ∀ l ∈ drained, l ∈ s.hooked ∧ (l ∈ [] ∨ l ∈ s.closed) := h.stop_at hst
    refine attended_stop h rfl (hsame _) (hsame _) ?_ (fun _ hk => .inl hk)
    intro l hl
    exact ⟨(hd l hl).1, (hd l hl).2.resolve_left (by simp)⟩
  | @stopHttp drained hst | @stopListener drained hst _ =>
    have hd : ∀ l ∈ drained, l ∈ s.hooked ∧ l ∈ s.closed := h.stop_at hst
    exact attended_stop h rfl (hsame _) (hsame _) hd (fun _ hk => .inl hk)
  | @stopJoin k todo hst =>
    have hd : ∀ l ∈ k :: todo, l ∈ s.hooked ∧ l ∈ s.closed := h.stop_at hst
    refine attended_stop h rfl (hsame _) (hsame _) ?_ (mem_joined (hd k (by simp)))
    intro l hl
    exact hd l (List.mem_cons_of_mem _ hl)
  | stopReturn hst =>
    exact attended_stop h rfl (hsame _) (hsame _) trivial (fun _ hk => .inl hk)

theorem attended_reachable {ok : State → Action → Prop} (h : (machine opts).Reachable ok s) :
    Attended s := by
  refine h.invariant (P := Attended) ?_ (fun _ _ _ _ ha _ hst => attended_step hst ha)
  rintro s rfl
  exact ⟨fun _ => trivial, trivial, nofun⟩

/-- stop() has taken the table. -/
def StopPC.swapped : StopPC → Prop
  | .running | .swapping => False
  | _ => True

/-- `http.stop()` has returned. -/
def StopPC.httpStopped : StopPC → Prop
  | .joiningListener _ | .joining _ | .stopped => True
  | _ => False

/-- The listener has been joined. -/
def StopPC.listenerJoined : StopPC → Prop
  | .joining _ | .stopped => True
  | _ => False

/-- No POST inserts a context once stop() has taken the table. -/
def InTime (s : State) : Action → Prop
  | .resolve t => ∀ req sid, s.pc t = .resolving req sid → s.resolve req sid = .create →
      ¬ s.stop.swapped
  | _ => True

/-- What each stage of stop() has put an end to. -/
structure Quiescent (s : State) : Prop where
  empty : s.stop.swapped → s.sessions = ∅
  refusing : s.stop.httpStopped → s.accepting = false
  idle : s.stop.listenerJoined → ∀ t, s.pc t = .idle

theorem httpStopped_of_listenerJoined {pc : StopPC} (h : pc.listenerJoined) : pc.httpStopped := by
  cases pc <;> trivial

theorem not_joined_of_accepting (h : Quiescent s) (hacc : s.accepting = true) :
    ¬ s.stop.listenerJoined := by
  intro hj
  have hclosed := h.refusing (httpStopped_of_listenerJoined hj)
  simp [hacc] at hclosed

theorem not_joined_of_busy {pc : PC} (h : Quiescent s) (hpc : s.pc t = pc) (hbusy : pc ≠ .idle) :
    ¬ s.stop.listenerJoined := by
  intro hj
  exact hbusy (hpc.symm.trans (h.idle hj t))

/-- A handler moves, on a host whose listener has not been joined. -/
theorem quiescent_pc (h : Quiescent s) (hst : s'.stop = s.stop)
    (hacc : s'.accepting = s.accepting) (hempty : s.stop.swapped → s'.sessions = ∅)
    (hj : ¬ s.stop.listenerJoined) : Quiescent s' := by
  constructor
  · rw [hst]
    exact hempty
  · rw [hst, hacc]
    exact h.refusing
  · rw [hst]
    intro hj'
    exact absurd hj' hj

theorem quiescent_step (hs : Step opts s a s') (hok : InTime s a) (h : Quiescent s) :
    Quiescent s' := by
  cases hs with
  | refuse _ hacc _ | post _ hacc _ _ | postMint _ hacc _ _ _ _ _ | get _ hacc _
  | delete _ hacc _ =>
    exact quiescent_pc h rfl rfl h.empty (not_joined_of_accepting h hacc)
  | resolveThrow hpc _ | reply hpc | leave hpc | hook hpc | hookThrow hpc | close hpc | join hpc
  | respond hpc =>
    exact quiescent_pc h rfl rfl h.empty (not_joined_of_busy h hpc nofun)
  | @resolve t req sid hpc =>
    have hj := not_joined_of_busy h hpc nofun
    cases hr : s.resolve req sid with
    | found _ | unknown | missing => exact quiescent_pc h rfl rfl h.empty hj
    | create => exact quiescent_pc h rfl rfl (fun hsw => absurd hsw (hok req sid hpc hr)) hj
  | «open» hpc =>
    have hj := not_joined_of_busy h hpc nofun
    split <;> exact quiescent_pc h rfl rfl h.empty hj
  | erase hpc =>
    have hj := not_joined_of_busy h hpc nofun
    split
    · rename_i k hl
      refine quiescent_pc h rfl rfl ?_ hj
      intro hsw
      simp [h.empty hsw] at hl
    · exact quiescent_pc h rfl rfl h.empty hj
  | stop _ => exact ⟨False.elim, False.elim, False.elim⟩
  | stopAgain _ => exact h
  | stopSwap _ => exact ⟨fun _ => rfl, False.elim, False.elim⟩
  | stopHook hst | stopHookThrow hst | stopHooked hst | stopClose hst | stopClosed hst =>
    exact ⟨fun _ => h.empty (by rw [hst]; trivial), False.elim, False.elim⟩
  | stopHttp hst => exact ⟨fun _ => h.empty (by rw [hst]; trivial), fun _ => rfl, False.elim⟩
  | stopListener hst hidle =>
    exact ⟨fun _ => h.empty (by rw [hst]; trivial), fun _ => h.refusing (by rw [hst]; trivial),
      fun _ => hidle⟩
  | stopJoin hst | stopReturn hst =>
    exact ⟨fun _ => h.empty (by rw [hst]; trivial), fun _ => h.refusing (by rw [hst]; trivial),
      fun _ => h.idle (by rw [hst]; trivial)⟩

theorem quiescent_reachable (h : (machine opts).Reachable InTime s) : Quiescent s := by
  refine h.invariant (P := Quiescent) ?_ (fun _ _ _ _ hq hok hst => quiescent_step hst hok hq)
  rintro s rfl
  exact ⟨False.elim, False.elim, False.elim⟩

/-- Once stop() has returned the table is empty, and every context that was ever inserted has been
hooked, closed and joined. -/
theorem stop_leaves_nothing (h : (machine opts).Reachable InTime s) (hstop : s.stop = .stopped) :
    s.sessions = ∅ ∧ ∀ k < s.ids.length, k ∈ s.hooked ∧ k ∈ s.closed ∧ k ∈ s.joined := by
  have hq := quiescent_reachable h
  have hempty : s.sessions = ∅ := hq.empty (by rw [hstop]; trivial)
  refine ⟨hempty, ?_⟩
  intro k hk
  obtain ⟨p, hp, -⟩ := (exclusive_reachable h).existsUnique hk
  cases p with
  | table => simp [hold, hempty] at hp
  | handler t =>
    have hidle := hq.idle (by rw [hstop]; trivial) t
    simp [hold, hidle, PC.holds] at hp
  | stop => simp [hold, hstop, StopPC.holds] at hp
  | joined =>
    have hj : k ∈ s.joined := hp
    have hdone := (attended_reachable h).joined k hj
    exact ⟨hdone.1, hdone.2, hj⟩

/-- A host with one session is stopped. -/
theorem one_session_stopped : ∃ s : State, s.ids = ["a"] ∧ s.sessions = ∅ ∧
    0 ∈ s.hooked ∧ 0 ∈ s.closed ∧ 0 ∈ s.joined := by
  have h₀ : (machine {}).Reachable InTime fresh := .initial rfl
  have h₁ := reachable_step (a := .postMint 0 hello "a") h₀ trivial
    (.postMint rfl rfl rfl rfl hello_isInitializeBody rfl (by decide))
  have h₂ := reachable_step (a := .resolve 0) h₁ (fun _ _ _ _ h => h)
    (resolve_create rfl (resolve_hello rfl rfl))
  have h₃ := reachable_step (a := .reply 0 { status := 200 }) h₂ trivial (.reply rfl)
  have h₄ := reachable_step (a := .respond 0) h₃ trivial (.respond rfl)
  have h₅ := reachable_step (a := .stop) h₄ trivial (.stop rfl)
  have h₆ := reachable_step (a := .stopSwap) h₅ trivial (.stopSwap rfl)
  have h₇ := reachable_step (a := .stopHook) h₆ trivial (.stopHook rfl)
  have h₈ := reachable_step (a := .stopHooked) h₇ trivial (.stopHooked rfl)
  have h₉ := reachable_step (a := .stopClose) h₈ trivial (.stopClose rfl)
  have h₁₀ := reachable_step (a := .stopClosed) h₉ trivial (.stopClosed rfl)
  have h₁₁ := reachable_step (a := .stopHttp) h₁₀ trivial (.stopHttp rfl)
  have h₁₂ := reachable_step (a := .stopListener) h₁₁ trivial
    (.stopListener rfl (fun t => by cases t <;> rfl))
  have h₁₃ := reachable_step (a := .stopJoin) h₁₂ trivial (.stopJoin rfl)
  have h₁₄ := reachable_step (a := .stopReturn) h₁₃ trivial (.stopReturn rfl)
  obtain ⟨hempty, hall⟩ := stop_leaves_nothing h₁₄ rfl
  exact ⟨_, rfl, hempty, hall 0 Nat.one_pos⟩

/-- A POST that has its id when stop() takes the table, and makes its session afterwards: stop()
returns and the session is there, neither hooked, nor closed, nor joined. -/
theorem session_left_behind : ∃ s : State, (machine {}).Reachable Free s ∧ s.stop = .stopped ∧
    s.sessions.lookup "a" = some 0 ∧ s.hooked = [] ∧ s.closed = [] ∧ s.joined = [] := by
  have h₀ : (machine {}).Reachable Free fresh := .initial rfl
  have h₁ := reachable_step (a := .postMint 0 hello "a") h₀ trivial
    (.postMint rfl rfl rfl rfl hello_isInitializeBody rfl (by decide))
  have h₂ := reachable_step (a := .stop) h₁ trivial (.stop rfl)
  have h₃ := reachable_step (a := .stopSwap) h₂ trivial (.stopSwap rfl)
  have h₄ := reachable_step (a := .stopHooked) h₃ trivial (.stopHooked rfl)
  have h₅ := reachable_step (a := .stopClosed) h₄ trivial (.stopClosed rfl)
  have h₆ := reachable_step (a := .resolve 0) h₅ trivial
    (resolve_create rfl (resolve_hello rfl rfl))
  have h₇ := reachable_step (a := .stopHttp) h₆ trivial (.stopHttp rfl)
  have h₈ := reachable_step (a := .reply 0 { status := 200 }) h₇ trivial (.reply rfl)
  have h₉ := reachable_step (a := .respond 0) h₈ trivial (.respond rfl)
  have h₁₀ := reachable_step (a := .stopListener) h₉ trivial
    (.stopListener rfl (fun t => by cases t <;> rfl))
  have h₁₁ := reachable_step (a := .stopReturn) h₁₀ trivial (.stopReturn rfl)
  exact ⟨_, h₁₁, rfl, rfl, rfl, rfl, rfl⟩

end Mcp.Http
