import Mcp.Library.Custody
import Mcp.Tasks.Server

/-! What the StatusListener sees of one task. A projection is a token: it waits in the hands of the
thread that made it and is then sent. -/
namespace Mcp.Tasks

open Transition Custody

/-- The projection a thread is about to hand to the listener. -/
def PC.projection : PC → Option Task
  | .notifying p _ => some p
  | _ => none

/-- What a step does to the tasks and their projections. -/
inductive Change (s : State) : Action → State → Prop where
  | silent {a s'} : s'.store = s.store → s'.sent = s.sent →
      (∀ u, (s'.pc u).projection = (s.pc u).projection) → Change s a s'
  | created {a s' t id now steady ttl pc} : (s.pc t).projection = none → id ∉ s.store.entries →
      s'.store.entries = s.store.entries.insert id (Entry.mint id now steady ttl) →
      s'.sent = s.sent → s'.pc = Function.update s.pc t pc →
      pc.projection = some (Entry.mint id now steady ttl).task → Change s a s'
  | settled {a s' t id e e' pc} : (s.pc t).projection = none →
      s.store.entries.lookup id = some e → e.task.status.isTerminal = false →
      e'.task.status.isTerminal = true → e'.task.taskId = e.task.taskId →
      s'.store.entries = s.store.entries.insert id e' →
      s'.sent = s.sent → s'.pc = Function.update s.pc t pc → pc.projection = some e'.task →
      Change s a s'
  | notified {s' t p next} : s.pc t = .notifying p next → s'.store = s.store →
      s'.sent = s.sent ++ [p] → s'.pc = Function.update s.pc t next.pc → Change s (.notify t) s'

variable {cap : ℕ} {s s' : State} {a : Action} {t u : ℕ} {id : String} {e : Entry} {p q : Task}

@[simp] theorem projection_after (next : After) : next.pc.projection = none := by
  cases next <;> rfl

theorem silent_update {pc : PC} (hs : s'.store = s.store) (hn : s'.sent = s.sent)
    (hpc : s'.pc = Function.update s.pc t pc) (hp : pc.projection = none)
    (ht : (s.pc t).projection = none) : Change s a s' := by
  refine .silent hs hn ?_
  intro u
  by_cases he : u = t
  · subst u
    simp [hpc, hp, ht]
  · simp [hpc, he]

theorem projection_calls {pc : PC} {next : After} (h : Calls id pc next) :
    pc.projection = none := by
  cases h <;> rfl

/-- The section that `complete`, `fail` and `cancel` share. -/
theorem change_commit {f : Entry → Entry} {next : After}
    (hcall : Calls id (s.pc t) next)
    (hf : ∀ e, (f e).task.status.isTerminal = true ∧ (f e).task.taskId = e.task.taskId) :
    Change s a (s.commit t (s.store.settle id f) next) := by
  cases hl : s.store.entries.lookup id with
  | none =>
    have hr : s.store.settle id f = (s.store, none) := by simp [TaskStore.settle, hl]
    rw [hr]
    exact silent_update rfl rfl rfl (projection_after next) (projection_calls hcall)
  | some e =>
    cases ho : e.task.status.isTerminal with
    | true =>
      rw [settle_terminal hl ho]
      exact silent_update rfl rfl rfl (projection_after next) (projection_calls hcall)
    | false =>
      rw [settle_open hl ho]
      exact .settled (projection_calls hcall) hl ho (hf e).1 (hf e).2 rfl rfl rfl rfl

theorem step_change (hs : Step cap s a s') : Change s a s' := by
  cases hs with
  | refuse _ _ _ | get _ | list _ => exact .silent rfl rfl (fun _ => rfl)
  | check hpc _ | started hpc | spawnThrow hpc | finished hpc =>
    exact silent_update rfl rfl rfl rfl (by rw [hpc]; rfl)
  | @create t i now steady ttl hpc hid =>
    have hs : Dict.tryEmplace i (Entry.mint i now steady ttl) s.store.entries =
        s.store.entries.insert i (Entry.mint i now steady ttl) := by
      simp [Dict.tryEmplace, hid]
    exact .created (by rw [hpc]; rfl) hid hs rfl rfl rfl
  | notify hpc => exact .notified hpc rfl rfl rfl
  | @spawn t u i hpc hu =>
    refine .silent rfl rfl ?_
    intro v
    by_cases ht : v = t
    · subst v
      simp [hpc, PC.projection]
    · by_cases he : v = u
      · subst v
        simp [ht, hu, PC.projection]
      · simp [ht, he]
  | complete hcall =>
    refine change_commit hcall ?_
    intro e
    cases hc : e.cancelled <;> simp [Entry.complete, Entry.touch, hc, TaskStatus.isTerminal]
  | fail hcall =>
    exact change_commit hcall (fun e => ⟨rfl, rfl⟩)
  | cancel hcall =>
    exact change_commit hcall (fun e => ⟨rfl, rfl⟩)

/-- Which task, and whether its last projection. -/
def Task.token (p : Task) : String × Bool := (p.taskId, p.status.isTerminal)

inductive Place where
  | pending (t : ℕ)
  | sent
  deriving DecidableEq

def hold (s : State) : Place → Multiset (String × Bool)
  | .pending t => ((s.pc t).projection.map Task.token).toList
  | .sent => s.sent.map Task.token

/-- The task exists, and for its last projection is terminal. -/
def Live (s : State) (x : String × Bool) : Prop :=
  ∃ e, s.store.entries.lookup x.1 = some e ∧ (x.2 = true → e.task.status.isTerminal = true)

abbrev Moves (s s' : State) : Prop := Move (Live s) (hold s) (Live s') (hold s')

/-- Entries are filed under their own task's id. -/
def Keyed (s : State) : Prop :=
  ∀ id e, s.store.entries.lookup id = some e → e.task.taskId = id

theorem keyed_change (h : Change s a s') (hk : Keyed s) : Keyed s' := by
  intro i e hl
  cases h with
  | silent hs _ _ | notified _ hs _ _ =>
    rw [hs] at hl
    exact hk i e hl
  | created _ _ hs _ _ _ =>
    rw [hs] at hl
    rcases Dict.lookup_of_lookup_insert hl with ⟨rfl, rfl⟩ | ⟨-, hl⟩
    · rfl
    · exact hk i e hl
  | settled _ hold _ _ hid hs _ _ _ =>
    rw [hs] at hl
    rcases Dict.lookup_of_lookup_insert hl with ⟨rfl, rfl⟩ | ⟨-, hl⟩
    · exact hid.trans (hk _ _ hold)
    · exact hk i e hl

theorem live_of_store (hs : s'.store = s.store) (x : String × Bool) : Live s' x ↔ Live s x := by
  simp [Live, hs]

/-- A new projection appears in the hands of the thread that made it. -/
theorem mint_projection {pc : PC} (hn : s'.sent = s.sent)
    (hpc : s'.pc = Function.update s.pc t pc) (hp : pc.projection = some p)
    (ht : (s.pc t).projection = none) : Mint p.token (.pending t) (hold s) (hold s') := by
  constructor
  · simp [hold, hpc, hp, ht]
  · intro r hne
    cases r with
    | sent => simp [hold, hn]
    | pending u =>
      have hut : u ≠ t := fun he => hne (by rw [he])
      simp [hold, hpc, hut]

/-- A new task is there for its first projection only. -/
theorem live_created {i now : String} {steady : Int64} {ttl : Option Int64}
    (hid : i ∉ s.store.entries)
    (hs : s'.store.entries = s.store.entries.insert i (Entry.mint i now steady ttl))
    (x : String × Bool) :
    Live s' x ↔ x = (Entry.mint i now steady ttl).task.token ∨ Live s x := by
  obtain ⟨j, last⟩ := x
  by_cases hj : j = i
  · subst j
    have hnone := AList.lookup_eq_none.mpr hid
    cases last <;> simp [Live, hs, hnone, Entry.mint, Task.token, TaskStatus.isTerminal]
  · simp [Live, hs, hj, Entry.mint, Task.token]

/-- A task that is settled is there for its last projection too. -/
theorem live_settled {i : String} {e' : Entry} (hl : s.store.entries.lookup i = some e)
    (hterm : e'.task.status.isTerminal = true) (hid : e'.task.taskId = i)
    (hs : s'.store.entries = s.store.entries.insert i e') (x : String × Bool) :
    Live s' x ↔ x = e'.task.token ∨ Live s x := by
  obtain ⟨j, last⟩ := x
  by_cases hj : j = i
  · subst j
    cases last <;> simp [Live, hs, hl, Task.token, hid, hterm]
  · have hne : j ≠ e'.task.taskId := hid ▸ hj
    simp [Live, hs, hj, Task.token, hne]

theorem moves_change (h : Change s a s') (hk : Keyed s) : Moves s s' := by
  cases h with
  | silent hs hn hp =>
    apply Move.still
    · intro r
      cases r with
      | sent => simp [hold, hn]
      | pending u => simp [hold, hp]
    · exact live_of_store hs
  | @created _ _ t i now steady ttl pc ht hid hs hn hpc hp =>
    refine .mint _ _ ?_ (mint_projection hn hpc hp ht) (live_created hid hs)
    rintro ⟨e, hl, -⟩
    exact hid (AList.lookup_isSome.mp (Option.isSome_of_eq_some hl))
  | @settled _ _ t i e e' pc ht hl ho hterm htid hs hn hpc hp =>
    have hi : e'.task.taskId = i := htid.trans (hk i e hl)
    refine .mint _ _ ?_ (mint_projection hn hpc hp ht) (live_settled hl hterm hi hs)
    rintro ⟨e₁, hl₁, ht₁⟩
    have hl₂ : s.store.entries.lookup e'.task.taskId = some e₁ := hl₁
    rw [hi, hl, Option.some.injEq] at hl₂
    simp [← hl₂, ho, Task.token, hterm] at ht₁
  | @notified _ t p next ht hs hn hpc =>
    refine .transfer {p.token} (.pending t) .sent (by simp) ?_ (live_of_store hs)
    constructor
    · have hp : (PC.notifying p next).projection = some p := rfl
      simp [hold, hpc, ht, hp]
    · simp only [hold, hn, List.map_append, ← Multiset.coe_add]
      exact Multiset.add_comm _ _
    · intro r hne hns
      cases r with
      | sent => exact absurd rfl hns
      | pending u =>
        have hut : u ≠ t := fun he => hne (by rw [he])
        simp [hold, hpc, hut]

theorem keyed_reachable {ok : State → Action → Prop} (h : (machine cap).Reachable ok s) :
    Keyed s := by
  refine h.invariant (P := Keyed) ?_ (fun _ _ _ _ hk _ hst => keyed_change (step_change hst) hk)
  rintro s rfl i e hl
  cases hl

theorem exclusive_reachable {ok : State → Action → Prop} (h : (machine cap).Reachable ok s) :
    Exclusive (Live s) (hold s) := by
  refine h.invariant (P := fun s => Exclusive (Live s) (hold s)) ?_ ?_
  · rintro s rfl
    apply Exclusive.empty
    · intro r
      cases r <;> rfl
    · rintro x ⟨e, hl, -⟩
      cases hl
  · intro s a s' hr hx _ hst
    exact hx.move (moves_change (step_change hst) (keyed_reachable hr))

/-- A projection that has been made, and perhaps sent. -/
def Made (s : State) (p : Task) : Prop := (∃ t, (s.pc t).projection = some p) ∨ p ∈ s.sent

/-- A projection shows a working task or a terminal one. A terminal one shows the entry as it is,
and so does any until the task is settled. -/
structure Shown (s : State) (p : Task) (e : Entry) : Prop where
  entry : s.store.entries.lookup p.taskId = some e
  status : p.status = .working ∨ p.status.isTerminal = true
  last : p.status.isTerminal = true → e.task = p
  first : e.task.status.isTerminal = false → e.task = p

def Faithful (s : State) : Prop := ∀ p, Made s p → ∃ e, Shown s p e

theorem made_update {pc : PC} (hn : s'.sent = s.sent) (hpc : s'.pc = Function.update s.pc t pc)
    (hm : Made s' p) : Made s p ∨ pc.projection = some p := by
  rcases hm with ⟨u, hu⟩ | hsent
  · by_cases he : u = t
    · subst u
      exact .inr (by simpa [hpc] using hu)
    · exact .inl (.inl ⟨u, by simpa [hpc, he] using hu⟩)
  · exact .inl (.inr (hn ▸ hsent))

theorem shown_of_store (hs : s'.store = s.store) (h : ∃ e, Shown s p e) : ∃ e, Shown s' p e := by
  obtain ⟨e, he⟩ := h
  exact ⟨e, by rw [hs]; exact he.entry, he.status, he.last, he.first⟩

theorem faithful_created {i now : String} {steady : Int64} {ttl : Option Int64}
    (hid : i ∉ s.store.entries)
    (hs : s'.store.entries = s.store.entries.insert i (Entry.mint i now steady ttl))
    (h : ∃ e, Shown s p e) : ∃ e, Shown s' p e := by
  obtain ⟨e, he⟩ := h
  have hne : p.taskId ≠ i := by
    rintro rfl
    exact hid (AList.lookup_isSome.mp (Option.isSome_of_eq_some he.entry))
  refine ⟨e, ?_, he.status, he.last, he.first⟩
  rw [hs, AList.lookup_insert_ne hne]
  exact he.entry

theorem faithful_settled {i : String} {e' : Entry} (hl : s.store.entries.lookup i = some e)
    (ho : e.task.status.isTerminal = false) (hterm : e'.task.status.isTerminal = true)
    (hs : s'.store.entries = s.store.entries.insert i e') (h : ∃ e, Shown s p e) :
    ∃ e, Shown s' p e := by
  obtain ⟨e₁, he⟩ := h
  by_cases hi : p.taskId = i
  · have he₁ : e₁ = e := by
      have hentry := he.entry
      rw [hi, hl, Option.some.injEq] at hentry
      exact hentry.symm
    subst e₁
    refine ⟨e', by rw [hs, hi, AList.lookup_insert], he.status, ?_, ?_⟩
    · intro hp
      have hep := he.last hp
      rw [hep, hp] at ho
      cases ho
    · intro hopen
      rw [hterm] at hopen
      cases hopen
  · refine ⟨e₁, ?_, he.status, he.last, he.first⟩
    rw [hs, AList.lookup_insert_ne hi]
    exact he.entry

theorem faithful_change (h : Change s a s') (hk : Keyed s) (hf : Faithful s) : Faithful s' := by
  intro p hm
  cases h with
  | silent hs hn hp =>
    refine shown_of_store hs (hf p ?_)
    rcases hm with ⟨u, hu⟩ | hsent
    · exact .inl ⟨u, (hp u).symm.trans hu⟩
    · exact .inr (hn ▸ hsent)
  | @created _ _ t i now steady ttl pc ht hid hs hn hpc hp =>
    rcases made_update hn hpc hm with hm | hnew
    · exact faithful_created hid hs (hf p hm)
    · obtain rfl : p = _ := Option.some.inj (hnew.symm.trans hp)
      refine ⟨Entry.mint i now steady ttl, ?_, .inl rfl, fun _ => rfl, fun _ => rfl⟩
      rw [hs]
      exact AList.lookup_insert _
  | @settled _ _ t i e e' pc ht hl ho hterm htid hs hn hpc hp =>
    rcases made_update hn hpc hm with hm | hnew
    · exact faithful_settled hl ho hterm hs (hf p hm)
    · obtain rfl : p = _ := Option.some.inj (hnew.symm.trans hp)
      refine ⟨e', ?_, .inr hterm, fun _ => rfl, fun _ => rfl⟩
      rw [hs, htid.trans (hk i e hl)]
      exact AList.lookup_insert _
  | @notified _ t q next ht hs hn hpc =>
    refine shown_of_store hs (hf p ?_)
    rcases hm with ⟨u, hu⟩ | hsent
    · by_cases he : u = t
      · subst u
        simp [hpc] at hu
      · exact .inl ⟨u, by simpa [hpc, he] using hu⟩
    · rw [hn, List.mem_append, List.mem_singleton] at hsent
      rcases hsent with hsent | rfl
      · exact .inr hsent
      · exact .inl ⟨t, by rw [ht]; rfl⟩

theorem faithful_reachable {ok : State → Action → Prop} (h : (machine cap).Reachable ok s) :
    Faithful s := by
  refine h.invariant (P := Faithful) ?_
    (fun _ _ _ hr hf _ hst => faithful_change (step_change hst) (keyed_reachable hr) hf)
  rintro s rfl p (⟨u, hu⟩ | hsent)
  · cases hu
  · cases hsent

/-- What the listener has been given about one task. -/
def history (s : State) (id : String) : List Task := s.sent.filter (fun p => p.taskId = id)

/-- The working projection first, and then at most one more, a terminal one. -/
inductive Forward : List Task → Prop where
  | none : Forward []
  | working {w} : w.status = .working → Forward [w]
  | terminal {w x} : w.status = .working → x.status.isTerminal = true → Forward [w, x]

/-- No terminal projection is sent while the call that created the task has its own to send. -/
def InOrder (s : State) : Action → Prop
  | .notify t => ∀ p, (s.pc t).projection = some p → p.status.isTerminal = true →
      ∀ u q, (s.pc u).projection = some q → q.taskId = p.taskId → q.status.isTerminal = true
  | _ => True

theorem mem_history (hp : p ∈ history s id) : p ∈ s.sent ∧ p.taskId = id := by
  simpa [history] using hp

/-- A projection in hand has not been sent. -/
theorem not_sent_of_pending (hx : Exclusive (Live s) (hold s)) (hp : (s.pc t).projection = some p)
    (hq : q ∈ s.sent) (hid : q.taskId = p.taskId) : q.status.isTerminal ≠ p.status.isTerminal := by
  intro hst
  have hpend : p.token ∈ hold s (.pending t) := by simp [hold, hp]
  have hsent : p.token ∈ hold s .sent := by
    have he : q.token = p.token := by simp [Task.token, hid, hst]
    rw [← he]
    simpa [hold] using ⟨q, hq, rfl⟩
  have hplace := hx.place_unique hpend hsent
  cases hplace

/-- A projection that is due and that no thread has in hand has been sent. -/
theorem sent_of_live {last : Bool} (hx : Exclusive (Live s) (hold s)) (hl : Live s (id, last))
    (hp : ∀ u q, (s.pc u).projection = some q → q.taskId = id → q.status.isTerminal ≠ last) :
    ∃ q ∈ history s id, q.status.isTerminal = last := by
  obtain ⟨r, hr, -⟩ := hx.existsUnique hl
  cases r with
  | pending u =>
    cases hu : (s.pc u).projection with
    | none => simp [hold, hu] at hr
    | some q =>
      have hq : (id, last) = q.token := by simpa [hold, hu] using hr
      simp only [Task.token, Prod.mk.injEq] at hq
      exact absurd hq.2.symm (hp u q hu hq.1.symm)
  | sent =>
    obtain ⟨q, hq, he⟩ : ∃ q ∈ s.sent, q.token = (id, last) := by simpa [hold] using hr
    simp only [Task.token, Prod.mk.injEq] at he
    exact ⟨q, by simpa [history] using ⟨hq, he.1⟩, he.2⟩

theorem not_terminal_of_working (h : p.status = .working) : p.status.isTerminal = false := by
  simp [h, TaskStatus.isTerminal]

/-- The first projection is sent when nothing has been. -/
theorem forward_first {ps : List Task} (hf : Forward ps) (hp : p.status = .working)
    (hall : ∀ q ∈ ps, q.status.isTerminal = true) : Forward (ps ++ [p]) := by
  cases hf with
  | none => exact .working hp
  | @working w hw | @terminal w x hw _ =>
    have hterm := hall w (by simp)
    simp [not_terminal_of_working hw] at hterm

/-- The last projection is sent when the first has been. -/
theorem forward_last {ps : List Task} (hf : Forward ps) (hp : p.status.isTerminal = true)
    (hall : ∀ q ∈ ps, q.status.isTerminal = false) (hne : ps ≠ []) : Forward (ps ++ [p]) := by
  cases hf with
  | none => exact absurd rfl hne
  | working hw => exact .terminal hw hp
  | @terminal w x _ hx =>
    have hopen := hall x (by simp)
    simp [hx] at hopen

theorem forward_notified {next : After} (hx : Exclusive (Live s) (hold s)) (hf : Faithful s)
    (hok : InOrder s (.notify t)) (hpc : s.pc t = .notifying p next)
    (hfwd : Forward (history s p.taskId)) : Forward (history s p.taskId ++ [p]) := by
  have hp : (s.pc t).projection = some p := by rw [hpc]; rfl
  have hdiff : ∀ q ∈ history s p.taskId, q.status.isTerminal ≠ p.status.isTerminal := by
    intro q hq
    obtain ⟨hq, hid⟩ := mem_history hq
    exact not_sent_of_pending hx hp hq hid
  obtain ⟨e, he⟩ := hf p (.inl ⟨t, hp⟩)
  rcases he.status with hw | hterm
  · apply forward_first hfwd hw
    intro q hq
    simpa [not_terminal_of_working hw] using hdiff q hq
  · apply forward_last hfwd hterm
    · intro q hq
      simpa [hterm] using hdiff q hq
    · have hlive : Live s (p.taskId, false) := ⟨e, he.entry, nofun⟩
      obtain ⟨w, hw, -⟩ := sent_of_live hx hlive (by
        intro u q hu hid
        simp [hok p hp hterm u q hu hid])
      exact List.ne_nil_of_mem hw

theorem forward_step (hs : Step cap s a s') (hx : Exclusive (Live s) (hold s)) (hf : Faithful s)
    (hok : InOrder s a) (hfwd : ∀ id, Forward (history s id)) : Forward (history s' id) := by
  cases step_change hs with
  | silent _ hn _ | created _ _ _ hn _ _ | settled _ _ _ _ _ _ hn _ _ =>
    simpa [history, hn] using hfwd id
  | @notified _ t p next hpc _ hn _ =>
    have hsplit : history s' id = history s id ++ if p.taskId = id then [p] else [] := by
      simp [history, hn, List.filter_append, List.filter_cons]
    rw [hsplit]
    split
    · rename_i hid
      subst id
      exact forward_notified hx hf hok hpc (hfwd _)
    · simpa using hfwd id

theorem forward_reachable (h : (machine cap).Reachable InOrder s) (id : String) :
    Forward (history s id) := by
  have hall : ∀ id, Forward (history s id) := by
    refine h.invariant (P := fun s => ∀ id, Forward (history s id)) ?_ ?_
    · rintro s rfl id
      exact .none
    · intro s a s' hr hfwd hok hst id
      exact forward_step hst (exclusive_reachable hr) (faithful_reachable hr) hok hfwd
  exact hall id

/-- With nothing left to send, the last projection that was sent is the stored task. -/
theorem last_sent (hx : Exclusive (Live s) (hold s)) (hf : Faithful s)
    (hfwd : Forward (history s id)) (hdone : ∀ t, (s.pc t).projection = none)
    (hl : s.store.entries.lookup id = some e) : (history s id).getLast? = some e.task := by
  have hshown : ∀ q ∈ history s id, Shown s q e := by
    intro q hq
    obtain ⟨hsent, hid⟩ := mem_history hq
    obtain ⟨e', he⟩ := hf q (.inr hsent)
    have hentry := he.entry
    rw [hid, hl, Option.some.injEq] at hentry
    exact hentry ▸ he
  have hsent : ∀ last, Live s (id, last) → ∃ q ∈ history s id, q.status.isTerminal = last := by
    intro last hlive
    refine sent_of_live hx hlive ?_
    intro u q hu
    rw [hdone u] at hu
    cases hu
  generalize history s id = ps at hfwd hshown hsent ⊢
  cases hfwd with
  | none =>
    obtain ⟨q, hq, -⟩ := hsent false ⟨e, hl, nofun⟩
    cases hq
  | @working w hw =>
    cases ho : e.task.status.isTerminal with
    | false =>
      have he := (hshown w (by simp)).first ho
      simp [he]
    | true =>
      obtain ⟨q, hq, hterm⟩ := hsent true ⟨e, hl, fun _ => ho⟩
      rw [List.mem_singleton] at hq
      subst q
      simp [not_terminal_of_working hw] at hterm
  | @terminal w x hw hterm =>
    have he := (hshown x (by simp)).last hterm
    simp [he]

/-- While no terminal projection overtakes the one of the call that created the task, the listener
sees each task forward, and at rest it has last seen the task as the store has it. -/
theorem notifications_forward (h : (machine cap).Reachable InOrder s) (id : String) :
    Forward (history s id) ∧
    ((∀ t, (s.pc t).projection = none) → ∀ e, s.store.entries.lookup id = some e →
      (history s id).getLast? = some e.task) := by
  have hfwd := forward_reachable h id
  refine ⟨hfwd, ?_⟩
  intro hdone e hl
  exact last_sent (exclusive_reachable h) (faithful_reachable h) hfwd hdone hl

/-- A call that creates a task and tells the listener, and then a cancel. -/
theorem cancelled_after_working :
    ∃ s : State, (history s "a").length = 2 ∧ Forward (history s "a") := by
  have h₀ : (machine 0).Reachable InOrder fresh := .initial rfl
  have h₁ := reachable_step (a := .check 0) h₀ trivial (.check rfl (.inl rfl))
  have h₂ := reachable_step (a := .create 0 "a" "t0" 0 none) h₁ trivial (.create rfl (by decide))
  have h₃ := reachable_step (a := .notify 0) h₂ (fun p hp ht => by
    cases hp
    cases ht) (.notify rfl)
  have h₄ := reachable_step (a := .cancel 1 "a" "t1") h₃ trivial (.cancel .client)
  have h₅ := reachable_step (a := .notify 1) h₄ (fun p hp ht u q hu hid => by
    rcases u with _ | _ | u
    · cases hu
    · cases hu
      rfl
    · cases hu) (.notify rfl)
  exact ⟨_, by decide, (notifications_forward h₅ "a").1⟩

/-- A cancel whose caller learned the id from `list` is told to the listener before the call that
created the task has told it of the task: the last projection sent is the working one. -/
theorem working_after_cancelled : ∃ (s : State) (c w : Task), (machine 0).Reachable Free s ∧
    (∀ t, (s.pc t).projection = none) ∧ history s "a" = [c, w] ∧
    c.status = .cancelled ∧ w.status = .working ∧ s.store.get "a" = some c := by
  have h₀ : (machine 0).Reachable Free fresh := .initial rfl
  have h₁ := reachable_step (a := .check 0) h₀ trivial (.check rfl (.inl rfl))
  have h₂ := reachable_step (a := .create 0 "a" "t0" 0 none) h₁ trivial (.create rfl (by decide))
  have h₃ := reachable_step (a := .list 1 none 0) h₂ trivial (.list rfl)
  have h₄ := reachable_step (a := .cancel 1 "a" "t1") h₃ trivial (.cancel .client)
  have h₅ := reachable_step (a := .notify 1) h₄ trivial (.notify rfl)
  have h₆ := reachable_step (a := .notify 0) h₅ trivial (.notify rfl)
  refine ⟨_, _, _, h₆, ?_, rfl, rfl, rfl, rfl⟩
  intro t
  rcases t with _ | _ | t <;> rfl

end Mcp.Tasks
