import Mcp.Library.Transition
import Mcp.Tasks.Store

/-! A task is settled once: the fields of an entry agree, and a terminal entry is frozen. -/
namespace Mcp.Tasks

open Transition

variable {s s' s₁ s₂ : TaskStore} {id : String} {e e' : Entry} {f : Entry → Entry}

inductive Op where
  | create (id now : String) (steady : Int64) (ttl : Option Int64)
  | complete (id : String) (result : Json) (now : String)
  | fail (id message now : String)
  | cancel (id now : String)
  | gcExpired (now : Int64)
  | get (id : String)
  | list (cursor : Option String) (pageSize : UInt64)

variable {op : Op}

/-- The store after an operation, and the projection for the listener. -/
def Op.run (s : TaskStore) : Op → TaskStore × Projection
  | .create id now steady ttl =>
    ((s.create id now steady ttl).1, some (s.create id now steady ttl).2)
  | .complete id result now => s.complete id result now
  | .fail id message now => s.fail id message now
  | .cancel id now => s.cancel id now
  | .gcExpired now => ((s.gcExpired now).1, none)
  | .get _ => (s, none)
  | .list _ _ => (s, none)

/-- What a call that means to settle `id` makes of its entry. -/
def Op.settler (id : String) : Op → Option (Entry → Entry)
  | .complete i result now => if i = id then some (Entry.complete result now) else none
  | .fail i message now => if i = id then some (Entry.fail message now) else none
  | .cancel i now => if i = id then some (Entry.cancel now) else none
  | _ => none

def storeMachine : System TaskStore Op where
  Initial s := s = {}
  Step s op s' := (op.run s).1 = s'

/-- The flag, the result and the error say what the status says. -/
structure Linked (e : Entry) : Prop where
  cancelled : e.cancelled = true ↔ e.task.status = .cancelled
  result : e.result.isSome ↔ e.task.status = .completed
  error : e.error.isSome ↔ e.task.status = .failed

/-- `id` is in the store at each step of a run. -/
def Stays (id : String) (s : TaskStore) (_ : Op) : Prop := id ∈ s.entries

/-- No step of a run is a call to settle `id`. -/
def Unsettled (id : String) (_ : TaskStore) (op : Op) : Prop := op.settler id = none

/-- A call to settle `id` runs the section all three share. -/
theorem run_of_settler (h : op.settler id = some f) : op.run s = s.settle id f := by
  cases op with
  | complete i result now | fail i message now | cancel i now =>
    by_cases hi : i = id
    · subst i
      simp only [Op.settler, if_true, Option.some.injEq] at h
      subst f
      rfl
    · simp [Op.settler, hi] at h
  | create _ _ _ _ | gcExpired _ | get _ | list _ _ => simp [Op.settler] at h

theorem settler_cases (h : op.settler id = some f) :
    (∃ result now, f = Entry.complete result now) ∨ (∃ message now, f = Entry.fail message now) ∨
      ∃ now, f = Entry.cancel now := by
  cases op with
  | complete i result now =>
    by_cases hi : i = id
    · exact .inl ⟨result, now, by simpa [Op.settler, hi] using h.symm⟩
    · simp [Op.settler, hi] at h
  | fail i message now =>
    by_cases hi : i = id
    · exact .inr (.inl ⟨message, now, by simpa [Op.settler, hi] using h.symm⟩)
    · simp [Op.settler, hi] at h
  | cancel i now =>
    by_cases hi : i = id
    · exact .inr (.inr ⟨now, by simpa [Op.settler, hi] using h.symm⟩)
    · simp [Op.settler, hi] at h
  | create _ _ _ _ | gcExpired _ | get _ | list _ _ => simp [Op.settler] at h

/-- An operation that is no call to settle `id` leaves its entry alone, mints it, or sweeps. -/
theorem unsettled_step (h : op.settler id = none) :
    (op.run s).1.entries.lookup id = s.entries.lookup id ∨
    (s.entries.lookup id = none ∧ ∃ now steady ttl,
      (op.run s).1.entries.lookup id = some (Entry.mint id now steady ttl)) ∨
    ∃ now, op = .gcExpired now := by
  have hother : ∀ {i g}, i ≠ id → (s.settle i g).1.entries.lookup id = s.entries.lookup id :=
    fun hi => settle_lookup_ne (Ne.symm hi)
  cases op with
  | create i now steady ttl =>
    by_cases hi : id = i
    · subst i
      by_cases hm : id ∈ s.entries
      · left
        simp [Op.run, TaskStore.create, Dict.lookup_tryEmplace_of_mem hm]
      · right
        left
        refine ⟨AList.lookup_eq_none.mpr hm, now, steady, ttl, ?_⟩
        simp [Op.run, TaskStore.create, Dict.lookup_tryEmplace_self hm]
    · left
      simp [Op.run, TaskStore.create, Dict.lookup_tryEmplace_ne hi]
  | complete i result now | fail i message now | cancel i now =>
    left
    apply hother
    rintro rfl
    simp [Op.settler] at h
  | gcExpired now => exact .inr (.inr ⟨now, rfl⟩)
  | get _ | list _ _ => exact .inl rfl

/-- Everything an operation can do to an entry: nothing, mint it, or settle it. -/
theorem entry_step (h : (op.run s).1.entries.lookup id = some e') :
    s.entries.lookup id = some e' ∨
    (∃ e f, s.entries.lookup id = some e ∧ e.task.status.isTerminal = false ∧
      op.settler id = some f ∧ e' = f e) ∨
    (s.entries.lookup id = none ∧ ∃ now steady ttl, e' = Entry.mint id now steady ttl) := by
  cases hs : op.settler id with
  | some f =>
    rw [run_of_settler hs] at h
    rcases settle_lookup h with h | ⟨e, hl, ho, he⟩
    · exact .inl h
    · exact .inr (.inl ⟨e, f, hl, ho, rfl, he⟩)
  | none =>
    rcases unsettled_step hs with he | ⟨hnone, now, steady, ttl, hmint⟩ | ⟨now, rfl⟩
    · exact .inl (he.symm.trans h)
    · rw [hmint, Option.some.injEq] at h
      exact .inr (.inr ⟨hnone, now, steady, ttl, h.symm⟩)
    · exact .inl (Dict.lookup_of_lookup_filter h).1

/-- `order` and `entries` hold the same ids. -/
theorem listed_step (op : Op) (h : ∀ id, id ∈ s.order ↔ id ∈ s.entries) (id : String) :
    id ∈ (op.run s).1.order ↔ id ∈ (op.run s).1.entries := by
  cases op with
  | create i now steady ttl =>
    change id ∈ s.order ++ [i] ↔ id ∈ Dict.tryEmplace i _ s.entries
    rw [List.mem_append, List.mem_singleton, Dict.mem_tryEmplace, h id, or_comm]
  | complete i _ _ | fail i _ _ | cancel i _ =>
    change id ∈ (s.settle i _).1.order ↔ id ∈ (s.settle i _).1.entries
    rw [order_settle, mem_settle, h id]
  | gcExpired now =>
    change id ∈ s.order.filter _ ↔ id ∈ Dict.filter _ s.entries
    rw [List.mem_filter, Dict.mem_filter, h id, Dict.mem_iff_lookup]
    constructor
    · rintro ⟨⟨e, he⟩, hexpired⟩
      exact ⟨e, he, by simpa [he] using hexpired⟩
    · rintro ⟨e, he, hexpired⟩
      exact ⟨⟨e, he⟩, by simpa [he] using hexpired⟩
  | get _ | list _ _ => exact h id

theorem listed_reachable (h : storeMachine.Reachable Free s) (id : String) :
    id ∈ s.order ↔ id ∈ s.entries := by
  have hall : ∀ id, id ∈ s.order ↔ id ∈ s.entries := by
    refine h.invariant (P := fun s => ∀ id, id ∈ s.order ↔ id ∈ s.entries) ?_ ?_
    · rintro s rfl id
      exact iff_of_false List.not_mem_nil (AList.notMem_empty id)
    · rintro s op _ _ hl _ rfl
      exact listed_step op hl
  exact hall id

theorem linked_mint (now : String) (steady : Int64) (ttl : Option Int64) :
    Linked (Entry.mint id now steady ttl) := by
  constructor <;> simp [Entry.mint]

/-- Settling an entry that is not terminal sets the one field that goes with its new status. -/
theorem linked_settler (h : Linked e) (ho : e.task.status.isTerminal = false)
    (hf : op.settler id = some f) : Linked (f e) := by
  have hc : e.cancelled = false := by
    by_contra hc
    have := h.cancelled.mp (by simpa using hc)
    simp [this, TaskStatus.isTerminal] at ho
  have hr : e.result = none := by
    by_contra hr
    have := h.result.mp (Option.isSome_iff_ne_none.mpr hr)
    simp [this, TaskStatus.isTerminal] at ho
  have he : e.error = none := by
    by_contra he
    have := h.error.mp (Option.isSome_iff_ne_none.mpr he)
    simp [this, TaskStatus.isTerminal] at ho
  rcases settler_cases hf with ⟨result, now, rfl⟩ | ⟨message, now, rfl⟩ | ⟨now, rfl⟩
  · constructor <;> simp [Entry.complete, Entry.touch, hc, he]
  · constructor <;> simp [Entry.fail, Entry.touch, hc, hr]
  · constructor <;> simp [Entry.cancel, Entry.touch, hr, he]

theorem terminal_settler (hf : op.settler id = some f) :
    (f e).task.status.isTerminal = true := by
  rcases settler_cases hf with ⟨result, now, rfl⟩ | ⟨message, now, rfl⟩ | ⟨now, rfl⟩
  · cases hc : e.cancelled <;> simp [Entry.complete, Entry.touch, hc, TaskStatus.isTerminal]
  · rfl
  · rfl

theorem linked_step (hl : ∀ id e, s.entries.lookup id = some e → Linked e)
    (h : (op.run s).1.entries.lookup id = some e') : Linked e' := by
  rcases entry_step h with h | ⟨e, f, he, ho, hf, rfl⟩ | ⟨-, now, steady, ttl, rfl⟩
  · exact hl id e' h
  · exact linked_settler (hl id e he) ho hf
  · exact linked_mint now steady ttl

theorem linked_reachable (h : storeMachine.Reachable Free s) (he : s.entries.lookup id = some e) :
    Linked e := by
  have hall : ∀ id e, s.entries.lookup id = some e → Linked e := by
    refine h.invariant (P := fun s => ∀ id e, s.entries.lookup id = some e → Linked e) ?_ ?_
    · rintro s rfl id e he
      cases he
    · rintro s op _ _ hl _ rfl id e he
      exact linked_step hl he
  exact hall id e he

theorem frozen_step (he : s.entries.lookup id = some e) (ht : e.task.status.isTerminal = true)
    (hin : id ∈ (op.run s).1.entries) : (op.run s).1.entries.lookup id = some e := by
  obtain ⟨e', h⟩ := Option.isSome_iff_exists.mp (AList.lookup_isSome.mpr hin)
  rcases entry_step h with h' | ⟨e₁, f, he₁, ho, -, -⟩ | ⟨hn, -⟩
  · exact h.trans (h'.symm.trans he)
  · rw [he, Option.some.injEq] at he₁
    simp [← he₁, ht] at ho
  · simp [he] at hn

/-- A terminal entry is as it was for as long as it stays. -/
theorem frozen_run (he : s.entries.lookup id = some e) (ht : e.task.status.isTerminal = true)
    (hr : storeMachine.Run (Stays id) s s') (hin : id ∈ s'.entries) :
    s'.entries.lookup id = some e := by
  have hall : id ∈ s'.entries → s'.entries.lookup id = some e := by
    refine hr.invariant (P := fun s => id ∈ s.entries → s.entries.lookup id = some e) ?_
      (fun _ => he)
    rintro s op _ hl hstay rfl hin
    exact frozen_step (hl hstay) ht hin
  exact hall hin

/-- An entry that is not terminal neither leaves the store nor changes unless it is settled. -/
theorem open_step (he : s.entries.lookup id = some e) (ho : e.task.status.isTerminal = false)
    (hu : op.settler id = none) : (op.run s).1.entries.lookup id = some e := by
  rcases unsettled_step hu with hsame | ⟨hnone, -⟩ | ⟨now, rfl⟩
  · exact hsame.trans he
  · simp [he] at hnone
  · apply Dict.lookup_filter _ he
    simp [TaskStore.expired, ho]

theorem open_run (he : s.entries.lookup id = some e) (ho : e.task.status.isTerminal = false)
    (hr : storeMachine.Run (Unsettled id) s s') : s'.entries.lookup id = some e := by
  refine hr.invariant (P := fun s => s.entries.lookup id = some e) ?_ he
  rintro s op _ hl hu rfl
  exact open_step hl ho hu

/-- In every store the fields of an entry agree with its status; what is terminal stays as it is;
and of the calls that mean to settle a task the first does, and the others do nothing. -/
theorem task_state_machine (h : storeMachine.Reachable Free s) (id : String) (e : Entry)
    (he : s.entries.lookup id = some e) :
    ((e.cancelled = true ↔ e.task.status = .cancelled) ∧
      (e.result.isSome ↔ e.task.status = .completed) ∧
      (e.error.isSome ↔ e.task.status = .failed)) ∧
    (e.task.status.isTerminal = true → ∀ s', storeMachine.Run (Stays id) s s' →
      id ∈ s'.entries → s'.entries.lookup id = some e) ∧
    (e.task.status.isTerminal = false → ∀ s₁ (op : Op) f, storeMachine.Run (Unsettled id) s s₁ →
      op.settler id = some f → (op.run s₁).2 = some (f e).task ∧
      ∀ s₂, storeMachine.Run (Stays id) (op.run s₁).1 s₂ → id ∈ s₂.entries →
        s₂.entries.lookup id = some (f e) ∧
        ∀ op' : Op, (op'.settler id).isSome → op'.run s₂ = (s₂, none)) := by
  have hlinked := linked_reachable h he
  refine ⟨⟨hlinked.cancelled, hlinked.result, hlinked.error⟩, ?_, ?_⟩
  · intro ht s' hr hin
    exact frozen_run he ht hr hin
  · intro ho s₁ op f hr hf
    have he₁ := open_run he ho hr
    have hrun : op.run s₁ = _ := (run_of_settler hf).trans (settle_open he₁ ho)
    refine ⟨by rw [hrun], ?_⟩
    intro s₂ hr₂ hin
    have hfirst : (op.run s₁).1.entries.lookup id = some (f e) := by
      rw [hrun]
      exact AList.lookup_insert _
    have he₂ := frozen_run hfirst (terminal_settler hf) hr₂ hin
    refine ⟨he₂, ?_⟩
    intro op' hs
    obtain ⟨g, hg⟩ := Option.isSome_iff_exists.mp hs
    exact (run_of_settler hg).trans (settle_terminal he₂ (terminal_settler hf))

/-- A worker that completes its task after a cancel changes nothing. -/
theorem cancel_before_complete :
    let s := ((Op.create "a" "t0" 0 none).run {}).1
    let s' := ((Op.cancel "a" "t1").run s).1
    (Op.complete "a" .null "t2").run s' = (s', none) := by
  intro s s'
  have h : storeMachine.Reachable Free s :=
    .step (a := .create "a" "t0" 0 none) (.initial rfl) trivial rfl
  have hfirst := ((task_state_machine h "a" _ rfl).2.2 rfl s (.cancel "a" "t1") _ .refl rfl).2
  exact (hfirst s' .refl (by decide)).2 (.complete "a" .null "t2") rfl

end Mcp.Tasks
