import Mcp.Tasks.Expiry

/-! The two containers of a TaskStore: `order` lists the keys of `entries` as they were created. -/
namespace Mcp.Tasks

open Transition

variable {s : TaskStore} {op : Op} {id : String}

theorem taskId_settler {f : Entry → Entry} (h : op.settler id = some f) (e : Entry) :
    (f e).task.taskId = e.task.taskId := by
  rcases settler_cases h with ⟨result, now, rfl⟩ | ⟨message, now, rfl⟩ | ⟨now, rfl⟩
  · cases hc : e.cancelled <;> simp [Entry.complete, Entry.touch, hc]
  · rfl
  · rfl

theorem keyed_step (op : Op)
    (hk : ∀ id e, s.entries.lookup id = some e → e.task.taskId = id) {e : Entry}
    (h : (op.run s).1.entries.lookup id = some e) : e.task.taskId = id := by
  rcases entry_step h with h | ⟨e₁, f, he₁, -, hf, rfl⟩ | ⟨-, now, steady, ttl, rfl⟩
  · exact hk id e h
  · exact (taskId_settler hf e₁).trans (hk id e₁ he₁)
  · rfl

/-- Every id that has an entry has its task on the page. -/
theorem taskIds_filterMap (hk : ∀ id e, s.entries.lookup id = some e → e.task.taskId = id)
    {ids : List String} (hids : ∀ id ∈ ids, id ∈ s.entries) :
    (ids.filterMap s.get).map Task.taskId = ids := by
  induction ids with
  | nil => rfl
  | cons id ids ih =>
    obtain ⟨e, he⟩ := Dict.mem_iff_lookup.mp (hids id (by simp))
    have hget : s.get id = some e.task := by
      rw [TaskStore.get, he, Option.map_some]
    rw [List.filterMap_cons_some hget, List.map_cons, hk id e he,
      ih fun i hi => hids i (by simp [hi])]

/-- A store, and every id it has been given, in the order of the calls. -/
structure History where
  store : TaskStore := {}
  minted : List String := []

/-- One operation; gc_expired comes by the entries in whatever order the hash map has them. -/
inductive History.Step : History → Op → History → Prop where
  | create {h id now steady ttl} : Step h (.create id now steady ttl)
      ⟨(h.store.create id now steady ttl).1, h.minted ++ [id]⟩
  | complete {h id result now} :
      Step h (.complete id result now) { h with store := (h.store.complete id result now).1 }
  | fail {h id message now} :
      Step h (.fail id message now) { h with store := (h.store.fail id message now).1 }
  | cancel {h id now} : Step h (.cancel id now) { h with store := (h.store.cancel id now).1 }
  | gcExpired {h now xs} : xs.Perm h.store.entries.entries →
      Step h (.gcExpired now) { h with store := (gcLoop now xs (h.store, 0)).1 }
  | get {h id} : Step h (.get id) h
  | list {h cursor pageSize} : Step h (.list cursor pageSize) h

def historyMachine : System History Op where
  Initial h := h = {}
  Step := History.Step

/-- mint_task_id repeats no id. -/
def NewId (h : History) : Op → Prop
  | .create id _ _ _ => id ∉ h.minted
  | _ => True

variable {h h' : History}

/-- The store of a history goes as the store alone would. -/
theorem store_step (hs : h.Step op h') : h'.store = (op.run h.store).1 := by
  cases hs with
  | gcExpired hxs => exact congrArg Prod.fst (gcLoop_eq_gcExpired hxs)
  | _ => rfl

/-- What has an entry was minted, `order` has what is left in the order it was minted in, and an
entry is filed under its own task's id. -/
structure Represents (h : History) : Prop where
  minted_nodup : h.minted.Nodup
  known : ∀ id ∈ h.store.entries, id ∈ h.minted
  order_eq : h.store.order = h.minted.filter (· ∈ h.store.entries)
  keyed : ∀ id e, h.store.entries.lookup id = some e → e.task.taskId = id

theorem Represents.lists (hr : Represents h) : Dict.Lists h.store.order h.store.entries where
  nodup := by
    rw [hr.order_eq]
    exact hr.minted_nodup.filter _
  mem_iff id := by
    rw [hr.order_eq, List.mem_filter, decide_eq_true_eq, and_iff_right_of_imp (hr.known id)]

theorem represents_empty : Represents {} where
  minted_nodup := List.nodup_nil
  known id hid := absurd hid (AList.notMem_empty id)
  order_eq := rfl
  keyed id e he := by cases he

/-- An operation that mints nothing and brings no entry in. -/
theorem Represents.shrink (hr : Represents h) {s : TaskStore}
    (hsub : ∀ id ∈ s.entries, id ∈ h.store.entries)
    (horder : s.order = h.store.order.filter (· ∈ s.entries))
    (hk : ∀ id e, s.entries.lookup id = some e → e.task.taskId = id) :
    Represents { h with store := s } where
  minted_nodup := hr.minted_nodup
  known id hid := hr.known id (hsub id hid)
  order_eq := by
    change s.order = _
    rw [horder, hr.order_eq, List.filter_filter]
    apply List.filter_congr
    intro id _
    simpa using hsub id
  keyed := hk

theorem Represents.settle (hr : Represents h) (i : String) (f : Entry → Entry)
    (hk : ∀ id e, (h.store.settle i f).1.entries.lookup id = some e → e.task.taskId = id) :
    Represents { h with store := (h.store.settle i f).1 } := by
  refine hr.shrink (fun id => (mem_settle f).mp) ?_ hk
  rw [order_settle]
  symm
  apply List.filter_eq_self.mpr
  intro id hid
  simpa [mem_settle] using (hr.lists.mem_iff id).mp hid

theorem Represents.gcExpired (hr : Represents h) (now : Int64) :
    Represents { h with store := (h.store.gcExpired now).1 } := by
  refine hr.shrink ?_ (order_gcExpired hr.lists.mem_iff) ?_
  · intro id hid
    exact (mem_gcExpired.mp hid).1
  · exact fun id e => keyed_step (.gcExpired now) hr.keyed

theorem Represents.create (hr : Represents h) {id : String} (hid : id ∉ h.minted) (now : String)
    (steady : Int64) (ttl : Option Int64) :
    Represents ⟨(h.store.create id now steady ttl).1, h.minted ++ [id]⟩ where
  minted_nodup := by
    rw [← List.concat_eq_append]
    exact hr.minted_nodup.concat hid
  known i hi := by
    rcases Dict.mem_tryEmplace.mp hi with rfl | hi
    · simp
    · simp [hr.known i hi]
  order_eq := by
    change h.store.order ++ [id] = (h.minted ++ [id]).filter
      (· ∈ Dict.tryEmplace id (Entry.mint id now steady ttl) h.store.entries)
    have hold : h.minted.filter (· ∈ h.store.entries) = h.minted.filter
        (· ∈ Dict.tryEmplace id (Entry.mint id now steady ttl) h.store.entries) := by
      apply List.filter_congr
      intro i hi
      have hne : i ≠ id := fun he => hid (he ▸ hi)
      simp [Dict.mem_tryEmplace, hne]
    rw [List.filter_append, ← hold, ← hr.order_eq]
    simp [Dict.mem_tryEmplace]
  keyed i e := keyed_step (.create id now steady ttl) hr.keyed

theorem represents_step (hs : h.Step op h') (hok : NewId h op) (hr : Represents h) :
    Represents h' := by
  have hk : ∀ id e, h'.store.entries.lookup id = some e → e.task.taskId = id := by
    rw [store_step hs]
    exact fun id e => keyed_step op hr.keyed
  cases hs with
  | create => exact hr.create hok _ _ _
  | complete | fail | cancel => exact hr.settle _ _ hk
  | gcExpired hxs =>
    rw [gcLoop_eq_gcExpired hxs]
    exact hr.gcExpired _
  | get | list => exact hr

theorem represents_reachable (hreach : historyMachine.Reachable NewId h) : Represents h := by
  refine hreach.invariant (P := Represents) ?_ ?_
  · rintro h rfl
    exact represents_empty
  · exact fun _ _ _ _ hr hok hs => represents_step hs hok hr

/-- Without a cursor and a page size, list looks up all of `order`. -/
theorem list_none_zero (s : TaskStore) :
    s.list none 0 = .ok ⟨s.order.filterMap s.get, none⟩ := by
  by_cases hempty : s.order = []
  · simp [TaskStore.list, TaskStore.decodeCursor, hempty, bind, Except.bind, pure, Except.pure]
  · have hpos : ¬s.order.length ≤ 0 := by simpa using hempty
    simp [TaskStore.list, TaskStore.decodeCursor, hpos, bind, Except.bind, pure, Except.pure]

/-- Whatever has been created, settled and swept, `order` names the keys of `entries`, once each and
in the order they were created in, and every entry is filed under its own task's id; so list finds
an entry for each id it comes by, and its one page has every stored task once, in that order. -/
theorem store_representation (hreach : historyMachine.Reachable NewId h) :
    h.store.order.Nodup ∧ h.store.order.Perm h.store.entries.keys ∧
    h.store.order = h.minted.filter (· ∈ h.store.entries) ∧
    (∀ id e, h.store.entries.lookup id = some e → e.task.taskId = id) ∧
    (∀ id ∈ h.store.order, ∃ e, h.store.entries.lookup id = some e) ∧
    ∃ tasks, h.store.list none 0 = .ok ⟨tasks, none⟩ ∧
      tasks.map Task.taskId = h.store.order ∧
      tasks.Perm ((Dict.list h.store.entries).map Entry.task) := by
  have hr := represents_reachable hreach
  have hlists := hr.lists
  refine ⟨hlists.nodup, hlists.perm, hr.order_eq, hr.keyed, ?_, _, list_none_zero _, ?_, ?_⟩
  · intro id hid
    exact Dict.mem_iff_lookup.mp ((hlists.mem_iff id).mp hid)
  · exact taskIds_filterMap hr.keyed fun id hid => (hlists.mem_iff id).mp hid
  · have hget : h.store.order.filterMap h.store.get =
        (h.store.order.filterMap h.store.entries.lookup).map Entry.task := by
      rw [List.map_filterMap]
      rfl
    rw [hget]
    exact hlists.perm_values.map Entry.task

/-- Two tasks, of which the first completes and is swept. -/
theorem remaining_task_listed : ∃ h, historyMachine.Reachable NewId h ∧ h.minted = ["a", "b"] ∧
    ∃ tasks, h.store.list none 0 = .ok ⟨tasks, none⟩ ∧ tasks.map Task.taskId = ["b"] := by
  have h₁ : historyMachine.Reachable NewId _ :=
    .step (a := .create "a" "t0" 0 (some 1)) (.initial rfl) (by simp [NewId]) .create
  have h₂ : historyMachine.Reachable NewId _ :=
    .step (a := .create "b" "t0" 0 none) h₁ (by simp [NewId]) .create
  have h₃ : historyMachine.Reachable NewId _ :=
    .step (a := .complete "a" .null "t1") h₂ trivial .complete
  have h₄ : historyMachine.Reachable NewId _ :=
    .step (a := .gcExpired 1000000) h₃ trivial (.gcExpired (List.Perm.refl _))
  obtain ⟨-, -, -, -, -, tasks, hlist, hids, -⟩ := store_representation h₄
  exact ⟨_, h₄, rfl, tasks, hlist, hids.trans (by decide)⟩

end Mcp.Tasks
