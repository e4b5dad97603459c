import Mcp.Protocol.CatalogueRoundTrip
import Mcp.Server.Listing
import Mcp.Tasks.Representation

/-! A client that follows the cursors of tasks/list while tasks come and go on. -/
namespace Mcp.Server

open Tasks Transition

section Store

variable {s s' : TaskStore} {op : Tasks.Op} {id : String} {n : ℕ} {pageSize : UInt64}

/-- mint_task_id repeats no id, and a `std::vector` has room for one more. -/
def Minted (s : TaskStore) : Tasks.Op → Prop
  | .create id _ _ _ => id ∉ s.entries ∧ s.order.length + 1 < 2 ^ 63
  | _ => True

/-- What a Server does with its store: it never sweeps. -/
def Served (s : TaskStore) (op : Tasks.Op) : Prop := Minted s op ∧ ∀ now, op ≠ .gcExpired now

/-- The ids in `order` are those of the entries, once each, and an entry is filed under its own
task's id. -/
structure Consistent (s : TaskStore) : Prop where
  length_lt : s.order.length < 2 ^ 63
  nodup : s.order.Nodup
  mem_order : ∀ id, id ∈ s.order ↔ id ∈ s.entries
  keyed : ∀ id e, s.entries.lookup id = some e → e.task.taskId = id

theorem consistent_empty : Consistent {} where
  length_lt := by decide
  nodup := List.nodup_nil
  mem_order id := by
    simp only [List.not_mem_nil, false_iff]
    exact AList.notMem_empty id
  keyed id e h := by cases h

theorem consistent_settle (h : Consistent s) (i : String) (f : Entry → Entry)
    (hk : ∀ id e, (s.settle i f).1.entries.lookup id = some e → e.task.taskId = id) :
    Consistent (s.settle i f).1 where
  length_lt := by
    rw [order_settle]
    exact h.length_lt
  nodup := by
    rw [order_settle]
    exact h.nodup
  mem_order id := by
    rw [order_settle, mem_settle]
    exact h.mem_order id
  keyed := hk

theorem consistent_create {i now : String} {steady : Int64} {ttl : Option Int64}
    (h : Consistent s) (hm : Minted s (.create i now steady ttl)) :
    Consistent (s.create i now steady ttl).1 where
  length_lt := by
    change (s.order ++ [i]).length < 2 ^ 63
    rw [List.length_append, List.length_singleton]
    exact hm.2
  nodup := by
    change (s.order ++ [i]).Nodup
    rw [← List.concat_eq_append]
    exact h.nodup.concat fun hi => hm.1 ((h.mem_order i).mp hi)
  mem_order := listed_step (.create i now steady ttl) h.mem_order
  keyed id e := keyed_step (.create i now steady ttl) h.keyed

theorem consistent_gcExpired (h : Consistent s) (now : Int64) :
    Consistent (s.gcExpired now).1 where
  length_lt := (List.length_filter_le _ _).trans_lt h.length_lt
  nodup := h.nodup.filter _
  mem_order := listed_step (.gcExpired now) h.mem_order
  keyed _ _ := keyed_step (.gcExpired now) h.keyed

theorem consistent_step (h : Consistent s) (hm : Minted s op) : Consistent (op.run s).1 := by
  have hk : ∀ id e, (op.run s).1.entries.lookup id = some e → e.task.taskId = id :=
    fun id e => keyed_step op h.keyed
  cases op with
  | create i now steady ttl => exact consistent_create h hm
  | complete i _ _ | fail i _ _ | cancel i _ => exact consistent_settle h i _ hk
  | gcExpired now => exact consistent_gcExpired h now
  | get _ | list _ _ => exact h

/-- Each operation a Server performs leaves the ids in the order they were created in, and puts a
new one behind them. -/
theorem order_step (hs : Served s op) : s.order <+: (op.run s).1.order := by
  cases op with
  | create i now steady ttl => exact List.prefix_append s.order [i]
  | complete i _ _ | fail i _ _ | cancel i _ =>
    change s.order <+: (s.settle i _).1.order
    rw [order_settle]
  | gcExpired now => exact absurd rfl (hs.2 now)
  | get _ | list _ _ => exact List.prefix_refl _

theorem consistent_reachable (h : storeMachine.Reachable Minted s) : Consistent s := by
  refine h.invariant (P := Consistent) ?_ ?_
  · rintro s rfl
    exact consistent_empty
  · rintro s op _ _ hc hm rfl
    exact consistent_step hc hm

theorem served_run (hr : storeMachine.Run Served s s') (h : Consistent s) :
    Consistent s' ∧ s.order <+: s'.order := by
  refine hr.invariant (P := fun t => Consistent t ∧ s.order <+: t.order) ?_
    ⟨h, List.prefix_refl _⟩
  rintro t op _ ⟨hc, hp⟩ hs rfl
  exact ⟨consistent_step hc hs.1, hp.trans (order_step hs)⟩

theorem decimal_eq_ofDigitChars (cs : List Char) (n : ℕ) :
    cs.foldl (fun n c => n * 10 + (c.toNat - '0'.toNat)) n = Nat.ofDigitChars 10 cs n := by
  induction cs generalizing n with
  | nil => rfl
  | cons c cs ih => rw [List.foldl_cons, Nat.ofDigitChars_cons, Nat.mul_comm 10, ih]

/-- The store reads back every offset that `std::to_string` prints. -/
theorem taskStore_decodeCursor_toString (hn : n < 2 ^ 64) :
    TaskStore.decodeCursor (some (toString n)) = .ok n := by
  have hempty : (toString n).isEmpty = false := by
    simp
  have hvalue : TaskStore.decimal (toString n) = n := by
    rw [TaskStore.decimal, decimal_eq_ofDigitChars]
    simp
  have hdigits : (toString n).toList.all TaskStore.isDigit = true := by
    rw [List.all_eq_true]
    intro c hc
    rw [Nat.toString_eq_repr, Nat.toList_repr] at hc
    have hdigit := le_of_isDigit (Nat.isDigit_of_mem_toDigits (by omega) (by omega) hc)
    simpa [TaskStore.isDigit] using hdigit
  simp only [TaskStore.decodeCursor, hempty, hdigits, hvalue, hn, Bool.not_true,
    Bool.false_eq_true, if_false, if_true]

theorem taskStore_decodeCursor_cursorAt (hn : n < 2 ^ 64) :
    TaskStore.decodeCursor (cursorAt n) = .ok n := by
  unfold cursorAt
  split
  · next h =>
    subst h
    rfl
  · exact taskStore_decodeCursor_toString hn

/-- Behind a cursor that it can read, the store looks up a slice of its ids, unless a sum wraps. -/
theorem list_of_decode {cursor : Option String}
    (hfits : n < s.order.length → n + pageSize.toNat < 2 ^ 64)
    (hcursor : TaskStore.decodeCursor cursor = .ok n) :
    s.list cursor pageSize =
      .ok ⟨(if pageSize = 0 then s.order.drop n
          else (s.order.drop n).take pageSize.toNat).filterMap s.get,
        if pageSize ≠ 0 ∧ n + pageSize.toNat < s.order.length then
          some (toString (n + pageSize.toNat)) else none⟩ := by
  by_cases hend : s.order.length ≤ n
  · have hrest : s.order.drop n = [] := List.drop_eq_nil_of_le hend
    have hmore : ¬n + pageSize.toNat < s.order.length := by omega
    simp [TaskStore.list, hcursor, hend, hrest, hmore, bind, Except.bind, pure, Except.pure]
  · by_cases hp : pageSize = 0
    · have hrange : ¬s.order.length < n := by omega
      have hall : (s.order.drop n).take (s.order.length - n) = s.order.drop n := by
        rw [← List.length_drop, List.take_length]
      simp [TaskStore.list, hcursor, hend, hp, hrange, hall, bind, Except.bind, pure, Except.pure]
    · have hwrap : (n + pageSize.toNat) % 2 ^ 64 = n + pageSize.toNat :=
        Nat.mod_eq_of_lt (hfits (Nat.not_le.mp hend))
      have hrange : ¬min s.order.length (n + pageSize.toNat) < n := by omega
      have htake : (s.order.drop n).take (min s.order.length (n + pageSize.toNat) - n) =
          (s.order.drop n).take pageSize.toNat := by
        rw [List.take_eq_take_iff, List.length_drop]
        omega
      have hnext : (if min s.order.length (n + pageSize.toNat) < s.order.length then
          some (toString (min s.order.length (n + pageSize.toNat))) else none) =
          if pageSize ≠ 0 ∧ n + pageSize.toNat < s.order.length then
            some (toString (n + pageSize.toNat)) else none := by
        by_cases hmore : n + pageSize.toNat < s.order.length
        · rw [min_eq_right hmore.le, if_pos hmore, if_pos ⟨hp, hmore⟩]
        · rw [min_eq_left (Nat.not_lt.mp hmore), if_neg (lt_irrefl _), if_neg fun h => hmore h.2]
      simp only [TaskStore.list, hcursor, hend, hp, bind, Except.bind, pure, Except.pure,
        if_false, hwrap, hrange, htake, hnext]

/-- The page at the start, or at an offset that a page of this size has led to: no sum wraps. -/
theorem list_cursorAt (h : Consistent s) (hp : pageSize ≠ 0)
    (hn : n = 0 ∨ pageSize.toNat ≤ n ∧ n < s.order.length) : ∃ tasks,
    s.list (cursorAt n) pageSize =
      .ok ⟨tasks, if n + pageSize.toNat < s.order.length then cursorAt (n + pageSize.toNat)
        else none⟩ ∧
    tasks.map Task.taskId = (s.order.drop n).take pageSize.toNat := by
  have hlength := h.length_lt
  have hsize := pageSize.toNat_lt
  have hpos : 0 < pageSize.toNat := Nat.pos_iff_ne_zero.mpr fun h => hp (UInt64.toNat_inj.mp h)
  have hlist : s.list (cursorAt n) pageSize = _ :=
    list_of_decode (by omega) (taskStore_decodeCursor_cursorAt (by omega))
  refine ⟨((s.order.drop n).take pageSize.toNat).filterMap s.get, ?_, ?_⟩
  · rw [hlist, if_neg hp, cursorAt_of_pos (by omega)]
    simp [hp]
  · apply taskIds_filterMap h.keyed
    intro id hid
    exact (h.mem_order id).mp (List.mem_of_mem_drop (List.mem_of_mem_take hid))

end Store

section Requests

variable (jsonWhat : JsonException → String) (cfg : Settings) (leftOut : Bool)

/-- A server that has been initialized, with what its store answers. -/
def stored (s : TaskStore) : (o : Op) → Option o.Ans
  | .loadInitialized => some true
  | .listTasks cursor pageSize => some (s.list cursor pageSize)
  | _ => none

/-- A tasks/list request, its handler's reply, and what the client reads there. -/
def fetchTasks (s : TaskStore) (cursor : Option String) :
    Except Exception (List Task × Option String) :=
  match (handleListTasks jsonWhat cfg (listParams leftOut cursor)).run.eval (stored s) with
  | some (.ok j) => do
    let result ← j.get TaskStore.ListTasksResult
    return (result.tasks, result.nextCursor)
  | some (.error e) => .error e
  | none => .error .other

variable {cfg} {s s₀ : TaskStore} {cursor : Option String}

theorem handleListTasks_listParams (htasks : cfg.tasks = true) :
    handleListTasks jsonWhat cfg (listParams leftOut cursor) = (do
      requireInitialized
      let result : Except Exception TaskStore.ListTasksResult ←
        call (.listTasks cursor cfg.pageSize)
      return .of (← ofExcept result)) := by
  have hrequire : requireTasks cfg = pure () := by
    simp [requireTasks, htasks]
  cases cursor with
  | none => cases leftOut <;> simp only [handleListTasks, hrequire] <;> rfl
  | some cursor =>
    simp only [handleListTasks, hrequire]
    rfl

theorem eval_handleListTasks (htasks : cfg.tasks = true) {result : TaskStore.ListTasksResult}
    (h : s.list cursor cfg.pageSize = .ok result) :
    (handleListTasks jsonWhat cfg (listParams leftOut cursor)).run.eval (stored s) =
      some (.ok (.of result)) := by
  rw [handleListTasks_listParams jsonWhat leftOut htasks]
  -- what is left to run after the check and the call
  change ((ofExcept (s.list cursor cfg.pageSize) >>= fun r => return .of r : Handler Json).run).eval
    (stored s) = _
  rw [h]
  rfl

theorem fetchTasks_of_list (htasks : cfg.tasks = true) {result : TaskStore.ListTasksResult}
    (h : s.list cursor cfg.pageSize = .ok result) :
    fetchTasks jsonWhat cfg leftOut s cursor = .ok (result.tasks, result.nextCursor) := by
  unfold fetchTasks
  rw [eval_handleListTasks jsonWhat leftOut htasks h]
  dsimp only
  rw [get_of_listTasksResult]
  rfl

theorem positional_fetchTasks (htasks : cfg.tasks = true) (hp : cfg.pageSize ≠ 0) :
    Paged.Positional (fetchTasks jsonWhat cfg leftOut) (storeMachine.Run Served) Consistent
      TaskStore.order Task.taskId cfg.pageSize.toNat cursorAt where
  size_pos := Nat.pos_iff_ne_zero.mpr fun h => hp (UInt64.toNat_inj.mp h)
  start := rfl
  cursor n hn := by
    rw [cursorAt_of_pos hn]
    rfl
  good_grow s s' hs hr := (served_run hr hs).1
  prefix_grow s s' hs hr := (served_run hr hs).2
  page s n hs hn := by
    obtain ⟨tasks, hlist, hids⟩ := list_cursorAt hs hp hn
    exact ⟨tasks, fetchTasks_of_list jsonWhat leftOut htasks hlist, hids⟩

/-- While the server creates, completes, fails and cancels tasks between its requests, a client
that follows the cursors of tasks/list from the start is never refused and never given a task
twice; when no cursor is left it has been given, first of all, every task there was when it began,
once each and in the order in which they were created. -/
theorem tasks_listed_once (htasks : cfg.tasks = true) (hp : cfg.pageSize ≠ 0)
    (h : storeMachine.Reachable Minted s₀) :
    (∃ page next, fetchTasks jsonWhat cfg leftOut s₀ none = .ok (page, next)) ∧
    ∀ s seen next,
      Paged.Visit (fetchTasks jsonWhat cfg leftOut) (storeMachine.Run Served) s₀ s seen next →
      (seen.map Task.taskId).Nodup ∧
      (next = none → s₀.order <+: seen.map Task.taskId ∧
        ∀ id ∈ s₀.entries, (seen.map Task.taskId).count id = 1) ∧
      ∀ cursor s', next = some cursor → storeMachine.Run Served s s' →
        ∃ page next', fetchTasks jsonWhat cfg leftOut s' (some cursor) = .ok (page, next') := by
  have hpos := positional_fetchTasks jsonWhat leftOut htasks hp
  have h₀ := consistent_reachable h
  constructor
  · obtain ⟨page, hpage, -⟩ := hpos.page s₀ 0 h₀ (.inl rfl)
    exact ⟨page, _, hpage⟩
  · intro s seen next hv
    obtain ⟨hnodup, -, hall⟩ := hv.complete hpos h₀ fun s hs => hs.nodup
    refine ⟨hnodup, ?_, ?_⟩
    · intro hnext
      have hstart := hall hnext
      refine ⟨hstart, ?_⟩
      intro id hid
      apply List.count_eq_one_of_mem hnodup
      exact hstart.subset ((h₀.mem_order id).mpr hid)
    · rintro cursor s' rfl hr
      exact hv.answered hpos h₀ hr

end Requests

def onePerPage : Settings where
  serverInfo := {
    name := "worker"
    title := none
    version := "1"
    description := none
    websiteUrl := none
    icons := none
    «meta» := none }
  instructions := none
  pageSize := 1
  tasks := true
  tasksDefaultTtlMs := none
  tasksMaxConcurrent := 0

def oneTask : TaskStore := ((Tasks.Op.create "a" "t0" 0 none).run {}).1
def twoTasks : TaskStore := ((Tasks.Op.create "b" "t1" 0 none).run oneTask).1

/-- The store after a third task, created while the client is on its way. -/
def threeTasks : TaskStore := ((Tasks.Op.create "c" "t2" 0 none).run twoTasks).1

def mintedTask (id now : String) : Task := (Entry.mint id now 0 none).task

theorem third_task_listed_once :
    ["a", "b", "c"].Nodup ∧ twoTasks.order <+: ["a", "b", "c"] := by
  have hone : storeMachine.Reachable Minted oneTask :=
    .step (a := .create "a" "t0" 0 none) (.initial rfl) ⟨by decide, by decide⟩ rfl
  have htwo : storeMachine.Reachable Minted twoTasks :=
    .step (a := .create "b" "t1" 0 none) hone ⟨by decide, by decide⟩ rfl
  have hthree : storeMachine.Run Served twoTasks threeTasks :=
    .step (a := .create "c" "t2" 0 none) .refl ⟨⟨by decide, by decide⟩, nofun⟩ rfl
  have hvisit : Paged.Visit (fetchTasks (fun _ => "") onePerPage true) (storeMachine.Run Served)
      twoTasks threeTasks ([mintedTask "a" "t0"] ++ [mintedTask "b" "t1"] ++ [mintedTask "c" "t2"])
      none := by
    have hfirst : fetchTasks (fun _ => "") onePerPage true twoTasks none =
        .ok ([mintedTask "a" "t0"], some "1") := rfl
    exact .more (.more (.first hfirst) hthree rfl) .refl rfl
  obtain ⟨hnodup, hall, -⟩ :=
    (tasks_listed_once (fun _ => "") true rfl (by decide) htwo).2 _ _ _ hvisit
  exact ⟨hnodup, (hall rfl).1⟩

end Mcp.Server
