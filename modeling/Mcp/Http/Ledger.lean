import Mcp.Http.Host
import Mcp.Library.Custody

/-! Ledgers of the session contexts. The table, a handler, stop() and a list of work that is done
account for contexts; what the steps of the host do to such a ledger does not depend on which work
is meant. -/
namespace Mcp.Http

open Transition Custody

variable {s s' : State} {t u k : ℕ} {pc : PC}

inductive Place where
  | table
  | handler (t : ℕ)
  | stop
  | joined
  deriving DecidableEq

def Inserted (s : State) (k : ℕ) : Prop := k < s.ids.length

/-- What a handler and stop() account for, and the work that is done, out of the contexts whose
hook has been invoked and those that have been joined. -/
structure Account where
  handler : PC → Multiset ℕ
  stop : StopPC → Multiset ℕ
  done : List ℕ → List ℕ → List ℕ
  handler_eq_zero : ∀ pc, (∀ k, pc ≠ .hooking k ∧ pc ≠ .closing k ∧ pc ≠ .joining k) →
    handler pc = 0
  handler_hooking : ∀ k, handler (.hooking k) = {k}
  stop_swapping : stop .swapping = 0
  stop_hooking : ∀ drained : List ℕ, stop (.hooking drained drained) = drained

namespace Account

variable {A : Account}

/-- The place `joined` has the work that is done. -/
def ledger (A : Account) (s : State) : Place → Multiset ℕ
  | .table => Dict.values s.sessions
  | .handler t => A.handler (s.pc t)
  | .stop => A.stop s.stop
  | .joined => A.done s.hooked s.joined

abbrev Moves (A : Account) (s s' : State) : Prop :=
  Move (Inserted s) (A.ledger s) (Inserted s') (A.ledger s')

theorem ledger_handler_ne (hpc : s'.pc = Function.update s.pc t pc) (he : u ≠ t) :
    A.ledger s' (.handler u) = A.ledger s (.handler u) := by
  simp [ledger, hpc, he]

theorem ledger_handler_same (hpc : s'.pc = Function.update s.pc t pc)
    (hh : A.handler pc = A.handler (s.pc t)) (u : ℕ) :
    A.ledger s' (.handler u) = A.ledger s (.handler u) := by
  by_cases he : u = t
  · subst u
    simp [ledger, hpc, hh]
  · exact ledger_handler_ne hpc he

/-- A handler that moves on with the same contexts. -/
theorem moves_pc (hs : s'.sessions = s.sessions) (hi : s'.ids = s.ids)
    (hd : A.done s'.hooked s'.joined = A.done s.hooked s.joined) (hst : s'.stop = s.stop)
    (hpc : s'.pc = Function.update s.pc t pc) (hh : A.handler pc = A.handler (s.pc t)) :
    A.Moves s s' := by
  apply Move.still
  · intro p
    cases p with
    | table => simp [ledger, hs]
    | handler u => exact ledger_handler_same hpc hh u
    | stop => simp [ledger, hst]
    | joined => simp [ledger, hd]
  · simp [Inserted, hi]

/-- stop() moves on with the same contexts. -/
theorem moves_stop (hs : s'.sessions = s.sessions) (hi : s'.ids = s.ids)
    (hd : A.done s'.hooked s'.joined = A.done s.hooked s.joined) (hpc : s'.pc = s.pc)
    (hh : A.stop s'.stop = A.stop s.stop) : A.Moves s s' := by
  apply Move.still
  · intro p
    cases p with
    | table => simp [ledger, hs]
    | handler u => simp [ledger, hpc]
    | stop => exact hh
    | joined => simp [ledger, hd]
  · simp [Inserted, hi]

/-- A POST that finds no session, and may make one, brings a context into the table. -/
theorem moves_insert {sid : String} (hsid : sid ∉ s.sessions) (hpc : A.handler (s.pc t) = 0) :
    A.Moves s ((s.insert sid).setPC t (.delivering s.ids.length)) := by
  apply Move.mint s.ids.length .table
  · simp [Inserted]
  · constructor
    · simp [ledger, State.insert, State.setPC, Dict.values_insert hsid]
    · intro p hne
      cases p with
      | table => exact absurd rfl hne
      | handler u =>
        exact ledger_handler_same rfl (by rw [hpc, A.handler_eq_zero _ (by simp)]) u
      | stop | joined => rfl
  · intro k
    simp only [Inserted, State.insert, State.setPC, List.length_append, List.length_singleton]
    omega

theorem moves_resolve {req : Request} {sid : String} (hpc : s.pc t = .resolving req sid) :
    A.Moves s (match s.resolve req sid with
      | .found k => s.setPC t (.delivering k)
      | .create => (s.insert sid).setPC t (.delivering s.ids.length)
      | .unknown => s.setPC t (.responding unknownSession)
      | .missing => s.setPC t (.responding missingSession)) := by
  have hh : A.handler (s.pc t) = 0 := by rw [hpc, A.handler_eq_zero _ (by simp)]
  cases hr : s.resolve req sid with
  | found k | unknown | missing =>
    exact moves_pc rfl rfl rfl rfl rfl (by rw [hh, A.handler_eq_zero _ (by simp)])
  | create => exact moves_insert (AList.lookup_eq_none.mp (resolve_eq_create.mp hr).2.1) hh

/-- A DELETE takes its context out of the table. -/
theorem moves_erase {sid : String} (hpc : s.pc t = .erasing sid) :
    A.Moves s (match s.sessions.lookup sid with
      | some k => { s with sessions := s.sessions.erase sid }.setPC t (.hooking k)
      | none => s.setPC t (.responding { status := 204 })) := by
  have hh : A.handler (s.pc t) = 0 := by rw [hpc, A.handler_eq_zero _ (by simp)]
  cases hl : s.sessions.lookup sid with
  | none => exact moves_pc rfl rfl rfl rfl rfl (by rw [hh, A.handler_eq_zero _ (by simp)])
  | some k =>
    apply Move.transfer {k} .table (.handler t) (by simp)
    · constructor
      · simp [ledger, State.setPC, Dict.values_erase hl]
      · simp [ledger, hh, A.handler_hooking]
      · intro p hne hnt
        cases p with
        | table => exact absurd rfl hne
        | handler u => exact ledger_handler_ne rfl (fun he => hnt (by rw [he]))
        | stop | joined => rfl
    · simp [Inserted, State.setPC]

/-- A handler has done its work on the context. -/
theorem moves_done (hs : s'.sessions = s.sessions) (hi : s'.ids = s.ids)
    (hd : A.done s'.hooked s'.joined = A.done s.hooked s.joined ++ [k]) (hst : s'.stop = s.stop)
    (hpc : s'.pc = Function.update s.pc t pc) (hh : A.handler (s.pc t) = {k})
    (hz : A.handler pc = 0) : A.Moves s s' := by
  apply Move.transfer {k} (.handler t) .joined (by simp)
  · constructor
    · simp [ledger, hpc, hh, hz]
    · simp only [ledger, hd, ← Multiset.coe_add]
      exact Multiset.add_comm _ _
    · intro p hne hnj
      cases p with
      | joined => exact absurd rfl hnj
      | handler u => exact ledger_handler_ne hpc (fun he => hne (by rw [he]))
      | table => simp [ledger, hs]
      | stop => simp [ledger, hst]
  · simp [Inserted, hi]

/-- stop() takes the whole table. -/
theorem moves_swap (hst : s.stop = .swapping) :
    A.Moves s { s with
      sessions := ∅
      stop := .hooking (Dict.list s.sessions) (Dict.list s.sessions) } := by
  apply Move.transfer (Dict.values s.sessions) .table .stop (by simp)
  · constructor
    · simp [ledger]
    · simp [ledger, hst, A.stop_swapping, A.stop_hooking, Dict.values]
    · intro p hne hns
      cases p with
      | table => exact absurd rfl hne
      | stop => exact absurd rfl hns
      | handler _ | joined => rfl
  · simp [Inserted]

/-- stop() has done its work on the context. -/
theorem moves_stopDone (hs : s'.sessions = s.sessions) (hi : s'.ids = s.ids)
    (hd : A.done s'.hooked s'.joined = A.done s.hooked s.joined ++ [k]) (hpc : s'.pc = s.pc)
    (hst : A.stop s.stop = {k} + A.stop s'.stop) : A.Moves s s' := by
  apply Move.transfer {k} .stop .joined (by simp)
  · constructor
    · simpa [ledger] using hst
    · simp only [ledger, hd, ← Multiset.coe_add]
      exact Multiset.add_comm _ _
    · intro p hns hnj
      cases p with
      | stop => exact absurd rfl hns
      | joined => exact absurd rfl hnj
      | table => simp [ledger, hs]
      | handler u => simp [ledger, hpc]
  · simp [Inserted, hi]

/-- In the beginning there is no context. -/
theorem exclusive_fresh (hst : A.stop .running = 0) (hd : A.done [] [] = []) :
    Exclusive (Inserted fresh) (A.ledger fresh) := by
  apply Exclusive.empty
  · intro p
    cases p with
    | table => rfl
    | handler t => exact A.handler_eq_zero _ (by simp [fresh])
    | stop => exact hst
    | joined => simp [ledger, fresh, hd]
  · simp [Inserted, fresh]

end Account

end Mcp.Http
