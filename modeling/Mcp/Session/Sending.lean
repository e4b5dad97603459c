import Mcp.Session.Correlation
import Mcp.Session.Deadlines

/-! What a Session sends under an id, and what a promise is told. -/
namespace Mcp.Session

open Transition

variable {V : Type} {opts : Options} {calls : ℕ → Call V} {s s' : State V} {a : Action}
  {t : Thread} {k l : ℕ}

/-- The request that a thread has an id for and has not sent. -/
def PC.unsent : PC → Option ℕ
  | .registering k _ => some k
  | .sending k => some k
  | _ => none

/-- Every request that was written has a number of its own. -/
structure Numbered (calls : ℕ → Call V) (s : State V) : Prop where
  issued : ∀ t k, (s.pc t).unsent = some k → k < s.issued
  single : ∀ t u k, (s.pc t).unsent = some k → (s.pc u).unsent = some k → t = u
  written : ∀ req ∈ s.written, ∃ k, k < s.issued ∧ req = requestOf k (calls k) ∧
    ∀ t, (s.pc t).unsent ≠ some k

@[simp] theorem unsent_after (next : After) : next.pc.unsent = none := by
  cases next <;> rfl

/-- Ids that do not wrap are told apart. -/
theorem requestId_inj (hk : k < 2 ^ 64) (hl : l < 2 ^ 64) (h : requestId k = requestId l) :
    k = l := by
  have hi : Int64.ofNat (k + 1) = Int64.ofNat (l + 1) := by simpa [requestId] using h
  have hb := congrArg (fun i : Int64 => i.toBitVec.toNat) hi
  simp at hb
  omega

/-- A thread gets a number from `next_id` alone, and only that thread. -/
theorem unsent_step (hs : Step opts calls s a s') (hu : (s'.pc t).unsent = some k) :
    (s.pc t).unsent = some k ∨ (k = s.issued ∧ ∃ now, a = .nextId t now) := by
  rcases pc_step hs t with he | hf
  · rw [he] at hu
    exact .inl hu
  · generalize hpc : s.pc t = p at hf ⊢
    generalize hpc' : s'.pc t = p' at hf hu
    cases hf with
    | nextId =>
      cases hs with
      | nextId _ =>
        right
        simp only [setPC_pc, Function.update_self] at hpc'
        cases hpc'
        cases hu
        exact ⟨rfl, _, rfl⟩
    | parked => exact .inl hu
    | @rejected _ _ next => cases next <;> cases hu
    | _ => cases hu

/-- Only a send that succeeds writes, and it writes the request of its thread. -/
theorem written_step (hs : Step opts calls s a s') : s'.written = s.written ∨
    ∃ t k, a = .sendOk t ∧ s.pc t = .sending k ∧
      s'.written = s.written ++ [requestOf k (calls k)] ∧ (s'.pc t).unsent = none := by
  cases hs with
  | @sendOk t k hpc => exact .inr ⟨t, k, rfl, hpc, rfl, by simp [PC.unsent]⟩
  | park _ =>
    left
    unfold State.park
    split
    · rfl
    · split <;> rfl
  | pull _ =>
    left
    unfold State.pull
    split <;> rfl
  | response _ =>
    left
    unfold State.takeResponse
    dsimp only
    split
    · rfl
    · split <;> rfl
  | timerSection _ | timerWake _ =>
    left
    unfold State.timeoutSection
    split
    · rfl
    · split <;> rfl
  | _ => exact .inl rfl

theorem numbered_step (hs : Step opts calls s a s') (h : Numbered calls s) :
    Numbered calls s' := by
  have hissued := issued_step hs
  constructor
  · intro u m hu
    rcases unsent_step hs hu with hu | ⟨rfl, now, rfl⟩
    · exact (h.issued u m hu).trans_le hissued
    · cases hs with
      | nextId _ => exact Nat.lt_succ_self _
  · intro u v m hu hv
    rcases unsent_step hs hu with hu | ⟨rfl, now, rfl⟩ <;>
      rcases unsent_step hs hv with hv | ⟨hm, now', ha⟩
    · exact h.single u v m hu hv
    · exact absurd (h.issued u m hu) (by omega)
    · exact absurd (h.issued v _ hv) (lt_irrefl _)
    · cases ha
      rfl
  · intro req hreq
    rcases written_step hs with heq | ⟨u, m, rfl, hpc, heq, hnone⟩
    · rw [heq] at hreq
      obtain ⟨m, hm, rfl, hfree⟩ := h.written req hreq
      refine ⟨m, hm.trans_le hissued, rfl, fun v hv => ?_⟩
      rcases unsent_step hs hv with hv | ⟨rfl, -⟩
      · exact hfree v hv
      · exact lt_irrefl _ hm
    · rw [heq] at hreq
      rcases List.mem_append.mp hreq with hreq | hreq
      · obtain ⟨n, hn, rfl, hfree⟩ := h.written req hreq
        refine ⟨n, hn.trans_le hissued, rfl, fun v hv => ?_⟩
        rcases unsent_step hs hv with hv | ⟨-, now, ha⟩
        · exact hfree v hv
        · cases ha
      · obtain rfl := List.mem_singleton.mp hreq
        have hu : (s.pc u).unsent = some m := by rw [hpc]; rfl
        refine ⟨m, (h.issued u m hu).trans_le hissued, rfl, fun v hv => ?_⟩
        rcases unsent_step hs hv with hv' | ⟨-, now, ha⟩
        · obtain rfl := h.single v u m hv' hu
          rw [hnone] at hv
          cases hv
        · cases ha

theorem numbered_fresh : Numbered calls (fresh V) := by
  refine ⟨?_, ?_, nofun⟩
  · intro t k hk
    cases t <;> cases hk
  · intro t u k hk
    cases t <;> cases hk

theorem numbered_reachable {ok : State V → Action → Prop}
    (h : (machine opts calls).Reachable ok s) : Numbered calls s := by
  refine h.invariant (P := Numbered calls) ?_ (fun _ _ _ _ hp _ hs => numbered_step hs hp)
  rintro s rfl
  exact numbered_fresh

/-- What is sent is written under an id that no request before it had. -/
theorem not_mem_written (h : Numbered calls s) (hrange : s.issued ≤ 2 ^ 64)
    (ht : (s.pc t).unsent = some k) : requestId k ∉ s.written.map JsonRpcRequest.id := by
  rintro hid
  obtain ⟨req, hreq, hid⟩ := List.mem_map.mp hid
  obtain ⟨m, hm, rfl, hfree⟩ := h.written req hreq
  have hk := h.issued t k ht
  obtain rfl : m = k := requestId_inj (by omega) (by omega) hid
  exact hfree t ht

/-- A request that was written is known by its id. -/
theorem eq_of_written (h : Numbered calls s) (hrange : s.issued ≤ 2 ^ 64) {req : JsonRpcRequest}
    (hreq : req ∈ s.written) (hk : k < s.issued) (hid : req.id = requestId k) :
    req = requestOf k (calls k) := by
  obtain ⟨m, hm, rfl, -⟩ := h.written req hreq
  obtain rfl : m = k := requestId_inj (by omega) (by omega) hid
  rfl

/-- What a send throws: a `system_error` of the transport, or what `dump` throws. -/
def Refusal : Exception → Prop
  | .std _ | .json _ => True
  | .error _ | .other => False

def Refused (_ : State V) : Action → Prop
  | .sendThrow _ e => Refusal e
  | _ => True

/-- What a Session tells a caller on its own. -/
inductive OwnFailure : Exception → Prop where
  | sessionClosed : OwnFailure sessionClosed
  | transportClosed : OwnFailure transportClosed
  | timedOut : OwnFailure timedOut
  | duplicateId (id) : OwnFailure (duplicateId id)
  | refused {e} : Refusal e → OwnFailure e

/-- Whatever a promise is told comes from a response with its id, or is a failure of its own
Session. -/
structure Told (calls : ℕ → Call V) (s : State V) : Prop where
  pulling : ∀ t k e, s.pc t = .pulling k e → Refusal e
  rejecting : ∀ t ks e next, s.pc t = .rejecting ks e next → OwnFailure e
  settled : ∀ k st, (k, st) ∈ s.settled → (∃ e, OwnFailure e ∧ st = .exception e) ∨
    ∃ outcome, Answered s k outcome ∧ st = settlementOf (calls k) outcome

theorem received_takeResponse (s : State V) (t : Thread) (resp : JsonRpcResponse) :
    (s.takeResponse t resp).received = s.received ++ [resp] := by
  unfold State.takeResponse
  dsimp only
  split
  · rfl
  · split <;> rfl

theorem received_response {resp : JsonRpcResponse} (hs : Step opts calls s (.response t resp) s') :
    s'.received = s.received ++ [resp] := by
  cases hs with
  | response _ => exact received_takeResponse s t resp

theorem received_step (hs : Step opts calls s a s') : s'.received = s.received ∨
    ∃ t resp, a = .response t resp ∧ s'.received = s.received ++ [resp] := by
  cases hs with
  | @response t resp _ => exact .inr ⟨t, resp, rfl, received_takeResponse s t resp⟩
  | park _ =>
    left
    unfold State.park
    split
    · rfl
    · split <;> rfl
  | pull _ =>
    left
    unfold State.pull
    split <;> rfl
  | timerSection _ | timerWake _ =>
    left
    unfold State.timeoutSection
    split
    · rfl
    · split <;> rfl
  | _ => exact .inl rfl

theorem settled_step (hs : Step opts calls s a s') : s'.settled = s.settled ∨
    (∃ t k outcome, s.pc t = .resolving k outcome ∧
      s'.settled = s.settled ++ [(k, settlementOf (calls k) outcome)]) ∨
    ∃ t k ks e next, s.pc t = .rejecting (k :: ks) e next ∧
      s'.settled = s.settled ++ [(k, .exception e)] := by
  cases hs with
  | resolve hpc => exact .inr (.inl ⟨_, _, _, hpc, rfl⟩)
  | reject hpc => exact .inr (.inr ⟨_, _, _, _, _, hpc, rfl⟩)
  | park _ => exact .inl (park_untouched ..).settled
  | pull _ => exact .inl (pull_untouched ..).settled
  | response _ => exact .inl (takeResponse_untouched ..).settled
  | timerSection _ | timerWake _ => exact .inl (timeoutSection_untouched s).settled
  | _ => exact .inl rfl

theorem ownFailure_park {deadline : Int64} {ks : List ℕ} {e : Exception} {next : After}
    (h : (s.park t k deadline).pc t = .rejecting ks e next) : OwnFailure e := by
  unfold State.park at h
  split at h
  · simp only [setPC_pc, Function.update_self, PC.rejecting.injEq] at h
    exact h.2.1 ▸ .sessionClosed
  · split at h
    · simp only [setPC_pc, Function.update_self, PC.rejecting.injEq] at h
      exact h.2.1 ▸ .duplicateId _
    · simp at h

theorem rejecting_step (hs : Step opts calls s a s') (h : Told calls s) {ks : List ℕ}
    {e : Exception} {next : After} (hpc' : s'.pc t = .rejecting ks e next) : OwnFailure e := by
  rcases pc_step hs t with he | hf
  · exact h.rejecting t ks e next (he.symm.trans hpc')
  · generalize hpc : s.pc t = p at hf
    generalize hp' : s'.pc t = p' at hf
    have heq := hp'.symm.trans hpc'
    cases hf with
    | refused =>
      cases hs with
      | park hreg => exact ownFailure_park hpc'
    | pulled =>
      cases heq
      exact .refused (h.pulling t _ _ hpc)
    | reject =>
      cases heq
      exact h.rejecting t _ _ _ hpc
    | expire =>
      cases heq
      exact .timedOut
    | onClose =>
      cases heq
      exact .transportClosed
    | closeCancel =>
      cases heq
      exact .sessionClosed
    | @rejected _ _ next => cases next <;> cases heq
    | _ => cases heq

theorem told_step (hs : Step opts calls s a s') (hok : Refused s a) (hsourced : Sourced calls s)
    (h : Told calls s) : Told calls s' := by
  have hmono : ∀ resp ∈ s.received, resp ∈ s'.received := by
    rcases received_step hs with heq | ⟨_, _, -, heq⟩ <;> rw [heq]
    · exact fun _ => id
    · exact fun _ => List.mem_append_left _
  constructor
  · intro t k e hpc'
    rcases pc_step hs t with he | hf
    · exact h.pulling t k e (he.symm.trans hpc')
    · generalize s.pc t = p at hf
      generalize s'.pc t = p' at hf hpc'
      cases hf with
      | sendThrow =>
        cases hpc'
        exact hok
      | @rejected _ _ next => cases next <;> cases hpc'
      | _ => cases hpc'
  · intro t ks e next hpc'
    exact rejecting_step hs h hpc'
  · intro k st hst
    rcases settled_step hs with heq | ⟨t, m, outcome, hpc, heq⟩ | ⟨t, m, ks, e, next, hpc, heq⟩ <;>
      rw [heq] at hst
    · exact (h.settled k st hst).imp_right fun ⟨o, ho, he⟩ => ⟨o, ho.mono hmono, he⟩
    · rcases List.mem_append.mp hst with hst | hst
      · exact (h.settled k st hst).imp_right fun ⟨o, ho, he⟩ => ⟨o, ho.mono hmono, he⟩
      · obtain ⟨rfl, rfl⟩ := Prod.mk.injEq .. ▸ List.mem_singleton.mp hst
        exact .inr ⟨outcome, (hsourced.taken t _ outcome hpc).mono hmono, rfl⟩
    · rcases List.mem_append.mp hst with hst | hst
      · exact (h.settled k st hst).imp_right fun ⟨o, ho, he⟩ => ⟨o, ho.mono hmono, he⟩
      · obtain ⟨rfl, rfl⟩ := Prod.mk.injEq .. ▸ List.mem_singleton.mp hst
        exact .inl ⟨e, h.rejecting t _ e next hpc, rfl⟩

theorem told_fresh : Told calls (fresh V) := by
  refine ⟨?_, ?_, nofun⟩ <;> intro t <;> cases t <;> nofun

theorem told_reachable (h : (machine opts calls).Reachable Refused s) : Told calls s := by
  refine h.invariant (P := Told calls) ?_
    (fun _ _ _ hr hp hok hs => told_step hs hok (sourced_reachable hr.free) hp)
  rintro s rfl
  exact told_fresh

/-- A promise that was used is that of a request with a number. -/
theorem issued_of_settled (h : (machine opts calls).Reachable Free s) {st : Settlement V}
    (hst : (k, st) ∈ s.settled) : k < s.issued := by
  have hmem : k ∈ hold s .settled := by
    simpa [hold] using ⟨st, hst⟩
  exact (exclusive_reachable h).live_of_mem hmem

/-- Only a thread that has a number parks an entry. -/
theorem mem_pending_step (hs : Step opts calls s a s') (hsourced : Sourced calls s')
    {id : RequestId} (hid : id ∈ s'.pending) :
    id ∈ s.pending ∨ ∃ t k, (s.pc t).unsent = some k ∧ id = requestId k := by
  obtain ⟨p, hp⟩ := Dict.mem_iff_lookup.mp hid
  rcases parked_step hs hp with hl | ⟨t, ht⟩
  · exact .inl (Dict.mem_iff_lookup.mpr ⟨p, hl⟩)
  · exact .inr ⟨t, p.promise, by rw [ht]; rfl, hsourced.filed id p hp⟩

/-- A response takes the entry with its id out. -/
theorem not_mem_pending_response {resp : JsonRpcResponse} {id : RequestId}
    (hs : Step opts calls s (.response t resp) s') (hid : resp.id = some id) : id ∉ s'.pending := by
  cases hs with
  | response _ =>
    unfold State.takeResponse
    simp only [hid]
    cases hl : s.pending.lookup id with
    | none => exact AList.lookup_eq_none.mp hl
    | some p =>
      intro hm
      exact (AList.mem_erase.mp hm).1 rfl

end Mcp.Session
