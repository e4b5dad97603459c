import Mcp.Exchange.Delivery

/-! Each future is given what the handler at the other end came to for its own request. -/
namespace Mcp.Exchange

open Transition Session Custody

variable {V : Type} {jsonWhat : JsonException → String} {opts : Options} {calls : ℕ → Call V}
  {e p e' p' : End V} {a : Action} {t : Thread} {w : ℕ}

/-- What is said between an end that asks and the peer that answers is true. -/
structure Honest (jsonWhat : JsonException → String) (e p : End V) : Prop where
  outbound : ∀ j ∈ p.inbox, ∀ req, parseMessage j = .ok (.request req) → req ∈ e.session.written
  starting : ∀ t req, p.starting t = some req → req ∈ e.session.written
  serving : ∀ w req, p.work w = .serving req → req ∈ e.session.written
  answering : ∀ w req run, p.work w = .answering req run → (req, run) ∈ p.handled
  handled : ∀ req run, (req, run) ∈ p.handled → req ∈ e.session.written
  inbound : ∀ j ∈ e.inbox, ∀ resp, parseMessage j = .ok (.response resp) →
    ∃ req run, (req, run) ∈ p.handled ∧ resp = respondTo jsonWhat req run
  received : ∀ resp ∈ e.session.received,
    ∃ req run, (req, run) ∈ p.handled ∧ resp = respondTo jsonWhat req run
  consumed : ∀ resp ∈ e.session.received, ∀ id, resp.id = some id → id ∉ e.session.pending

/-- What an end does, its Session does, or does not notice. -/
theorem session_act (h : Act jsonWhat opts calls e p a e' p') : e'.session = e.session ∨
    ∃ b, Session.Step opts calls e.session b e'.session ∧ Refused e.session b := by
  cases h with
  | session hs _ href => exact .inr ⟨_, hs, href⟩
  | send _ hs | takeRequest _ _ hs | takeResponse _ _ hs | start _ _ hs | startThrow _ hs
  | finish _ hs => exact .inr ⟨_, hs, trivial⟩
  | notify _ | takeOther _ _ _ | handle _ _ | answer _ | answerFail _ => exact .inl rfl

/-- An end takes in the responses that were in its inbox. -/
theorem received_act (h : Act jsonWhat opts calls e p a e' p') :
    e'.session.received = e.session.received ∨ ∃ t resp, ∃ j ∈ e.inbox,
      parseMessage j = .ok (.response resp) ∧
      Session.Step opts calls e.session (.response t resp) e'.session := by
  cases h with
  | session hs hin _ =>
    refine .inl (received_eq hs ?_)
    rintro t resp rfl
    exact hin
  | takeResponse hbox hj hs => exact .inr ⟨_, _, _, by simp [hbox], hj, hs⟩
  | send _ hs | takeRequest _ _ hs | start _ _ hs | startThrow _ hs | finish _ hs =>
    exact .inl (received_eq hs nofun)
  | notify _ | takeOther _ _ _ | handle _ _ | answer _ | answerFail _ => exact .inl rfl

/-- The peer's Session notices nothing at all. -/
theorem peer_session_act (h : Act jsonWhat opts calls e p a e' p') : p'.session = p.session := by
  cases h <;> rfl

/-- A thread that is about to make a worker does that next. -/
theorem spawning_step {b : Session.Action} {s σ : State V} (hs : Session.Step opts calls s b σ)
    (hpc : s.pc t = .spawningWorker) (hspawn : b ≠ .spawn t) (hthrow : b ≠ .spawnThrow t) :
    σ.pc t = .spawningWorker := by
  rcases pc_step hs t with heq | hf
  · exact heq.trans hpc
  · rw [hpc] at hf
    generalize σ.pc t = q at hf
    cases hf with
    | spawn => exact absurd rfl hspawn
    | spawnThrow => exact absurd rfl hthrow

theorem placed_act (h : Act jsonWhat opts calls e p a e' p') (hp : Placed e) : Placed e' := by
  have hkeep : ∀ {b : Session.Action} {σ : State V}, Session.Step opts calls e.session b σ →
      ∀ u, e.starting u ≠ none → b ≠ .spawn u → b ≠ .spawnThrow u → σ.pc u = .spawningWorker :=
    fun hs u hu => spawning_step hs (hp u hu)
  have hleave : ∀ {u v}, (e.setStarting v none).starting u ≠ none →
      u ≠ v ∧ e.starting u ≠ none := by
    intro u v hu
    by_cases he : u = v
    · subst u
      simp at hu
    · exact ⟨he, by simpa [he] using hu⟩
  cases h with
  | session hs hin _ =>
    intro u hu
    exact hkeep hs u hu (by rintro rfl; exact hin) (by rintro rfl; exact hin)
  | send _ hs | takeResponse _ _ hs | finish _ hs => exact fun u hu => hkeep hs u hu nofun nofun
  | @takeRequest t _ _ _ _ _ _ _ hs =>
    intro u hu
    by_cases he : u = t
    · subst u
      cases hs with
      | dispatch _ => simp
    · exact hkeep hs u (by simpa [he] using hu) nofun nofun
  | start _ _ hs =>
    intro u hu
    obtain ⟨hne, hu⟩ := hleave hu
    exact hkeep hs u hu (fun hb => hne (by cases hb; rfl)) nofun
  | startThrow _ hs =>
    intro u hu
    obtain ⟨hne, hu⟩ := hleave hu
    exact hkeep hs u hu nofun fun hb => hne (by cases hb; rfl)
  | notify _ | takeOther _ _ _ | handle _ _ | answer _ | answerFail _ => exact hp

theorem written_mono (h : Act jsonWhat opts calls e p a e' p') {req : JsonRpcRequest}
    (hreq : req ∈ e.session.written) : req ∈ e'.session.written := by
  rcases session_act h with heq | ⟨b, hs, -⟩
  · rwa [heq]
  · rcases written_step hs with heq | ⟨_, _, -, -, heq, -⟩ <;> rw [heq]
    · exact hreq
    · exact List.mem_append_left _ hreq

theorem inbox_act (h : Act jsonWhat opts calls e p a e' p') : ∀ j ∈ e'.inbox, j ∈ e.inbox := by
  cases h with
  | takeRequest hbox _ _ | takeResponse hbox _ _ | takeOther hbox _ _ =>
    intro j hj
    rw [hbox]
    exact List.perm_middle.mem_iff.mpr (List.mem_cons_of_mem _ hj)
  | _ => exact fun _ => id

theorem mem_posted {m : JsonRpcMessage} {j : Json} (h : j ∈ (p.post m).inbox) :
    j ∈ p.inbox ∨ j = serializeMessage m := by
  simpa using h

/-- An answer that has come in is to a request that was sent. -/
theorem Honest.written_of_received (hh : Honest jsonWhat e p) {resp : JsonRpcResponse}
    (hresp : resp ∈ e.session.received) {id : RequestId} (hid : resp.id = some id) :
    id ∈ e.session.written.map JsonRpcRequest.id := by
  obtain ⟨req, run, hr, rfl⟩ := hh.received resp hresp
  cases hid
  exact List.mem_map_of_mem (hh.handled req run hr)

theorem consumed_act (h : Act jsonWhat opts calls e p a e' p') (hh : Honest jsonWhat e p)
    (hnum : Numbered calls e.session) (hsourced : Sourced calls e'.session)
    (hrange : e.session.issued ≤ 2 ^ 64) {resp : JsonRpcResponse}
    (hresp : resp ∈ e.session.received) {id : RequestId} (hid : resp.id = some id) :
    id ∉ e'.session.pending := by
  have hold := hh.consumed resp hresp id hid
  rcases session_act h with heq | ⟨b, hs, -⟩
  · rwa [heq]
  · intro hm
    rcases mem_pending_step hs hsourced hm with hm | ⟨t, k, ht, rfl⟩
    · exact hold hm
    · exact not_mem_written hnum hrange ht (hh.written_of_received hresp hid)

theorem honest_mine (h : Act jsonWhat opts calls e p a e' p') (hh : Honest jsonWhat e p)
    (hnum : Numbered calls e.session) (hsourced : Sourced calls e'.session)
    (hrange : e.session.issued ≤ 2 ^ 64) : Honest jsonWhat e' p' := by
  have hp : p'.starting = p.starting ∧ p'.work = p.work ∧ p'.handled = p.handled := by
    cases h <;> exact ⟨rfl, rfl, rfl⟩
  obtain ⟨hstarting, hwork, hhandled⟩ := hp
  refine ⟨?_, ?_, ?_, ?_, ?_, ?_, ?_, ?_⟩
  · intro j hj req hreq
    have hold : j ∈ p.inbox → req ∈ e'.session.written := fun hj =>
      written_mono h (hh.outbound j hj req hreq)
    cases h with
    | @send t k _ hpc hs =>
      rcases mem_posted hj with hj | rfl
      · exact hold hj
      · cases hreq.symm.trans (parse_request k (calls k))
        cases hs with
        | sendOk hpc' =>
          cases hpc.symm.trans hpc'
          simp [State.setPC]
    | notify hn =>
      rcases mem_posted hj with hj | rfl
      · exact hold hj
      · cases hreq.symm.trans (parse_notification hn)
    | answer _ =>
      rcases mem_posted hj with hj | rfl
      · exact hold hj
      · cases hreq.symm.trans (parse_response _)
    | _ => exact hold hj
  · intro t req ht
    rw [hstarting] at ht
    exact written_mono h (hh.starting t req ht)
  · intro w req hw
    rw [hwork] at hw
    exact written_mono h (hh.serving w req hw)
  · rw [hwork, hhandled]
    exact hh.answering
  · intro req run hr
    rw [hhandled] at hr
    exact written_mono h (hh.handled req run hr)
  · intro j hj
    rw [hhandled]
    exact hh.inbound j (inbox_act h j hj)
  · intro resp hresp
    rw [hhandled]
    rcases received_act h with heq | ⟨t, new, j, hmem, hj, hs⟩
    · exact hh.received resp (heq ▸ hresp)
    · rw [received_response hs] at hresp
      rcases List.mem_append.mp hresp with hresp | hresp
      · exact hh.received resp hresp
      · obtain rfl := List.mem_singleton.mp hresp
        exact hh.inbound j hmem resp hj
  · intro resp hresp id hid
    rcases received_act h with heq | ⟨t, new, j, -, -, hs⟩
    · exact consumed_act h hh hnum hsourced hrange (heq ▸ hresp) hid
    · rw [received_response hs] at hresp
      rcases List.mem_append.mp hresp with hresp | hresp
      · exact consumed_act h hh hnum hsourced hrange hresp hid
      · obtain rfl := List.mem_singleton.mp hresp
        exact not_mem_pending_response hs hid

theorem honest_theirs (h : Act jsonWhat opts calls e p a e' p') (hh : Honest jsonWhat p e) :
    Honest jsonWhat p' e' := by
  have hsession := peer_session_act h
  have hmono : ∀ req run, (req, run) ∈ e.handled → (req, run) ∈ e'.handled := by
    cases h with
    | handle _ _ => exact fun _ _ => List.mem_append_left _
    | _ => exact fun _ _ => id
  have hsaid : ∀ {resp}, (∃ req run, (req, run) ∈ e.handled ∧ resp = respondTo jsonWhat req run) →
      ∃ req run, (req, run) ∈ e'.handled ∧ resp = respondTo jsonWhat req run :=
    fun ⟨req, run, hr, heq⟩ => ⟨req, run, hmono req run hr, heq⟩
  refine ⟨?_, ?_, ?_, ?_, ?_, ?_, ?_, ?_⟩
  · intro j hj
    rw [hsession]
    exact hh.outbound j (inbox_act h j hj)
  · rw [hsession]
    intro u req hu
    cases h with
    | @takeRequest t j _ _ req' σ hbox hj hs =>
      rcases update_cases hu with ⟨-, hu⟩ | ⟨-, hu⟩
      · cases hu
        exact hh.outbound j (by simp [hbox]) req hj
      · exact hh.starting u req hu
    | start _ _ _ | startThrow _ _ =>
      rcases update_cases hu with ⟨-, hu⟩ | ⟨-, hu⟩
      · cases hu
      · exact hh.starting u req hu
    | _ => exact hh.starting u req hu
  · rw [hsession]
    intro v req hv
    cases h with
    | start hstart _ _ =>
      rcases update_cases hv with ⟨-, hv⟩ | ⟨-, hv⟩
      · cases hv
        exact hh.starting _ req hstart
      · exact hh.serving v req hv
    | handle _ _ | answer _ | answerFail _ | finish _ _ =>
      rcases update_cases hv with ⟨-, hv⟩ | ⟨-, hv⟩
      · cases hv
      · exact hh.serving v req hv
    | _ => exact hh.serving v req hv
  · intro v req run hv
    cases h with
    | handle _ _ =>
      rcases update_cases hv with ⟨-, hv⟩ | ⟨-, hv⟩
      · cases hv
        exact List.mem_append_right _ (List.mem_singleton_self _)
      · exact List.mem_append_left _ (hh.answering v req run hv)
    | start _ _ _ | answer _ | answerFail _ | finish _ _ =>
      rcases update_cases hv with ⟨-, hv⟩ | ⟨-, hv⟩
      · cases hv
      · exact hh.answering v req run hv
    | _ => exact hh.answering v req run hv
  · rw [hsession]
    intro req run hr
    cases h with
    | handle _ hw =>
      rcases List.mem_append.mp hr with hr | hr
      · exact hh.handled req run hr
      · cases List.mem_singleton.mp hr
        exact hh.serving _ req hw
    | _ => exact hh.handled req run hr
  · intro j hj resp hresp
    cases h with
    | send _ _ =>
      rcases mem_posted hj with hj | rfl
      · exact hsaid (hh.inbound j hj resp hresp)
      · cases hresp.symm.trans (parse_request _ _)
    | notify hn =>
      rcases mem_posted hj with hj | rfl
      · exact hsaid (hh.inbound j hj resp hresp)
      · cases hresp.symm.trans (parse_notification hn)
    | answer hw =>
      rcases mem_posted hj with hj | rfl
      · exact hsaid (hh.inbound j hj resp hresp)
      · cases hresp.symm.trans (parse_response _)
        exact ⟨_, _, hh.answering _ _ _ hw, rfl⟩
    | _ => exact hsaid (hh.inbound j hj resp hresp)
  · rw [hsession]
    exact fun resp hr => hsaid (hh.received resp hr)
  · rw [hsession]
    exact hh.consumed

/-- All that holds between an end and its peer. -/
structure Good (jsonWhat : JsonException → String) (opts : Options) (calls : ℕ → Call V)
    (e p : End V) : Prop where
  session : (machine opts calls).Reachable Refused e.session
  honest : Honest jsonWhat e p
  requests : Exclusive (Written e) (requests p)
  replies : Exclusive (Handled p) (replies e p)

theorem issued_act (h : Act jsonWhat opts calls e p a e' p') :
    e.session.issued ≤ e'.session.issued := by
  rcases session_act h with heq | ⟨b, hs, -⟩
  · rw [heq]
  · exact issued_step hs

theorem reachable_act (h : Act jsonWhat opts calls e p a e' p')
    (hr : (machine opts calls).Reachable Refused e.session) :
    (machine opts calls).Reachable Refused e'.session := by
  rcases session_act h with heq | ⟨b, hs, href⟩
  · rwa [heq]
  · exact reachable_step hr href hs

theorem good_mine (h : Act jsonWhat opts calls e p a e' p') (hg : Good jsonWhat opts calls e p)
    (hrange : e.session.issued ≤ 2 ^ 64) : Good jsonWhat opts calls e' p' := by
  have hsession := reachable_act h hg.session
  have hnumbered := numbered_reachable hg.session
  exact {
    session := hsession
    honest := honest_mine h hg.honest hnumbered (sourced_reachable hsession.free) hrange
    requests := hg.requests.move (requests_mine h hnumbered hrange)
    replies := hg.replies.move (replies_mine h) }

theorem good_theirs {calls' : ℕ → Call V} (h : Act jsonWhat opts calls e p a e' p')
    (hplaced : Placed e) (hg : Good jsonWhat opts calls' p e) :
    Good jsonWhat opts calls' p' e' where
  session := (peer_session_act h).symm ▸ hg.session
  honest := honest_theirs h hg.honest
  requests := hg.requests.move (requests_theirs h hplaced)
  replies := hg.replies.move (replies_theirs h hg.requests)

theorem good_fresh : Good jsonWhat opts calls (End.fresh V) (End.fresh V) where
  session := .initial rfl
  honest := ⟨nofun, nofun, nofun, nofun, nofun, nofun, nofun, nofun⟩
  requests := by
    apply Exclusive.empty
    · rintro (_ | _ | _ | _ | _) <;> rfl
    · simp [Written, End.fresh, Session.fresh]
  replies := by
    apply Exclusive.empty
    · rintro (_ | _ | _ | _) <;> rfl
    · simp [Handled, End.fresh]

section World

variable {calls : Side → ℕ → Call V} {s : Side → End V} {x : Side} {k : ℕ}

theorem good_reachable (h : (exchange jsonWhat opts calls).Reachable Free s) (x : Side)
    (hrange : (s x).session.issued ≤ 2 ^ 64) : Good jsonWhat opts (calls x) (s x) (s x.peer) := by
  have hall : ∀ x, Placed (s x) ∧ ((s x).session.issued ≤ 2 ^ 64 →
      Good jsonWhat opts (calls x) (s x) (s x.peer)) := by
    refine h.invariant (P := fun s => ∀ x, Placed (s x) ∧ ((s x).session.issued ≤ 2 ^ 64 →
      Good jsonWhat opts (calls x) (s x) (s x.peer))) ?_ ?_
    · rintro s rfl x
      exact ⟨nofun, fun _ => good_fresh⟩
    · rintro s ⟨y, a⟩ s' - hp - (hact : Act ..)
      have hplaced := (hp y).1
      have hsession := peer_session_act hact
      have hstarting : (s' y.peer).starting = (s y.peer).starting := by
        generalize s' y = e', s' y.peer = p' at hact
        cases hact <;> rfl
      have hmine : Placed (s' y) ∧ ((s' y).session.issued ≤ 2 ^ 64 →
          Good jsonWhat opts (calls y) (s' y) (s' y.peer)) :=
        ⟨placed_act hact hplaced, fun hrange =>
          have hbefore := (issued_act hact).trans hrange
          good_mine hact ((hp y).2 hbefore) hbefore⟩
      have htheirs : Placed (s' y.peer) ∧ ((s' y.peer).session.issued ≤ 2 ^ 64 →
          Good jsonWhat opts (calls y.peer) (s' y.peer) (s' y)) := by
        refine ⟨?_, fun hrange => good_theirs hact hplaced ?_⟩
        · intro t ht
          rw [hsession]
          exact (hp y.peer).1 t (hstarting ▸ ht)
        · have hg := (hp y.peer).2 (hsession ▸ hrange)
          rwa [peer_peer] at hg
      intro x
      by_cases hx : x = y
      · exact hx ▸ hmine
      · have hpeer : x = y.peer := by cases x <;> cases y <;> first | rfl | exact absurd rfl hx
        subst x
        rwa [peer_peer]
  exact (hall x).2 hrange

/-- A request that a future still waits for, or its answer, is on its way. -/
def UnderWay (e p : End V) (id : RequestId) : Prop :=
  id ∈ requests p .outbound ∨ (∃ t, id ∈ requests p (.starting t)) ∨
    (∃ w, id ∈ requests p (.serving w)) ∨ (∃ w, id ∈ replies e p (.answering w)) ∨
    id ∈ replies e p .inbound

/-- No thread could be made for it, or its answer was refused. -/
def Lost (p : End V) (id : RequestId) : Prop := id ∈ p.dropped ∨ id ∈ p.unanswered

/-- Whatever the two ends do and in whatever order, a future is told what the peer's handler came to
for its own request, or a failure of its own Session; nobody is told twice, and no request is
handled twice. -/
theorem exchange_agreement (h : (exchange jsonWhat opts calls).Reachable Free s) (x : Side)
    (hrange : (s x).session.issued ≤ 2 ^ 64) (k : ℕ) :
    (∀ st, (k, st) ∈ (s x).session.settled →
      (∃ e, OwnFailure e ∧ st = .exception e) ∨
      ∃ run, (requestOf k (calls x k), run) ∈ (s x.peer).handled ∧
        st = settlementOf (calls x k)
          (respondTo jsonWhat (requestOf k (calls x k)) run).outcome) ∧
    ((s x).session.settled.map Prod.fst).count k ≤ 1 ∧
    ((s x.peer).handled.map fun y => y.1.id).count (requestId k) ≤ 1 := by
  have hg := good_reachable h x hrange
  refine ⟨?_, ?_, ?_⟩
  · intro st hst
    refine ((told_reachable hg.session).settled k st hst).imp_right ?_
    rintro ⟨outcome, ⟨resp, hresp, hid, rfl⟩, rfl⟩
    obtain ⟨req, run, hr, rfl⟩ := hg.honest.received resp hresp
    obtain rfl : req = requestOf k (calls x k) :=
      eq_of_written (numbered_reachable hg.session) hrange (hg.honest.handled req run hr)
        (issued_of_settled hg.session.free hst) (Option.some.inj hid)
    exact ⟨run, hr, rfl⟩
  · simpa [hold] using (exclusive_reachable hg.session.free).count_le_one .settled k
  · simpa [requests] using hg.requests.count_le_one .handled (requestId k)

/-- A request that was sent is in one place at its peer, and once it is handled its answer is in one
place too. While its future waits, one of them is on its way, unless it was lost where a thread
could not be made or a send was refused. -/
theorem sent_request_is_kept (h : (exchange jsonWhat opts calls).Reachable Free s) (x : Side)
    (hrange : (s x).session.issued ≤ 2 ^ 64) {id : RequestId} (hid : Written (s x) id) :
    (∃! q, id ∈ requests (s x.peer) q) ∧
    (Handled (s x.peer) id → ∃! q, id ∈ replies (s x) (s x.peer) q) ∧
    (id ∈ (s x).session.pending → UnderWay (s x) (s x.peer) id ∨ Lost (s x.peer) id) := by
  have hg := good_reachable h x hrange
  refine ⟨hg.requests.existsUnique hid, hg.replies.existsUnique, fun hpending => ?_⟩
  obtain ⟨q, hq, -⟩ := hg.requests.existsUnique hid
  cases q with
  | outbound => exact .inl (.inl hq)
  | starting t => exact .inl (.inr (.inl ⟨t, hq⟩))
  | serving w => exact .inl (.inr (.inr (.inl ⟨w, hq⟩)))
  | dropped => exact .inr (.inl (by simpa [requests] using hq))
  | handled =>
    obtain ⟨b, hb, -⟩ := hg.replies.existsUnique (x := id) hq
    cases b with
    | answering w => exact .inl (.inr (.inr (.inr (.inl ⟨w, hb⟩))))
    | inbound => exact .inl (.inr (.inr (.inr (.inr hb))))
    | unanswered => exact .inr (.inr (by simpa [replies] using hb))
    | received =>
      obtain ⟨resp, hresp, hrid⟩ : ∃ resp ∈ (s x).session.received, resp.id = some id := by
        simpa [replies] using hb
      exact absurd hpending (hg.honest.consumed resp hresp id hrid)

theorem reachable_turn (h : (exchange jsonWhat opts calls).Reachable Free s)
    (hact : Act jsonWhat opts (calls x) (s x) (s x.peer) a e' p') :
    (exchange jsonWhat opts calls).Reachable Free fun y => if y = x then e' else p' := by
  refine h.step (a := (x, a)) trivial ?_
  have hne : x.peer ≠ x := by cases x <;> decide
  simpa [exchange, hne] using hact

end World

/-- One end has sent a ping. -/
def pinging : Side → End Json
  | .a => { End.fresh Json with
      session := { pinged with written := [requestOf 0 ping] }.setPC (.app 0) .idle }
  | .b => (End.fresh Json).post (.request (requestOf 0 ping))

theorem pinging_reachable :
    (exchange (fun _ => "") {} fun _ _ => ping).Reachable Free pinging := by
  have h₀ : (exchange (fun _ => "") {} fun _ _ => ping).Reachable Free fun _ => End.fresh Json :=
    .initial rfl
  have h₁ := reachable_turn (x := .a) h₀
    (.session (a := .nextId (.app 0) 0) (.nextId rfl) trivial trivial)
  have h₂ := reachable_turn (x := .a) h₁ (.session (.park (t := .app 0) rfl) trivial trivial)
  have h₃ := reachable_turn (x := .a) h₂ (.send (t := .app 0) rfl (.sendOk rfl))
  convert h₃ using 1
  funext y
  cases y <;> rfl

theorem ping_is_under_way : requestId 0 ∈ (pinging .a).session.pending ∧
    (UnderWay (pinging .a) (pinging .b) (requestId 0) ∨ Lost (pinging .b) (requestId 0)) := by
  have hpending : requestId 0 ∈ (pinging .a).session.pending := by decide
  have hkept := sent_request_is_kept pinging_reachable .a (by decide)
    (List.mem_cons_self : requestId 0 ∈ [requestId 0])
  exact ⟨hpending, hkept.2.2 hpending⟩

theorem pong_reachable : ∃ s : Side → End Json,
    (exchange (fun _ => "") {} fun _ _ => ping).Reachable Free s ∧ (s .a).session.issued = 1 ∧
    (s .a).session.settled = [(0, .value Json.emptyObject)] := by
  have h₁ := reachable_turn (x := .b) pinging_reachable
    (.takeRequest (t := .app 0) (List.nil_append _).symm (parse_request 0 ping) (.dispatch rfl))
  have h₂ := reachable_turn (x := .b) h₁ (.start (t := .app 0) (w := 0) rfl rfl (.spawn rfl))
  have h₃ := reachable_turn (x := .b) h₂ (.handle (w := 0) (some (.ok Json.emptyObject)) rfl)
  have h₄ := reachable_turn (x := .b) h₃ (.answer (w := 0) rfl)
  have h₅ := reachable_turn (x := .a) h₄
    (.takeResponse (t := .app 1) rfl (parse_response _) (.response rfl))
  have h₆ := reachable_turn (x := .a) h₅ (.session (.resolve (t := .app 1) rfl) trivial trivial)
  exact ⟨_, h₆, rfl, rfl⟩

theorem ping_is_told : ∃ s : Side → End Json, ∃ run, (requestOf 0 ping, run) ∈ (s .b).handled ∧
    Settlement.value Json.emptyObject =
      settlementOf ping (respondTo (fun _ => "") (requestOf 0 ping) run).outcome := by
  obtain ⟨s, h, hissued, hsettled⟩ := pong_reachable
  have hrange : (s .a).session.issued ≤ 2 ^ 64 := by
    rw [hissued]
    decide
  have htold := (exchange_agreement h .a hrange 0).1 (.value Json.emptyObject)
    (by rw [hsettled]; exact List.mem_singleton_self _)
  rcases htold with ⟨e, -, he⟩ | htold
  · cases he
  · exact ⟨s, htold⟩

end Mcp.Exchange
