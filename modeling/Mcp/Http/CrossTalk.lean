import Mcp.Http.Routing

/-! Whose answer a POST is given when ids that are still in flight are used again. -/
namespace Mcp.Http.SessionTransport

open Transition

variable {codec : Codec} {s s' : State codec} {a : Action codec} {t p q : ℕ} {id : RequestId}
  {raw frame : String} {j : Json} {f : Frame} {pc : PC codec}
  {ok : State codec → Action codec → Prop}

/-- The id of the request that the Session reads in a frame. -/
def asks (codec : Codec) (raw : String) : Option RequestId :=
  match (codec.parse raw).map parseMessage with
  | some (.ok (.request req)) => some req.id
  | _ => none

def Frame.Brings (codec : Codec) (f : Frame) (p : ℕ) (id : RequestId) : Prop :=
  f.reply = some p ∧ asks codec f.raw = some id

def PC.Brings (p : ℕ) (id : RequestId) : PC codec → Prop
  | .handing f => f.Brings codec p id
  | .answering q i _ => q = p ∧ i = id
  | _ => False

/-- The request of POST `p` is on its way to the Session, with it, or on its way back. -/
def Underway (s : State codec) (p : ℕ) (id : RequestId) : Prop :=
  (∃ t, (s.pc t).Brings p id) ∨ (∃ f ∈ s.buffered ++ s.starting, f.Brings codec p id) ∨
    s.owed p = some id

theorem underway_setPC (h : Underway (s.setPC t pc) p id) : Underway s p id ∨ pc.Brings p id := by
  rcases h with ⟨u, hu⟩ | hqueued | howed
  · by_cases he : u = t
    · subst u
      right
      simpa [State.setPC] using hu
    · exact .inl (.inl ⟨u, by simpa [State.setPC, he] using hu⟩)
  · exact .inl (.inr (.inl hqueued))
  · exact .inl (.inr (.inr howed))

theorem underway_take (h : Underway (s.take f) p id) :
    Underway s p id ∨ f.Brings codec p id := by
  unfold State.take at h
  split at h
  · next q req hreply hparse =>
    rcases h with hpc | hqueued | howed
    · exact .inl (.inl hpc)
    · exact .inl (.inr (.inl hqueued))
    · by_cases he : p = q
      · subst q
        right
        simp only [Function.update_self, Option.some.injEq] at howed
        exact ⟨hreply, by simp [asks, hparse, howed]⟩
      · exact .inl (.inr (.inr (by simpa [he] using howed)))
  · exact .inl h

theorem underway_handOver (h : Underway (s.handOver f) p id) :
    Underway s p id ∨ f.Brings codec p id := by
  unfold State.handOver at h
  split at h
  · exact underway_take h
  · rcases h with hpc | ⟨g, hg, hbrings⟩ | howed
    · exact .inl (.inl hpc)
    · simp only [List.mem_append, List.mem_singleton] at hg
      rcases hg with (hg | rfl) | hg
      · exact .inl (.inr (.inl ⟨g, List.mem_append_left _ hg, hbrings⟩))
      · exact .inr hbrings
      · exact .inl (.inr (.inl ⟨g, List.mem_append_right _ hg, hbrings⟩))
    · exact .inl (.inr (.inr howed))

theorem underway_send (h : Underway (s.send frame) p id) : Underway s p id := by
  obtain ⟨pending, settled, getQueue, he⟩ := send_frame s frame
  rw [he] at h
  exact h

theorem underway_owed {u : ℕ} (h : Underway { s with owed := Function.update s.owed u none } p id) :
    Underway s p id := by
  rcases h with hpc | hqueued | howed
  · exact .inl hpc
  · exact .inr (.inl hqueued)
  · right
    right
    by_cases he : p = u
    · subst u
      simp at howed
    · simpa [he] using howed

theorem underway_deliver (h : Underway (s.deliver t raw) p id) :
    Underway s p id ∨ (p = s.promises ∧ asks codec raw = some id) := by
  unfold State.deliver at h
  split at h
  · exact .inl ((underway_setPC h).resolve_right False.elim)
  · split at h
    · rcases underway_setPC h with hs | ⟨hreply, hasks⟩
      · exact .inl hs
      · cases hreply
        exact .inr ⟨rfl, hasks⟩
    · refine .inl ((underway_setPC h).resolve_right ?_)
      rintro ⟨hreply, -⟩
      cases hreply

/-- A request that is under way has been so, or has just been posted. -/
theorem underway_step (hs : Step codec s a s') (h : Underway s' p id) :
    Underway s p id ∨ ∃ t raw, a = .post t raw ∧ p = s.promises ∧ asks codec raw = some id := by
  cases hs with
  | post _ =>
    rcases underway_deliver h with h | ⟨hp, hasks⟩
    · exact .inl h
    · exact .inr ⟨_, _, rfl, hp, hasks⟩
  | start =>
    left
    rcases h with hpc | ⟨g, hg, hbrings⟩ | howed
    · exact .inl hpc
    · refine .inr (.inl ⟨g, ?_, hbrings⟩)
      split at hg <;> simp_all [or_comm]
    · exact .inr (.inr howed)
  | @startHand f fs hstarting =>
    left
    have hmem : f ∈ s.buffered ++ s.starting := by simp [hstarting]
    rcases underway_take h with (hpc | ⟨g, hg, hbrings⟩ | howed) | hbrings
    · exact .inl hpc
    · refine .inr (.inl ⟨g, ?_, hbrings⟩)
      simp only [List.mem_append] at hg
      rcases hg with hg | hg <;> simp [hstarting, hg]
    · exact .inr (.inr howed)
    · exact .inr (.inl ⟨f, hmem, hbrings⟩)
  | @handOver t f hpc =>
    left
    rcases underway_setPC h with h | h
    · rcases underway_handOver h with h | hbrings
      · exact h
      · refine .inl ⟨t, ?_⟩
        rw [hpc]
        exact hbrings
    · split at h <;> exact h.elim
  | reply _ _ | timeOut _ | respond _ => exact .inl ((underway_setPC h).resolve_right False.elim)
  | @answer t q i m _ howed =>
    left
    rcases underway_setPC h with h | h
    · exact underway_owed h
    · split at h
      · exact h.elim
      · obtain ⟨rfl, rfl⟩ := h
        exact .inr (.inr howed)
  | drop => exact .inl (underway_owed h)
  | emit _ =>
    refine .inl ((underway_setPC h).resolve_right ?_)
    split <;> exact False.elim
  | route _ | push _ => exact .inl (underway_send ((underway_setPC h).resolve_right False.elim))
  | _ => exact .inl h

/-- What a step does to the promises: only an answer fulfils one, that of the slot it finds. -/
theorem settled_step (hcodec : codec.Faithful) (hs : Step codec s a s')
    (h : (p, .ok frame) ∈ s'.settled) : (p, .ok frame) ∈ s.settled ∨
      ∃ t q id m, a = .route t ∧ s.pc t = .answering q id m ∧ m.frame = frame ∧
        s.pending.lookup id.canonical = some p ∧
        s'.settled = s.settled ++ [(p, .ok frame)] := by
  cases hs with
  | post _ =>
    left
    unfold State.deliver at h
    split at h
    · exact h
    · split at h
      · simp only [State.setPC, State.register] at h
        split at h
        · simpa using h
        · exact h
      · exact h
  | @startHand f fs _ =>
    obtain ⟨owed, he⟩ := take_frame { s with starting := fs } f
    rw [he] at h
    exact .inl h
  | @handOver t f _ =>
    obtain ⟨owed, buffered, he⟩ := handOver_frame s f
    rw [he] at h
    exact .inl h
  | @route t q id m hpc =>
    rw [send_answer hcodec] at h ⊢
    split at h
    · exact .inl h
    · next q' hl =>
      simp only [State.setPC, List.mem_append, List.mem_singleton, Prod.mk.injEq,
        Except.ok.injEq] at h
      rcases h with h | ⟨rfl, rfl⟩
      · exact .inl h
      · refine .inr ⟨t, q, id, m, rfl, hpc, rfl, hl, ?_⟩
        rfl
  | push _ =>
    rw [send_other hcodec] at h
    exact .inl h
  | drain _ =>
    left
    simpa using h
  | _ => exact .inl h

/-- In a run up to `s`, the frame that the Session produced for the request of POST `q` has
become the answer of POST `p`. -/
def AnsweredFrom (ok : State codec → Action codec → Prop) (s : State codec) (p q : ℕ)
    (frame : String) : Prop :=
  ∃ s₁ s₂ t id m, (machine codec).Reachable ok s₁ ∧ s₁.pc t = .answering q id m ∧
    m.frame = frame ∧ ok s₁ (.route t) ∧ Step codec s₁ (.route t) s₂ ∧
    s₂.settled = s₁.settled ++ [(p, .ok frame)] ∧ (machine codec).Run ok s₂ s

theorem exists_answeredFrom (hcodec : codec.Faithful) (hs : (machine codec).Reachable ok s)
    (h : (p, .ok frame) ∈ s.settled) : ∃ q, AnsweredFrom ok s p q frame := by
  refine hs.invariant (P := fun s => (p, .ok frame) ∈ s.settled →
    ∃ q, AnsweredFrom ok s p q frame) ?_ ?_ h
  · rintro s rfl h
    cases h
  · intro s a s' hreach ih hok hst h
    rcases settled_step hcodec hst h with h | ⟨t, q, id, m, rfl, hpc, hm, -, hsettled⟩
    · obtain ⟨q, s₁, s₂, t, id, m, h₁, hpc, hm, hok₁, hst₁, hsettled, hrun⟩ := ih h
      exact ⟨q, s₁, s₂, t, id, m, h₁, hpc, hm, hok₁, hst₁, hsettled, hrun.step hok hst⟩
    · exact ⟨q, s, s', t, id, m, hreach, hpc, hm, hok, hst, hsettled, .refl⟩

/-- A POST neither makes a slot under the key of a request that is under way, nor brings a request
whose answer would find a slot that is already there. -/
def Distinct (s : State codec) (a : Action codec) : Prop :=
  ∀ t raw j, a = .post t raw → codec.parse raw = some j →
    (hasId j && j.contains "method") = true →
      (s.pending.lookup (keyOf j) = none → ∀ q id, Underway s q id → id.canonical ≠ keyOf j) ∧
        ∀ id, asks codec raw = some id → s.pending.lookup id.canonical = none

/-- The answer to a request that is under way finds the slot of its own POST, if any. -/
def Owned (s : State codec) : Prop :=
  ∀ p q id, s.pending.lookup id.canonical = some p → Underway s q id → q = p

theorem hasId_of_asks (hraw : codec.parse raw = some j) (h : asks codec raw = some id) :
    (hasId j && j.contains "method") = true := by
  unfold asks at h
  rw [hraw] at h
  split at h
  · next req hreq =>
    obtain ⟨hm, v, hv, hid⟩ := id_of_parseMessage (by simpa using hreq)
    cases v with
    | null => cases hid
    | _ => simp [hasId, hv, hm, Json.isNull]
  · cases h

theorem parse_of_asks (h : asks codec raw = some id) : ∃ j, codec.parse raw = some j := by
  cases hraw : codec.parse raw with
  | none => simp [asks, hraw] at h
  | some j => exact ⟨j, rfl⟩

/-- A slot that a POST did not find there is its own. -/
theorem slot_deliver {key : String} (h : (s.deliver t raw).pending.lookup key = some p) :
    s.pending.lookup key = some p ∨ (p = s.promises ∧ ∃ j, codec.parse raw = some j ∧
      (hasId j && j.contains "method") = true ∧ keyOf j = key ∧ s.pending.lookup key = none) := by
  unfold State.deliver at h
  split at h
  · exact .inl h
  · next j hj =>
    split at h
    · next hrequest =>
      rcases Dict.lookup_of_lookup_tryEmplace h with ⟨rfl, hp, hnone⟩ | hl
      · exact .inr ⟨hp, j, hj, hrequest, rfl, hnone⟩
      · exact .inl hl
    · exact .inl h

theorem slot_origin (hcodec : codec.Faithful) (hs : Step codec s a s') {key : String}
    (hl : s'.pending.lookup key = some p) : s.pending.lookup key = some p ∨
      ∃ t raw j, a = .post t raw ∧ p = s.promises ∧ codec.parse raw = some j ∧
        (hasId j && j.contains "method") = true ∧ keyOf j = key ∧
        s.pending.lookup key = none := by
  cases step_change hcodec hs with
  | same hp _ =>
    rw [hp] at hl
    exact .inl hl
  | @register u body _ _ _ _ =>
    cases hs with
    | post _ =>
      rcases slot_deliver hl with hl | ⟨hp, j, hj, hrequest, hkey, hnone⟩
      · exact .inl hl
      · exact .inr ⟨u, body, j, rfl, hp, hj, hrequest, hkey, hnone⟩
  | route _ hp _ =>
    rw [hp] at hl
    exact .inl (Dict.lookup_of_lookup_erase hl)
  | drain _ hp _ =>
    rw [hp] at hl
    cases hl

theorem owned_step (hcodec : codec.Faithful) (hs : Step codec s a s') (hok : Distinct s a)
    (h : Owned s) : Owned s' := by
  intro p q id hl hunder
  rcases slot_origin hcodec hs hl with hslot | ⟨t, raw, j, rfl, hp, hj, hrequest, hkey, hnone⟩
  · rcases underway_step hs hunder with hold | ⟨t, raw, rfl, -, hasks⟩
    · exact h p q id hslot hold
    · -- the request that has just been posted finds no slot under its id
      obtain ⟨j, hj⟩ := parse_of_asks hasks
      have hnone := (hok t raw j rfl hj (hasId_of_asks hj hasks)).2 id hasks
      rw [hslot] at hnone
      cases hnone
  · rcases underway_step hs hunder with hold | ⟨t', raw', heq, hq, -⟩
    · rw [← hkey] at hnone
      exact absurd hkey.symm ((hok t raw j rfl hj hrequest).1 hnone q id hold)
    · rw [hp, hq]

theorem owned_reachable (hcodec : codec.Faithful) (hs : (machine codec).Reachable Distinct s) :
    Owned s := by
  refine hs.invariant (P := Owned) ?_ ?_
  · rintro s rfl p q id hl -
    cases hl
  · intro s a s' _ h hok hst
    exact owned_step hcodec hst hok h

/-- While ids are used again only when nothing is under way or filed under them, the answer of a
POST is the frame that the Session produced for the request of that POST. -/
theorem no_cross_talk (hcodec : codec.Faithful) (hs : (machine codec).Reachable Distinct s)
    (h : (p, .ok frame) ∈ s.settled) :
    (∃ q, AnsweredFrom Distinct s p q frame) ∧ ∀ q, AnsweredFrom Distinct s p q frame → q = p := by
  refine ⟨exists_answeredFrom hcodec hs h, ?_⟩
  rintro q ⟨s₁, s₂, t, id, m, hreach, hpc, rfl, -, hst, hsettled, -⟩
  cases hst with
  | @route _ q' id' m' hpc' =>
    cases hpc.symm.trans hpc'
    have hl := (settled_send hcodec m).mp hsettled
    exact owned_reachable hcodec hreach p q id hl (.inl ⟨t, by simp [hpc, PC.Brings]⟩)

theorem distinct_of_ne (h : ∀ t raw, a ≠ .post t raw) : Distinct s a :=
  fun t raw _ ha => absurd ha (h t raw)

/-- A POST's request has been registered and taken, and the POST waits. -/
def State.enlist (s : State codec) (t : ℕ) (key : String) (id : RequestId) : State codec :=
  { s.register key with
    owed := Function.update s.owed s.promises (some id)
    pc := Function.update s.pc t (.waiting s.promises) }

theorem reachable_enlist {req : JsonRpcRequest} (hs : (machine codec).Reachable ok s)
    (hready : (s.started && s.listening) = true) (hidle : s.pc t = .idle)
    (hraw : codec.parse raw = some j) (hreq : parseMessage j = .ok (.request req))
    (hpost : ok s (.post t raw)) (hhand : ∀ s, ok s (.handOver t)) :
    (machine codec).Reachable ok (s.enlist t (keyOf j) req.id) := by
  have hdeliver : Step codec s (.post t raw) (s.deliver t raw) := .post hidle
  rw [deliver_request hraw hreq] at hdeliver
  have hhanding : ((s.register (keyOf j)).setPC t
      (.handing { raw, reply := some s.promises })).pc t =
        .handing { raw, reply := some s.promises } := by simp [State.setPC]
  have htake := Step.handOver hhanding
  rw [handOver_request (s := (s.register (keyOf j)).setPC t _) hraw hreq hready] at htake
  have hreach := reachable_step (reachable_step hs hpost hdeliver) (hhand _) htake
  simpa only [State.setPC, State.enlist, State.register, Function.update_idem] using hreach

/-- The Session has an answer and has passed the check of `closed_`. -/
def State.resolve (s : State codec) (t p : ℕ) (m : Outgoing codec (some id)) : State codec :=
  { s with owed := Function.update s.owed p none }.setPC t (.answering p id m)

theorem reachable_resolve (hs : (machine codec).Reachable ok s) (hopen : s.closed = false)
    (hidle : s.pc t = .idle) (howed : s.owed p = some id) (m : Outgoing codec (some id))
    (hok : ok s (.answer t p id m)) : (machine codec).Reachable ok (s.resolve t p m) := by
  have hanswer : Step codec s (.answer t p id m) (s.resolve t p m) := by
    have h := Step.answer (m := m) hidle howed
    simpa only [State.resolve, hopen, Bool.false_eq_true, if_false] using h
  exact reachable_step hs hok hanswer

/-- An answer that finds a slot. -/
theorem answeredFrom_route (hcodec : codec.Faithful) (hs : (machine codec).Reachable ok s)
    {m : Outgoing codec (some id)} (hpc : s.pc t = .answering q id m)
    (hl : s.pending.lookup id.canonical = some p) (hok : ok s (.route t)) :
    (machine codec).Reachable ok ((s.send m.frame).setPC t .idle) ∧
      AnsweredFrom ok ((s.send m.frame).setPC t .idle) p q m.frame ∧
      (p, .ok m.frame) ∈ ((s.send m.frame).setPC t .idle).settled := by
  have hroute : Step codec s (.route t) _ := .route hpc
  have hsettled : ((s.send m.frame).setPC t .idle).settled = s.settled ++ [(p, .ok m.frame)] :=
    (settled_send hcodec m).mpr hl
  refine ⟨reachable_step hs hok hroute, ?_, by simp [hsettled]⟩
  exact ⟨s, _, t, id, m, hs, hpc, rfl, hok, hroute, hsettled, .refl⟩

/-- A transport that has been wired and started. -/
def wired : State codec := { fresh with listening := true, started := true }

theorem reachable_wired (hlisten : ok (fresh : State codec) .onMessage)
    (hstart : ∀ s : State codec, ok s .start) : (machine codec).Reachable ok wired := by
  have h₀ : (machine codec).Reachable ok fresh := .initial rfl
  have h₁ := reachable_step (a := .onMessage) h₀ hlisten .onMessage
  exact reachable_step (a := .start) h₁ (hstart _) .start

/-- A call of a tool, by the id it carries. -/
def callText : String := "\x7b\"jsonrpc\":\"2.0\",\"id\":1,\"method\":\"tools/call\"\x7d"

def callJson : Json :=
  .object [("id", .unsigned 1), ("jsonrpc", .string "2.0"), ("method", .string "tools/call")]

/-- The text codec on the frames of a call and a ping. -/
def callCodec : Codec where
  parse text := if text = callText then some callJson else pingCodec.parse text
  dump := pingCodec.dump

theorem callCodec_faithful : callCodec.Faithful := by
  intro j text h
  obtain ⟨j', hj', hrel⟩ := pingCodec_faithful j text h
  refine ⟨j', ?_, hrel⟩
  have hne : text ≠ callText := by
    rintro rfl
    simp [pingCodec, callText, pingText, floatPingText, pongText] at hj'
  simp [callCodec, hne, hj']

def callRequest : JsonRpcRequest where
  id := .integer 1
  method := "tools/call"
  params := none

def callPong : Outgoing callCodec (some ping.id) where
  msg := pong.msg
  frame := pongText
  dumped := pong.dumped
  answers := rfl

theorem parse_call : parseMessage callJson = .ok (.request callRequest) := by
  have hget : callJson.get JsonRpcRequest = .ok callRequest := by
    change JsonRpcRequest.fromJson callJson = _
    have hv : checkJsonrpc callJson = .ok () := checkJsonrpc_of_find rfl
    have hi : getAt RequestId callJson "id" = .ok callRequest.id := rfl
    have hm : require String callJson "method" = .ok callRequest.method := rfl
    have ht : takeOptionalJson callJson "params" = none := rfl
    simp [JsonRpcRequest.fromJson, hv, hi, hm, ht, bind, Except.bind, pure, Except.pure,
      callRequest]
  have ho : callJson.isObject = true := rfl
  have hc : callJson.contains "id" = true ∧ callJson.contains "method" = true := ⟨rfl, rfl⟩
  simp [parseMessage, ho, hc, hget, bind, Except.bind, pure, Except.pure]

/-- A client posts a call and, with the call still running, a ping under the same id. The ping's
pong becomes the answer of the call. -/
theorem pong_answers_call : ∃ s : State callCodec, callCodec.Faithful ∧
    (machine callCodec).Reachable Free s ∧ s.pc 0 = .waiting 0 ∧
    AnsweredFrom Free s 0 1 pongText ∧
    Step callCodec s (.reply 0)
      (s.setPC 0 (.responding { status := 200, content := pongText })) := by
  have hping : callCodec.parse pingText = some (pingWith (.unsigned 1)) := rfl
  have hcall : callCodec.parse callText = some callJson := rfl
  have h₀ : (machine callCodec).Reachable Free wired := reachable_wired trivial fun _ => trivial
  have h₁ := reachable_enlist (t := 0) h₀ rfl rfl hcall parse_call trivial fun _ => trivial
  have h₂ := reachable_enlist (t := 1) h₁ rfl rfl hping parse_ping trivial fun _ => trivial
  have h₃ := reachable_resolve (t := 2) (p := 1) h₂ rfl rfl rfl callPong trivial
  obtain ⟨h₄, hfrom, hmem⟩ := answeredFrom_route (t := 2) (p := 0) callCodec_faithful h₃ rfl rfl
    trivial
  exact ⟨_, callCodec_faithful, h₄, rfl, hfrom, .reply rfl hmem⟩

/-- A POST whose id nothing is under way or filed under. -/
theorem distinct_post {req : JsonRpcRequest} (hraw : codec.parse raw = some j)
    (hreq : parseMessage j = .ok (.request req)) (hkey : keyOf j = req.id.canonical)
    (hnone : s.pending.lookup req.id.canonical = none) (hunder : ∀ q, ¬Underway s q req.id) :
    Distinct s (.post t raw) := by
  rintro _ _ j' ⟨⟩ hj' -
  cases hraw.symm.trans hj'
  refine ⟨?_, ?_⟩
  · rintro - q id hq he
    rw [hkey] at he
    cases RequestId.canonical_injective he
    exact hunder q hq
  · intro id hasks
    obtain rfl : req.id = id := by simpa [asks, hraw, hreq] using hasks
    exact hnone

theorem underway_enlist {key : String} {id' : RequestId} (h : Underway (s.enlist t key id') p id) :
    Underway s p id ∨ id = id' := by
  rcases h with ⟨u, hu⟩ | hqueued | howed
  · by_cases he : u = t
    · subst u
      simp [State.enlist, PC.Brings] at hu
    · exact .inl (.inl ⟨u, by simpa [State.enlist, he] using hu⟩)
  · exact .inl (.inr (.inl hqueued))
  · rcases update_cases howed with ⟨-, he⟩ | ⟨-, howed⟩
    · exact .inr (Option.some.inj he).symm
    · exact .inl (.inr (.inr howed))

theorem not_underway_wired : ¬Underway (wired : State codec) p id := by
  rintro (⟨t, ht⟩ | ⟨f, hf, -⟩ | howed)
  · exact ht
  · cases hf
  · cases howed

/-- A second ping, under another id. -/
def otherText : String := "\x7b\"jsonrpc\":\"2.0\",\"id\":2,\"method\":\"ping\"\x7d"
def otherPongText : String := "\x7b\"id\":2,\"jsonrpc\":\"2.0\",\"result\":\x7b\x7d\x7d"

/-- The text codec on the frames of both pings. -/
def pairCodec : Codec where
  parse text :=
    if text = otherText then some (pingWith (.unsigned 2))
    else if text = otherPongText then some (pongWith (.unsigned 2))
    else pingCodec.parse text
  dump
    | .object [(k₁, .integer i), (k₂, .string v), (k₃, .object [])] =>
      if k₁ = "id" ∧ k₂ = "jsonrpc" ∧ v = "2.0" ∧ k₃ = "result" then
        if i = 1 then some pongText else if i = 2 then some otherPongText else none
      else none
    | _ => none

theorem pairCodec_faithful : pairCodec.Faithful := by
  intro j text h
  simp only [pairCodec] at h
  split at h
  · split at h
    · rename_i hj
      obtain ⟨rfl, rfl, rfl, rfl⟩ := hj
      split at h
      · next hi =>
        subst hi
        cases h
        exact ⟨pongWith (.unsigned 1), rfl, readBack_pong (by decide)⟩
      · split at h
        · next hi =>
          subst hi
          cases h
          exact ⟨pongWith (.unsigned 2), rfl, readBack_pong (by decide)⟩
        · cases h
    · cases h
  · cases h

def otherPing : JsonRpcRequest where
  id := .integer 2
  method := "ping"
  params := none

def pairPong : Outgoing pairCodec (some ping.id) where
  msg := pong.msg
  frame := pongText
  dumped := by decide
  answers := rfl

def otherPong : Outgoing pairCodec (some otherPing.id) where
  msg := .response { id := some (.integer 2), outcome := .result (.object []) }
  frame := otherPongText
  dumped := by decide
  answers := rfl

theorem parse_otherPing : parseMessage (pingWith (.unsigned 2)) = .ok (.request otherPing) :=
  parse_pingWith rfl

/-- Two pings are in flight, the second one is answered first, and each gets its own pong. -/
theorem pongs_answer_pings : ∃ s : State pairCodec, (machine pairCodec).Reachable Distinct s ∧
    s.settled = [(1, .ok otherPongText), (0, .ok pongText)] ∧
    (∀ q, AnsweredFrom Distinct s 1 q otherPongText → q = 1) ∧
    ∀ q, AnsweredFrom Distinct s 0 q pongText → q = 0 := by
  have hping : pairCodec.parse pingText = some (pingWith (.unsigned 1)) := rfl
  have hother : pairCodec.parse otherText = some (pingWith (.unsigned 2)) := rfl
  have h₀ : (machine pairCodec).Reachable Distinct wired :=
    reachable_wired (distinct_of_ne nofun) fun _ => distinct_of_ne nofun
  have h₁ := reachable_enlist (t := 0) h₀ rfl rfl hping parse_ping
    (distinct_post hping parse_ping rfl rfl fun _ => not_underway_wired)
    fun _ => distinct_of_ne nofun
  have hunder : ∀ q, ¬Underway
      ((wired : State pairCodec).enlist 0 (keyOf (pingWith (.unsigned 1))) ping.id) q
      otherPing.id := by
    intro q hq
    rcases underway_enlist hq with hq | he
    · exact not_underway_wired hq
    · cases he
  have h₂ := reachable_enlist (t := 1) h₁ rfl rfl hother parse_otherPing
    (distinct_post hother parse_otherPing rfl rfl hunder) fun _ => distinct_of_ne nofun
  have h₃ := reachable_resolve (t := 2) (p := 1) h₂ rfl rfl rfl otherPong (distinct_of_ne nofun)
  obtain ⟨h₄, -, -⟩ := answeredFrom_route (t := 2) (p := 1) pairCodec_faithful h₃ rfl rfl
    (distinct_of_ne nofun)
  have h₅ := reachable_resolve (t := 3) (p := 0) h₄ rfl rfl rfl pairPong (distinct_of_ne nofun)
  obtain ⟨h₆, -, -⟩ := answeredFrom_route (t := 3) (p := 0) pairCodec_faithful h₅ rfl rfl
    (distinct_of_ne nofun)
  refine ⟨_, h₆, rfl, (no_cross_talk pairCodec_faithful h₆ ?_).2,
    (no_cross_talk pairCodec_faithful h₆ ?_).2⟩
  · exact .head _
  · exact .tail _ (.head _)

end Mcp.Http.SessionTransport
