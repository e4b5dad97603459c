import Mcp.Exchange.Model

/-! A request that was sent is in one place, and so is its answer. -/
namespace Mcp.Exchange

open Transition Session Custody

variable {V : Type} {jsonWhat : JsonException → String} {opts : Options} {calls : ℕ → Call V}
  {e p e' p' : End V} {a : Action} {t : Thread} {w : ℕ}

section Frames

theorem parse_request (k : ℕ) (call : Call V) :
    parseMessage (serializeMessage (.request (requestOf k call))) =
      .ok (.request (requestOf k call)) := by
  have hparams : (requestOf k call).params ≠ some .null := by
    unfold requestOf
    cases call.params <;> simp [Json.isNull]
  exact parseMessage_of_request hparams

theorem parse_response (resp : JsonRpcResponse) :
    parseMessage (serializeMessage (.response resp)) = .ok (.response resp) :=
  parseMessage_of_response resp

theorem parse_notification {note : JsonRpcNotification} (h : note.params ≠ some .null) :
    parseMessage (serializeMessage (.notification note)) = .ok (.notification note) :=
  parseMessage_of_notification h

end Frames

/-- The steps other than `sendOk` write nothing. -/
theorem written_eq {a : Session.Action} {s σ : State V} (hs : Session.Step opts calls s a σ)
    (h : ∀ t, a ≠ .sendOk t) : σ.written = s.written := by
  rcases written_step hs with heq | ⟨t, k, rfl, -⟩
  · exact heq
  · exact absurd rfl (h t)

theorem received_eq {a : Session.Action} {s σ : State V} (hs : Session.Step opts calls s a σ)
    (h : ∀ t resp, a ≠ .response t resp) : σ.received = s.received := by
  rcases received_step hs with heq | ⟨t, resp, rfl, -⟩
  · exact heq
  · exact absurd rfl (h t resp)

section Fields

variable (m : JsonRpcMessage) (work : Work) (req : Option JsonRpcRequest)

@[simp] theorem post_inbox : (p.post m).inbox = p.inbox ++ [serializeMessage m] := rfl
@[simp] theorem post_session : (p.post m).session = p.session := rfl
@[simp] theorem post_starting : (p.post m).starting = p.starting := rfl
@[simp] theorem post_work : (p.post m).work = p.work := rfl
@[simp] theorem post_handled : (p.post m).handled = p.handled := rfl
@[simp] theorem post_dropped : (p.post m).dropped = p.dropped := rfl
@[simp] theorem post_unanswered : (p.post m).unanswered = p.unanswered := rfl

@[simp] theorem setWork_inbox : (e.setWork w work).inbox = e.inbox := rfl
@[simp] theorem setWork_session : (e.setWork w work).session = e.session := rfl
@[simp] theorem setWork_starting : (e.setWork w work).starting = e.starting := rfl
@[simp] theorem setWork_handled : (e.setWork w work).handled = e.handled := rfl
@[simp] theorem setWork_dropped : (e.setWork w work).dropped = e.dropped := rfl
@[simp] theorem setWork_unanswered : (e.setWork w work).unanswered = e.unanswered := rfl
@[simp] theorem setWork_work : (e.setWork w work).work = Function.update e.work w work := rfl

@[simp] theorem setStarting_inbox : (e.setStarting t req).inbox = e.inbox := rfl
@[simp] theorem setStarting_session : (e.setStarting t req).session = e.session := rfl
@[simp] theorem setStarting_work : (e.setStarting t req).work = e.work := rfl
@[simp] theorem setStarting_handled : (e.setStarting t req).handled = e.handled := rfl
@[simp] theorem setStarting_dropped : (e.setStarting t req).dropped = e.dropped := rfl
@[simp] theorem setStarting_unanswered : (e.setStarting t req).unanswered = e.unanswered := rfl
@[simp] theorem setStarting_starting :
    (e.setStarting t req).starting = Function.update e.starting t req := rfl

@[simp] theorem asked_request (k : ℕ) (call : Call V) :
    asked (serializeMessage (.request (requestOf k call))) = some (requestId k) := by
  simp only [asked, parse_request]
  rfl

@[simp] theorem answered_request (k : ℕ) (call : Call V) :
    answered (serializeMessage (.request (requestOf k call))) = none := by
  simp [answered, parse_request]

@[simp] theorem asked_response (resp : JsonRpcResponse) :
    asked (serializeMessage (.response resp)) = none := by
  simp [asked, parse_response]

@[simp] theorem answered_response (resp : JsonRpcResponse) :
    answered (serializeMessage (.response resp)) = resp.id := by
  simp [answered, parse_response]

theorem asked_notification {note : JsonRpcNotification} (h : note.params ≠ some .null) :
    asked (serializeMessage (.notification note)) = none := by
  simp [asked, parse_notification h]

theorem answered_notification {note : JsonRpcNotification} (h : note.params ≠ some .null) :
    answered (serializeMessage (.notification note)) = none := by
  simp [answered, parse_notification h]

end Fields

/-- A thread has a request in hand only between counting its worker and making it. -/
def Placed (e : End V) : Prop := ∀ t, e.starting t ≠ none → e.session.pc t = .spawningWorker

abbrev MovesRequests (e p e' p' : End V) : Prop :=
  Move (Written e) (requests p) (Written e') (requests p')

abbrev MovesReplies (e p e' p' : End V) : Prop :=
  Move (Handled p) (replies e p) (Handled p') (replies e' p')

/-- What an end does to its own requests: it sends them. -/
theorem requests_mine (h : Act jsonWhat opts calls e p a e' p')
    (hnum : Numbered calls e.session) (hrange : e.session.issued ≤ 2 ^ 64) :
    MovesRequests e p e' p' := by
  have hquiet : ∀ {m}, asked (serializeMessage m) = none →
      ∀ q, requests (p.post m) q = requests p q := by
    rintro m hm (_ | t | w | _ | _)
    · simp [requests, hm]
    all_goals rfl
  cases h with
  | @send t k _ hpc hs =>
    have hunsent : (e.session.pc t).unsent = some k := by rw [hpc]; rfl
    refine .mint (requestId k) .outbound (not_mem_written hnum hrange hunsent) ⟨?_, ?_⟩ ?_
    · simp [requests]
    · rintro (_ | t | w | _ | _) hne
      · exact absurd rfl hne
      all_goals rfl
    · intro id
      cases hs with
      | sendOk hpc' =>
        cases hpc.symm.trans hpc'
        simp [Written, State.setPC, requestOf, or_comm]
  | session hs hin _ =>
    refine .still (fun _ => rfl) fun id => ?_
    rw [Written, written_eq hs (by rintro t rfl; exact hin), Written]
  | takeRequest _ _ hs | takeResponse _ _ hs | start _ _ hs | startThrow _ hs | finish _ hs =>
    refine .still (fun _ => rfl) fun id => ?_
    have hwritten := written_eq hs fun _ he => by cases he
    simp only [Written, setWork_session, setStarting_session, hwritten]
  | notify hn => exact .still (hquiet (asked_notification hn)) fun _ => Iff.rfl
  | answer _ => exact .still (hquiet (asked_response _)) fun _ => Iff.rfl
  | takeOther _ _ _ | handle _ _ | answerFail _ => exact .still (fun _ => rfl) fun _ => Iff.rfl

theorem starting_eq_none (hplaced : Placed e) (hpc : e.session.pc t = .idle) :
    e.starting t = none := by
  by_contra hne
  have := hplaced t hne
  simp [hpc] at this

/-- What an end does to the requests of its peer: it takes, starts and handles them. -/
theorem requests_theirs (h : Act jsonWhat opts calls e p a e' p') (hplaced : Placed e) :
    MovesRequests p e p' e' := by
  cases h with
  | session _ _ _ => exact .still (fun q => by cases q <;> rfl) fun _ => Iff.rfl
  | send _ _ => exact .still (fun q => by cases q <;> rfl) fun _ => Iff.rfl
  | notify _ => exact .still (fun q => by cases q <;> rfl) fun _ => Iff.rfl
  | @takeRequest t j earlier later req σ hbox hj hs =>
    have hnone : e.starting t = none := by
      cases hs with
      | dispatch hpc => exact starting_eq_none hplaced hpc
    refine .transfer {req.id} .outbound (.starting t) nofun ⟨?_, ?_, ?_⟩ fun _ => Iff.rfl
    · simp [requests, hbox, asked, hj]
    · simp [requests, hnone]
    · rintro (_ | u | w | _ | _) h1 h2
      · exact absurd rfl h1
      · have hne : u ≠ t := fun he => h2 (he ▸ rfl)
        simp [requests, hne]
      all_goals rfl
  | @takeResponse t j earlier later resp σ hbox hj hs =>
    refine .still ?_ fun _ => Iff.rfl
    rintro (_ | u | w | _ | _)
    · simp [requests, hbox, asked, hj]
    all_goals rfl
  | @takeOther j earlier later hbox hreq hresp =>
    have hnone : asked j = none := by
      unfold asked
      split
      · next req hj => exact absurd hj (hreq req)
      all_goals rfl
    refine .still ?_ fun _ => Iff.rfl
    rintro (_ | u | w | _ | _)
    · simp [requests, hbox, hnone]
    all_goals rfl
  | @start t w req σ hstart hw hs =>
    refine .transfer {req.id} (.starting t) (.serving w) nofun ⟨?_, ?_, ?_⟩ fun _ => Iff.rfl
    · simp [requests, hstart]
    · simp [requests, hw, Work.served]
    · rintro (_ | u | v | _ | _) h1 h2
      · rfl
      · have hne : u ≠ t := fun he => h1 (he ▸ rfl)
        simp [requests, hne]
      · have hne : v ≠ w := fun he => h2 (he ▸ rfl)
        simp [requests, hne]
      all_goals rfl
  | @startThrow t req σ hstart hs =>
    refine .transfer {req.id} (.starting t) .dropped nofun ⟨?_, ?_, ?_⟩ fun _ => Iff.rfl
    · simp [requests, hstart]
    · simp [requests, ← Multiset.coe_add, Multiset.add_comm]
    · rintro (_ | u | v | _ | _) h1 h2
      · rfl
      · have hne : u ≠ t := fun he => h1 (he ▸ rfl)
        simp [requests, hne]
      · rfl
      · rfl
      · exact absurd rfl h2
  | @handle w req run hw =>
    refine .transfer {req.id} (.serving w) .handled nofun ⟨?_, ?_, ?_⟩ fun _ => Iff.rfl
    · simp [requests, hw, Work.served]
    · simp [requests, ← Multiset.coe_add, Multiset.add_comm]
    · rintro (_ | u | v | _ | _) h1 h2
      · rfl
      · rfl
      · have hne : v ≠ w := fun he => h1 (he ▸ rfl)
        simp [requests, hne]
      · exact absurd rfl h2
      · rfl
  | @answer w req run hw | @answerFail w req run hw | @finish w σ hw hs =>
    refine .still ?_ fun _ => Iff.rfl
    rintro (_ | u | v | _ | _)
    · rfl
    · rfl
    · by_cases hv : v = w
      · subst v
        simp [requests, hw, Work.served]
      · simp [requests, hv]
    all_goals rfl

/-- The answers of its peer: an end takes them. -/
theorem replies_mine (h : Act jsonWhat opts calls e p a e' p') : MovesReplies e p e' p' := by
  have hstill : ∀ {e' p' : End V}, e'.inbox.filterMap answered = e.inbox.filterMap answered →
      e'.session.received = e.session.received → p'.work = p.work →
      p'.unanswered = p.unanswered → ∀ q, replies e' p' q = replies e p q := by
    rintro e' p' hinbox hreceived hwork hunanswered (_ | _ | _ | _) <;>
      simp [replies, *]
  cases h with
  | session hs hin _ =>
    refine .still (hstill rfl (received_eq hs ?_) rfl rfl) fun _ => Iff.rfl
    rintro t resp rfl
    exact hin
  | send _ hs => exact .still (hstill rfl (received_eq hs nofun) rfl rfl) fun _ => Iff.rfl
  | notify _ | answer _ => exact .still (fun q => by cases q <;> rfl) fun _ => Iff.rfl
  | @takeRequest t j earlier later req σ hbox hj hs =>
    refine .still (hstill ?_ (received_eq hs nofun) rfl rfl) fun _ => Iff.rfl
    simp [hbox, answered, hj]
  | @takeResponse t j earlier later resp σ hbox hj hs =>
    refine .transfer (resp.id.elim 0 fun id => {id}) .inbound .received nofun ⟨?_, ?_, ?_⟩
      fun _ => Iff.rfl
    · cases hid : resp.id <;> simp [replies, hbox, answered, hj, hid]
    · have hreceived := received_response hs
      cases hid : resp.id <;> simp [replies, hreceived, hid]
    · rintro (_ | _ | _ | _) h1 h2
      · rfl
      · exact absurd rfl h1
      · exact absurd rfl h2
      · rfl
  | @takeOther j earlier later hbox hreq hresp =>
    have hnone : answered j = none := by
      unfold answered
      split
      · next resp hj => exact absurd hj (hresp resp)
      all_goals rfl
    refine .still (hstill ?_ rfl rfl rfl) fun _ => Iff.rfl
    simp [hbox, hnone]
  | start _ _ hs | startThrow _ hs | finish _ hs =>
    exact .still (hstill rfl (received_eq hs nofun) rfl rfl) fun _ => Iff.rfl
  | handle _ _ | answerFail _ => exact .still (hstill rfl rfl rfl rfl) fun _ => Iff.rfl

/-- The answers to its peer: an end makes them and sends them. -/
theorem replies_theirs (h : Act jsonWhat opts calls e p a e' p')
    (hreq : Exclusive (Written p) (requests e)) : MovesReplies p e p' e' := by
  cases h with
  | session _ _ _ => exact .still (fun q => by cases q <;> rfl) fun _ => Iff.rfl
  | send _ _ =>
    refine .still ?_ fun _ => Iff.rfl
    rintro (_ | _ | _ | _)
    · rfl
    · simp [replies]
    all_goals rfl
  | notify hn =>
    refine .still ?_ fun _ => Iff.rfl
    rintro (_ | _ | _ | _)
    · rfl
    · simp [replies, answered_notification hn]
    all_goals rfl
  | takeRequest _ _ _ | takeResponse _ _ _ | takeOther _ _ _ | startThrow _ _ =>
    exact .still (fun q => by cases q <;> rfl) fun _ => Iff.rfl
  | @start t w req σ hstart hw hs =>
    refine .still ?_ fun _ => Iff.rfl
    rintro (v | _ | _ | _)
    · by_cases hv : v = w
      · subst v
        simp [replies, hw, Work.unsent]
      · simp [replies, hv]
    all_goals rfl
  | @handle w req run hw =>
    have hserving : req.id ∈ requests e (.serving w) := by simp [requests, hw, Work.served]
    have hnew : ¬Handled e req.id := by
      intro hh
      have hhandled : req.id ∈ requests e .handled := hh
      cases hreq.place_unique hserving hhandled
    refine .mint req.id (.answering w) hnew ⟨?_, ?_⟩ fun id => ?_
    · simp [replies, hw, Work.unsent]
    · rintro (v | _ | _ | _) hne
      · have hv : v ≠ w := fun he => hne (he ▸ rfl)
        simp [replies, hv]
      all_goals rfl
    · simp [Handled, or_comm, eq_comm]
  | @answer w req run hw =>
    refine .transfer {req.id} (.answering w) .inbound nofun ⟨?_, ?_, ?_⟩ fun _ => Iff.rfl
    · simp [replies, hw, Work.unsent]
    · simp [replies, respondTo]
    · rintro (v | _ | _ | _) h1 h2
      · have hv : v ≠ w := fun he => h1 (he ▸ rfl)
        simp [replies, hv]
      · exact absurd rfl h2
      all_goals rfl
  | @answerFail w req run hw =>
    refine .transfer {req.id} (.answering w) .unanswered nofun ⟨?_, ?_, ?_⟩ fun _ => Iff.rfl
    · simp [replies, hw, Work.unsent]
    · simp [replies, ← Multiset.coe_add, Multiset.add_comm]
    · rintro (v | _ | _ | _) h1 h2
      · have hv : v ≠ w := fun he => h1 (he ▸ rfl)
        simp [replies, hv]
      · rfl
      · rfl
      · exact absurd rfl h2
  | @finish w σ hw hs =>
    refine .still ?_ fun _ => Iff.rfl
    rintro (v | _ | _ | _)
    · by_cases hv : v = w
      · subst v
        simp [replies, hw, Work.unsent]
      · simp [replies, hv]
    all_goals rfl

end Mcp.Exchange
