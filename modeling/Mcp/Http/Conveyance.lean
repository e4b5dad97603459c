import Mcp.Http.CrossTalk
import Mcp.Http.Inward
import Mcp.Http.SendQueue

/-! Over the link each side is handed the frames that the other has sent, and no frame more often
than it was sent. -/
namespace Mcp.Http.Link

open Transition SessionTransport Crowd

variable {codec : Codec} {settings : ClientTransport.Settings} {sid : String}
  {s s' : State codec} {a : Action codec} {c c' : ClientTransport.State}
  {d : ClientTransport.Action} {h' : SessionTransport.State codec}
  {b : SessionTransport.Action codec} {t u : ℕ} {f : String}

/-- What has the frame in hand on its way from the Session's send() to `on_message_`. -/
def Inbound (f : String) (s : State codec) : Place → Prop
  | .post t => Holding f s.client t
  | .thread u => Answering f s.host.transport u
  | .stream g => s.host.stream g = .holding f

/-- How often the frame is elsewhere on its way, or has been delivered. -/
def inward (f : String) (s : State codec) : ℕ :=
  s.host.transport.getQueue.count f + (unreadFrames s.client s.bytes).count f.toList +
    s.client.delivered.count f.toList

theorem count_toList {frame : String} (hne : frame ≠ f) : [frame.toList].count f.toList = 0 := by
  rw [List.count_eq_zero, List.mem_singleton]
  exact fun he => hne (String.toList_inj.mp he.symm)

/-- A step of the host, seen from the places of the host. -/
theorem inbound_host (hs : Hosted s.host) {b : Streams.Action codec} {l : Streams codec} {n : ℕ}
    (hst : Streams.Step codec s.host b l) (hhost : s'.host = l)
    (hpost : ∀ v, Inbound f s' (.post v) → Inbound f s (.post v))
    (hinward : inward f s' + s.host.transport.getQueue.count f ≤
      inward f s + s'.host.transport.getQueue.count f)
    (h : Covered (Inbound f s) (inward f s) n) :
    Covered (Inbound f s') (inward f s') (n + (s.sends b).count f) := by
  subst hhost
  have hthread : Apart s.host.transport s'.host.transport →
      ∀ v, Inbound f s' (.thread v) → Inbound f s (.thread v) := by
    intro hapart v hv
    rwa [Inbound, Answering, hapart.pc, hapart.settled] at hv
  cases flows_of_step hst with
  | @other a _ hs' hstream =>
    have hstays : ∀ g, Inbound f s' (.stream g) → Inbound f s (.stream g) := by
      intro g hg
      rwa [Inbound, hstream] at hg
    rcases answering_step f hs.sole hs.filed hs' with ⟨v, hsends, hqueue, hanswering⟩ |
      ⟨hanswering, hqueue⟩
    · refine h.enter (t := .thread v) ?_ ?_
      · rintro (w | w | w) hne hin
        · exact hpost w hin
        · exact (hanswering w hin).resolve_left fun he => hne (by rw [he])
        · exact hstays w hin
      · rw [hqueue] at hinward
        simp only [State.sends, hsends, List.count_singleton_self]
        omega
    · refine h.mono ?_ ?_
      · rintro (w | w | w) hin
        · exact hpost w hin
        · exact hanswering w hin
        · exact hstays w hin
      · simp only [State.sends]
        omega
  | @take g frame _ hqueue hstream hapart =>
    rw [hqueue] at hinward
    by_cases hframe : frame = f
    · subst frame
      refine h.enter (t := .stream g) ?_ ?_
      · rintro (w | w | w) hne hin
        · exact hpost w hin
        · exact hthread hapart w hin
        · rw [Inbound, hstream, Function.update_of_ne fun he => hne (by rw [he])] at hin
          exact hin
      · rw [List.count_cons_self] at hinward
        omega
    · rw [List.count_cons_of_ne hframe] at hinward
      refine h.mono ?_ (by omega)
      rintro (w | w | w) hin
      · exact hpost w hin
      · exact hthread hapart w hin
      · rw [Inbound, hstream] at hin
        rcases update_cases hin with ⟨-, he⟩ | ⟨-, hin⟩
        · cases he
          exact absurd rfl hframe
        · exact hin
  | moves _ hstream hnot hqueue hapart =>
    rw [hqueue] at hinward
    refine h.mono ?_ (by omega)
    rintro (w | w | w) hin
    · exact hpost w hin
    · exact hthread hapart w hin
    · rw [Inbound, hstream] at hin
      rcases update_cases hin with ⟨-, he⟩ | ⟨-, hin⟩
      · exact absurd he (hnot f)
      · exact hin

theorem unread_reads (halone : Alone d) (hreads : Reads c d c') (bytes x : Bytes) :
    (unreadFrames c' bytes).count x + c'.delivered.count x ≤
      (unreadFrames c bytes).count x + c.delivered.count x := by
  cases hreads with
  | ask _ _ | chunk _ _ _ => exact halone.elim
  | @event se events buf _ hunread hunread' hdelivered =>
    have hsplit : delivered (se :: events) = delivered [se] ++ delivered events :=
      ClientTransport.delivered_append [se] events
    simp only [unreadFrames, hunread, hunread', hdelivered, hsplit, List.count_append]
    omega
  | away hnone hdelivered =>
    simp only [unreadFrames, hnone, hdelivered, List.count_nil]
    omega
  | rest hstill => simp only [unreadFrames, hstill.unread, hstill.delivered, le_refl]

/-- What is written on the stream that the client reads it will find. -/
theorem unread_carry (hclean : Clean s) {g : ℕ} (hopen : ¬Over (s.host.stream g))
    (l : Streams codec) (text x : Bytes) :
    (unreadFrames s.client { s with
        host := l, stream := s.carry g text : State codec }.bytes).count x ≤
      (unreadFrames s.client s.bytes).count x + (delivered (drainSse text).1).count x := by
  cases hstream : s.stream with
  | none => simp [State.bytes, State.carry, hstream]
  | some k =>
    obtain ⟨w, old⟩ := k
    by_cases hw : w = g
    · subst w
      simp only [State.bytes, State.carry, hstream, Option.map_some, if_true, Option.getD_some]
      cases hunread : s.client.get.unread with
      | none => simp [unreadFrames, hunread]
      | some r =>
        obtain ⟨events, buf⟩ := r
        have hclear := (hclean g old buf hstream (by rw [hunread]; rfl)).resolve_left hopen
        simp only [unreadFrames, hunread, drain_more hclear, ClientTransport.delivered_append,
          List.count_append]
        omega
    · simp [State.bytes, State.carry, hstream, hw]

/-- What the provider has written it no longer has in hand. -/
theorem wrote_stream {l : Streams codec} {b : Streams.Action codec} {g : ℕ} {ok : Bool}
    (hst : Streams.Step codec s.host b l) (hb : b = .write g ok ∨ b = .beat g ok) :
    l.transport = s.host.transport ∧
      ∀ f v, l.stream v = .holding f → v ≠ g ∧ s.host.stream v = .holding f := by
  have hupdate : ∀ st : Stream, (∀ f, st ≠ .holding f) → ∀ f v,
      Function.update s.host.stream g st v = .holding f →
        v ≠ g ∧ s.host.stream v = .holding f :=
    fun st hnot f v hv => (update_cases hv).resolve_left fun he => hnot f he.2
  rcases hb with rfl | rfl
  · cases hst with
    | written _ | unwritten _ => exact ⟨rfl, hupdate _ nofun⟩
  · cases hst with
    | beat _ =>
      refine ⟨rfl, hupdate _ fun f he => ?_⟩
      split at he <;> cases he

theorem holding_posted (hst : ClientTransport.Step settings c d c')
    (hd : d = .postFail t ∨ ∃ res, d = .postResponse t res ∧ ¬Carries f res) {v : ℕ}
    (hv : Holding f c' v) : Holding f c v := by
  rcases hd with rfl | ⟨res, rfl, hres⟩
  · cases turns_of_step hst with
    | fail _ hpc _ _ => exact (holding_update hpc hv).elim (fun he => by simp at he) And.right
    | aside hpc _ haside _ _ =>
      refine (holding_update hpc hv).elim (fun he => ?_) And.right
      rcases he.2 with ⟨res, -, rfl | rfl⟩ | rfl <;> exact haside.elim
    | apart hpc _ _ => rwa [Holding, hpc] at hv
  · cases turns_of_step hst with
    | response _ hpc hcase _ _ =>
      refine (holding_update hpc hv).elim (fun he => ?_) And.right
      rcases he.2 with ⟨res', hc, he | he⟩ | he
      · rcases hcase with rfl | rfl <;> cases he
        exact absurd hc hres
      · rcases hcase with rfl | rfl <;> cases he
        exact absurd hc hres
      · rcases hcase with rfl | rfl <;> cases he
    | aside hpc _ haside _ _ =>
      refine (holding_update hpc hv).elim (fun he => ?_) And.right
      rcases he.2 with ⟨res, -, rfl | rfl⟩ | rfl <;> exact haside.elim
    | apart hpc _ _ => rwa [Holding, hpc] at hv

theorem holding_response {res : Response}
    (hst : ClientTransport.Step settings c (.postResponse t res) c') {v : ℕ}
    (hv : Holding f c' v) : v = t ∨ Holding f c v := by
  obtain ⟨pc, hpc⟩ : ∃ pc, c'.pc = Function.update c.pc t pc := by
    cases hst
    exact ⟨_, rfl⟩
  exact (holding_update hpc hv).imp And.left And.right

/-- A step of the client alone. -/
theorem inbound_client (hd : Dressed sid s.client) (halone : Alone d)
    (hst : ClientTransport.Step settings s.client d c') {n : ℕ}
    (h : Covered (Inbound f s) (inward f s) n) :
    Covered (Inbound f { s with client := c' }) (inward f { s with client := c' }) n := by
  have hresponse : ∀ t res, d ≠ .postResponse t res := by
    rintro t res rfl
    exact halone
  rcases holding_step hd hst hresponse with
    ⟨t, frame, hhanding, hdelivered, hunread, hholding⟩ | ⟨hholding, hreads⟩
  · have hinward : inward f { s with client := c' } = inward f s + [frame].count f.toList := by
      simp only [inward, unreadFrames, State.bytes, hunread, hdelivered, List.count_append]
      omega
    by_cases hframe : frame = f.toList
    · subst frame
      have hin : Inbound f s (.post t) := .inr hhanding
      refine h.leave hin ?_ (by rw [hinward, List.count_singleton_self])
      rintro (v | v | v) hv
      · obtain ⟨hne, hold⟩ := hholding f v hv
        exact ⟨by simpa using hne, hold⟩
      · exact ⟨by simp, hv⟩
      · exact ⟨by simp, hv⟩
    · refine h.mono ?_ ?_
      · rintro (v | v | v) hv
        · exact (hholding f v hv).2
        · exact hv
        · exact hv
      · rw [hinward, List.count_eq_zero.mpr (by simpa using Ne.symm hframe)]
        exact le_rfl
  · refine h.mono ?_ ?_
    · rintro (v | v | v) hv
      · exact hholding f v hv
      · exact hv
      · exact hv
    · have hread := unread_reads halone hreads s.bytes f.toList
      simp only [inward, State.bytes] at hread ⊢
      omega

/-- A step that concerns neither the threads of the client nor its stream. -/
theorem inbound_beside (hs : Hosted s.host) {b : Streams.Action codec} {l : Streams codec} {n : ℕ}
    (hst : Streams.Step codec s.host b l) (hhost : s'.host = l) (hclient : s'.client = s.client)
    (hbytes : s'.bytes = s.bytes) (h : Covered (Inbound f s) (inward f s) n) :
    Covered (Inbound f s') (inward f s') (n + (s.sends b).count f) := by
  refine inbound_host hs hst hhost ?_ ?_ h
  · intro v hv
    rwa [Inbound, hclient] at hv
  · simp only [inward, hclient, hbytes]
    omega

/-- The request of a POST has ended with no step of the host, and the POST brings no frame. -/
theorem inbound_ended {n : ℕ} (hst : ClientTransport.Step settings s.client d c')
    (hd : d = .postFail t ∨ ∃ res, d = .postResponse t res ∧ ¬Carries f res)
    (hc : s'.client = c') (hh : s'.host = s.host) (hbytes : s'.bytes = s.bytes)
    (h : Covered (Inbound f s) (inward f s) n) : Covered (Inbound f s') (inward f s') n := by
  obtain ⟨hunread, hdelivered⟩ := unread_posted hst (hd.imp_right fun ⟨res, he, _⟩ => ⟨res, he⟩)
  subst hc
  refine h.mono ?_ (by
    simp only [inward, unreadFrames, hh, hbytes, hunread, hdelivered, le_refl])
  rintro (v | v | v) hv
  · exact holding_posted hst hd hv
  · rwa [Inbound, hh] at hv
  · rwa [Inbound, hh] at hv

/-- The provider has written, whole or torn, what it had in hand, or a heartbeat. -/
theorem inbound_wrote (hclean : Clean s) {g : ℕ} {ok : Bool} {b : Streams.Action codec}
    {l : Streams codec} {text : Bytes} {n : ℕ} (hst : Streams.Step codec s.host b l)
    (hb : b = .write g ok ∨ b = .beat g ok) (hopen : ¬Over (s.host.stream g))
    (hread : (delivered (drainSse text).1).count f.toList = 0 ∨
      (s.host.stream g = .holding f ∧ (delivered (drainSse text).1).count f.toList ≤ 1))
    (h : Covered (Inbound f s) (inward f s) n) :
    Covered (Inbound f { s with host := l, stream := s.carry g text })
      (inward f { s with host := l, stream := s.carry g text }) n := by
  have hcarry := unread_carry hclean hopen l text f.toList
  obtain ⟨hqueue, hstream⟩ := wrote_stream hst hb
  have hin : ∀ p, Inbound f { s with host := l, stream := s.carry g text } p →
      p ≠ .stream g ∧ Inbound f s p := by
    rintro (v | v | v) hv
    · exact ⟨by simp, hv⟩
    · rw [Inbound, hqueue] at hv
      exact ⟨by simp, hv⟩
    · obtain ⟨hne, hold⟩ := hstream f v hv
      exact ⟨by simpa using hne, hold⟩
  rcases hread with hzero | ⟨hholding, hone⟩
  · refine h.mono (fun p hp => (hin p hp).2) ?_
    simp only [inward, hqueue] at hcarry ⊢
    omega
  · have hhas : Inbound f s (.stream g) := hholding
    refine h.leave hhas hin ?_
    simp only [inward, hqueue] at hcarry ⊢
    omega

theorem inbound_step (hst : Step settings sid s a s') (hs : Sound sid s)
    (h : Covered (Inbound f s) (inward f s) (s.sent.count f)) :
    Covered (Inbound f s') (inward f s') (s'.sent.count f) := by
  cases hst with
  | client halone hst => exact inbound_client hs.dressed halone hst h
  | host _ hst =>
    simp only [List.count_append]
    exact inbound_beside hs.hosted hst rfl rfl rfl h
  | depart _ _ _ => exact h
  | arrive _ hst =>
    exact inbound_beside hs.hosted hst rfl rfl rfl h
  | @respond t u res l c _ hpc hhost hclient =>
    obtain ⟨hunread, hdelivered⟩ := unread_posted hclient (.inr ⟨_, rfl⟩)
    cases flows_of_step hhost with
    | moves hne _ _ _ _ => exact absurd rfl (hne _)
    | other hs' hstream =>
      obtain ⟨hanswering, hqueue⟩ :=
        (answering_step f hs.hosted.sole hs.hosted.filed hs').resolve_left fun ⟨v, hsends, _⟩ => by
          cases hsends
      have hthread : ∀ v, Answering f l.transport v → v ≠ u ∧ Answering f s.host.transport v := by
        refine fun v hv => ⟨?_, hanswering v hv⟩
        rintro rfl
        exact not_answering hs' hv
      have hless : inward f { s with
          client := c, host := l, serves := Function.update s.serves u none } ≤ inward f s := by
        simp only [inward, unreadFrames, State.bytes, hunread, hdelivered]
        simp only [sends, List.count_nil] at hqueue
        omega
      by_cases hc : Carries f res
      · have hin : Inbound f s (.thread u) := .inr ⟨res, hpc, hc⟩
        have hpass : ∀ p, Inbound f { s with
            client := c, host := l, serves := Function.update s.serves u none } p →
              p = .post t ∨ (p ≠ .thread u ∧ Inbound f s p) := by
          rintro (v | v | v) hv
          · exact (holding_response hclient hv).imp (congrArg Place.post) fun hv => ⟨by simp, hv⟩
          · obtain ⟨hne, hold⟩ := hthread v hv
            exact .inr ⟨by simpa using hne, hold⟩
          · rw [Inbound, hstream] at hv
            exact .inr ⟨by simp, hv⟩
        exact h.pass hin hpass (Nat.add_le_add_right hless _)
      · refine h.mono ?_ (Nat.add_le_add_right hless _)
        rintro (v | v | v) hv
        · exact holding_posted hclient (.inr ⟨_, rfl, fun hc' => hc
            ⟨hc'.success, hc'.status, hc'.content⟩⟩) hv
        · exact (hthread v hv).2
        · rwa [Inbound, hstream] at hv
  | @refuse t frame res before after c _ hres hst =>
    refine inbound_ended hst (.inr ⟨res, rfl, fun hc => ?_⟩) rfl rfl rfl h
    rw [hc.success] at hres
    cases hres
  | fail hst => exact inbound_ended hst (.inl rfl) rfl rfl rfl h
  | @request c hst =>
    cases hst with
    | getRead _ _ _ =>
      refine h.mono ?_ ?_
      · rintro (v | v | v) hv <;> exact hv
      · simp only [inward, unreadFrames, State.bytes, ClientTransport.Get.unread]
        have hnone : (drainSse ([] ++ [])).1 = [] := by
          rw [drainSse]
          exact congrArg Prod.fst Incremental.Reader.drain_nil
        simp only [Option.map_none, Option.getD_none, hnone]
        simp only [delivered, List.map_nil, List.filter_nil, List.append_nil, List.count_nil]
        omega
  | connect _ hstream hst =>
    refine inbound_beside hs.hosted hst rfl rfl ?_ h
    simp [State.bytes, hstream]
  | @read g chunk rest c hstream hst =>
    cases hst with
    | @getChunk id buf _ hget _ =>
      refine h.mono ?_ ?_
      · rintro (v | v | v) hv <;> exact hv
      · have happend := Incremental.Reader.drain_append (R := sseReader) (buf ++ chunk) rest
        simp only [inward, unreadFrames, State.bytes, hget, hstream, ClientTransport.Get.unread,
          Option.map_some, Option.getD_some, drainSse, ← List.append_assoc, happend, delivered,
          List.map_append, List.filter_append, List.count_append, List.map_nil, List.filter_nil,
          List.count_nil]
        omega
  | @hangUp d c hends hst =>
    have hleft : c.get.unread = none ∧ c.pc = s.client.pc ∧
        c.delivered = s.client.delivered := by
      cases hst with
      | getAbort _ _ => exact ⟨rfl, rfl, rfl⟩
      | getResponse _ => exact ⟨ClientTransport.unread_afterGet .., rfl, rfl⟩
      | _ => exact hends.elim
    obtain ⟨hnone, hpc, hdelivered⟩ := hleft
    refine h.mono ?_ ?_
    · rintro (v | v | v) hv
      · rwa [Inbound, Holding, hpc] at hv
      · exact hv
      · exact hv
    · simp only [inward, unreadFrames, hnone, hdelivered, List.count_nil]
      omega
  | @write g ok frame text l hholding hw hst =>
    have hread := (drain_event (hs.hosted.holding g frame hholding) hw).1
    refine inbound_wrote hs.clean hst (.inl rfl) (by simp [hholding, Over]) ?_ h
    by_cases hframe : frame = f
    · subst frame
      refine .inr ⟨hholding, ?_⟩
      rcases hread with hnone | hall
      · simp [hnone]
      · simp [hall]
    · left
      rcases hread with hnone | hall
      · simp [hnone]
      · rw [hall]
        exact count_toList hframe
  | @beat g ok text l hw hst =>
    have hbeating : s.host.stream g = .beating := by
      cases hst
      assumption
    refine inbound_wrote hs.clean hst (.inr rfl) (by simp [hbeating, Over]) (.inl ?_) h
    rw [(drain_heartbeat hw).1]
    rfl

/-- What comes out of the link on one side went into it on the other. -/
structure Conveyed (sid : String) (s : State codec) : Prop where
  sound : Sound sid s
  served : ClientTransport.Served s.client
  outbound : ∀ f, Covered (Outbound f s) (outward f s) (s.client.processed.count f)
  inbound : ∀ f, Covered (Inbound f s) (inward f s) (s.sent.count f)

theorem client_step (hst : Step settings sid s a s') :
    s'.client = s.client ∨ ∃ d, ClientTransport.Step settings s.client d s'.client := by
  cases hst with
  | client _ hst | respond _ _ _ hst | refuse _ _ hst | fail hst | request hst | read _ hst
  | hangUp _ hst => exact .inr ⟨_, hst⟩
  | _ => exact .inl rfl

theorem linked_start : Linked (start settings : State codec) := by
  refine ⟨?_, ?_, ?_, .nil, ?_, ?_⟩ <;> simp [start]

theorem dressed_start : Dressed sid (ClientTransport.fresh settings) := by
  constructor <;> simp [ClientTransport.fresh]

theorem hosted_start : Hosted (unstreamed : Streams codec) := by
  have hfresh : (SessionTransport.machine codec).Reachable Free SessionTransport.fresh :=
    .initial rfl
  refine ⟨?_, filed_reachable hfresh, ?_, ?_⟩
  · constructor <;> simp [unstreamed, SessionTransport.fresh, SessionTransport.PC.Holds]
  · simp [unstreamed, SessionTransport.fresh]
  · simp [unstreamed]

theorem conveyed_start : Conveyed sid (start settings : State codec) := by
  refine ⟨⟨linked_start, dressed_start, hosted_start, ?_⟩, ?_, ?_, ?_⟩
  · simp [Clean, start]
  · exact ⟨by simp [start, ClientTransport.fresh], rfl⟩
  · intro f
    refine .none ?_ (Nat.zero_le _)
    rintro (v | v | v)
    · simp [Outbound, Posting, start, ClientTransport.fresh]
    · simp [Outbound, start, unstreamed, SessionTransport.fresh]
    · exact id
  · intro f
    refine .none ?_ (Nat.zero_le _)
    rintro (v | v | v)
    · simp [Inbound, Holding, start, ClientTransport.fresh]
    · simp [Inbound, Answering, start, unstreamed, SessionTransport.fresh,
        SessionTransport.PC.Holds]
    · simp [Inbound, start, unstreamed]

theorem conveyed_step (hcodec : Compact codec) (hst : Step settings sid s a s')
    (hs : Conveyed sid s) : Conveyed sid s' := by
  refine ⟨sound_step hcodec hst hs.sound, ?_, ?_, ?_⟩
  · rcases client_step hst with he | ⟨d, hst⟩
    · rw [he]
      exact hs.served
    · exact ClientTransport.served_step hst hs.served
  · exact fun f => outbound_step hst hs.sound.linked (hs.outbound f)
  · exact fun f => inbound_step hst hs.sound (hs.inbound f)

/-- Over connections that break off anywhere, with requests that come after the client has given
them up and writes that are torn, neither Session is handed a frame that the other has not sent,
or one more often than it was sent. -/
theorem link_conveys (codec : Codec) (hcodec : Compact codec) (settings : ClientTransport.Settings)
    (sid : String) (s : State codec) (h : (link settings sid).Reachable Free s) :
    s.taken.Subperm s.client.accepted ∧ s.client.delivered.Subperm (s.sent.map String.toList) := by
  have hs : Conveyed sid s := by
    refine h.invariant (P := Conveyed sid) ?_ fun _ _ _ _ hs _ hst => conveyed_step hcodec hst hs
    rintro s rfl
    exact conveyed_start
  constructor
  · rw [List.subperm_ext_iff]
    intro f _
    have hle := (hs.outbound f).le
    rw [← hs.served.order, List.append_assoc, List.count_append]
    simp only [outward] at hle
    omega
  · rw [List.subperm_ext_iff]
    intro x _
    obtain ⟨f, rfl⟩ : ∃ f : String, f.toList = x := ⟨String.ofList x, String.toList_ofList⟩
    have hle := (hs.inbound f).le
    rw [List.count_map_of_injective _ _ (fun _ _ he => String.toList_inj.mp he)]
    simp only [inward] at hle
    omega

section Ping

variable {m : Outgoing codec none} {g : ℕ}

theorem link_step (h : (link settings sid).Reachable Free s) (hst : Step settings sid s a s') :
    (link settings sid).Reachable Free s' := h.step trivial hst

theorem client_reachable (h : (link settings sid).Reachable Free s)
    (hst : ClientTransport.Step settings s.client d c) (ha : Alone d) :
    (link settings sid).Reachable Free { s with client := c } := link_step h (.client ha hst)

theorem session_reachable (h : (link settings sid).Reachable Free s)
    (hst : SessionTransport.Step codec s.host.transport b h') (hb : Unaided s.serves (.other b))
    (ht : b ≠ .takeGet) : (link settings sid).Reachable Free { s with
      host := { s.host with
        transport := h'
        accepted := s.host.accepted ++ s.host.transport.accepts b }
      taken := s.taken ++ s.hands (.other b)
      sent := s.sent ++ s.sends (.other b) } :=
  link_step h (.host hb (.other ht hst))

/-- The Session sends a frame that is no answer. -/
theorem emitted_reachable (h : (link settings sid).Reachable Free s)
    (hidle : s.host.transport.pc u = .idle) (hopen : s.host.transport.closed = false)
    (hqueues : queues codec m.frame = true) :
    (link settings sid).Reachable Free { s with
      host := { s.host with
        transport := { s.host.transport with
          getQueue := s.host.transport.getQueue ++ [m.frame] }
        accepted := s.host.accepted ++ [m.frame] }
      sent := s.sent ++ [m.frame] } := by
  have hemit := SessionTransport.Step.emit (m := m) hidle
  rw [hopen] at hemit
  have h₁ := session_reachable h hemit trivial nofun
  have hpush := SessionTransport.Step.push
    (s := SessionTransport.State.setPC s.host.transport u (.emitting m)) (t := u) (m := m)
    (Function.update_self ..)
  have h₂ := session_reachable h₁ hpush trivial nofun
  have hback : Function.update (Function.update s.host.transport.pc u (.emitting m)) u .idle =
      s.host.transport.pc := update_back hidle
  rw [send_of_queues hqueues] at h₂
  simpa [SessionTransport.State.setPC, State.accepts, State.hands, State.sends, sends,
    SessionTransport.State.hands, hback, hqueues] using h₂

/-- The client opens a GET stream, and its provider is called. -/
theorem streaming_reachable (h : (link settings sid).Reachable Free s) {id : String}
    (hget : s.client.get = .looping) (hclosed : s.client.closed = false)
    (hid : s.client.sessionId = some id) (hunopened : s.host.stream g = .unopened)
    (hopen : s.host.transport.closed = false) :
    ∃ s' : State codec, (link settings sid).Reachable Free s' ∧
      s'.client.get = .requesting id [] ∧ s'.client.closed = false ∧ s'.stream = some (g, []) ∧
      s'.host.stream g = .waiting ∧ s'.host.transport.getQueue = s.host.transport.getQueue ∧
      s'.host.written = s.host.written ∧ s'.taken = s.taken ∧
      s'.client.delivered = s.client.delivered := by
  have h₁ := client_reachable h (.getLoop hget) trivial
  have h₂ := link_step h₁ (.request (.getRead (if_neg (by simp [hclosed])) hid hclosed))
  have h₃ := link_step h₂ (.connect (g := g) rfl rfl (.enter hunopened .enterGet))
  have h₄ := link_step h₃ (.host (b := .call g true) trivial (.call (Function.update_self ..)))
  exact ⟨_, h₄, rfl, hclosed, rfl, by simp [Streams.setStream, hopen], rfl, rfl,
    List.append_nil _, rfl⟩

/-- The one frame in the queue comes to the client. -/
theorem streamed_reachable (h : (link settings sid).Reachable Free s) {id : String}
    (hget : s.client.get = .requesting id []) (hclosed : s.client.closed = false)
    (hstream : s.stream = some (g, [])) (hwaiting : s.host.stream g = .waiting)
    (hqueue : s.host.transport.getQueue = [f]) (hline : OneLine f) :
    ∃ s' : State codec, (link settings sid).Reachable Free s' ∧
      s'.host.written = s.host.written ++ [(g, f)] ∧ s'.taken = s.taken ∧
      s'.client.delivered = s.client.delivered ++ [f.toList] := by
  have h₁ := link_step h (.host (b := .take g) trivial (.take hwaiting hqueue (.takeGet hqueue)))
  have h₂ := link_step h₁ (.write (g := g) (Function.update_self ..)
    ⟨List.prefix_refl _, fun _ => rfl⟩ (.written (Function.update_self ..)))
  have hchunk : ClientTransport.Step settings s.client (.getChunk (event f)) { s.client with
      get := .receiving id [{ data := f.toList }] [] } := by
    have hst := @ClientTransport.Step.getChunk settings _ _ _ (event f) hget hclosed
    rwa [List.nil_append, drain_whole hline] at hst
  have hcarried : s.carry g (event f) = some (g, event f ++ []) := by
    simp [State.carry, hstream]
  have h₃ := link_step h₂ (.read hcarried hchunk)
  have h₄ := client_reachable h₃ (.getEvent rfl) trivial
  refine ⟨_, h₄, rfl, List.append_nil _, ?_⟩
  exact if_neg hline.ne_nil

/-- The text codec on the frames of a ping and a notification. -/
def linkCodec : Codec where
  parse text := if text = noteText "a" then some (noteJson "a") else pingCodec.parse text
  dump
    | .object [(k₁, .string v), (k₂, .string m)] =>
      if k₁ = "jsonrpc" ∧ v = "2.0" ∧ k₂ = "method" ∧ m = "a" then some (noteText "a") else none
    | j => pingCodec.dump j

theorem linkCodec_compact : Compact linkCodec := by
  intro j text h
  simp only [linkCodec] at h
  split at h
  · split at h
    · cases h
      exact ⟨by decide, by decide, by decide⟩
    · cases h
  · simp only [pingCodec] at h
    split at h
    · split at h
      · cases h
        exact ⟨by decide, by decide, by decide⟩
      · cases h
    · cases h

theorem answers_pong :
    SessionTransport.answers SessionTransport.pong.msg = some SessionTransport.ping.id := rfl

def linkPong : Outgoing linkCodec (some SessionTransport.ping.id) where
  msg := SessionTransport.pong.msg
  frame := pongText
  dumped := rfl
  answers := answers_pong

def linkNote : Outgoing linkCodec none where
  msg := (note "a").msg
  frame := noteText "a"
  dumped := rfl
  answers := rfl

/-- Both sides have been started. -/
def opened : State linkCodec where
  client := ClientTransport.ready {}
  host := { (unstreamed : Streams linkCodec) with transport := wired }
  transit := []
  serves _ := none
  stream := none
  taken := []
  sent := []

theorem opened_reachable : (link {} "7").Reachable Free opened := by
  have h₀ : (link {} "7").Reachable Free (start {} : State linkCodec) := .initial rfl
  have h₁ := client_reachable h₀ (.startClaim rfl) trivial
  have h₂ := client_reachable h₁ (.startOpen rfl) trivial
  have h₃ := client_reachable h₂ (.startRearm rfl) trivial
  have h₄ := client_reachable h₃ (.startWorker rfl) trivial
  have h₅ := client_reachable h₄ (.startGet rfl) trivial
  have h₆ := session_reachable h₅ .onMessage trivial nofun
  exact session_reachable h₆ .start trivial nofun

/-- The host has registered the ping and is about to hand it to its Session, and POST 1 waits for
the response. -/
def asked (c : ClientTransport.State) : State linkCodec where
  client := c
  host := { (unstreamed : Streams linkCodec) with
    transport := SessionTransport.State.setPC
      (SessionTransport.State.register wired (keyOf (pingWith (.unsigned 1)))) 0
      (.handing { raw := pingText, reply := some 0 }) }
  transit := []
  serves := Function.update (fun _ => none) 0 (some 1)
  stream := none
  taken := []
  sent := []

theorem parse_pingText : linkCodec.parse pingText = some (pingWith (.unsigned 1)) := rfl

theorem asked_reachable : ∃ c : ClientTransport.State, c.pc 1 = .sending pingText none ∧
    c.get = .looping ∧ c.closed = false ∧ c.delivered = [] ∧
    (link {} "7").Reachable Free (asked c) := by
  have h₁ := client_reachable opened_reachable (@ClientTransport.Step.send _ _ 0 pingText rfl)
    trivial
  have h₂ := client_reachable h₁ (.sendCheck (t := 0) rfl) trivial
  have h₃ := client_reachable h₂ (.sendPush (t := 0) rfl) trivial
  have h₄ := client_reachable h₃ (.workerTake rfl rfl) trivial
  have h₅ := client_reachable h₄ (.workerSpawn (t := 1) rfl rfl) trivial
  have h₆ := client_reachable h₅ (.postRead (t := 1) rfl) trivial
  have h₇ := link_step h₆ (.depart (t := 1) rfl nofun nofun)
  have hpost : Streams.Step linkCodec opened.host (.other (.post 0 pingText)) _ :=
    .other nofun (.post rfl)
  rw [SessionTransport.deliver_request parse_pingText parse_ping] at hpost
  exact ⟨_, rfl, rfl, rfl, rfl, link_step h₇ (@Step.arrive _ _ _ _ _ _ _ [] _ _ rfl hpost)⟩

/-- The response of POST 1 has brought the pong, and the id of the session. -/
theorem ponged_reachable : ∃ s : State linkCodec, (link {} "7").Reachable Free s ∧
    s.client.get = .looping ∧ s.client.closed = false ∧ s.client.sessionId = some "7" ∧
    s.host.stream 0 = .unopened ∧ s.host.transport.closed = false ∧
    s.host.transport.pc 0 = .idle ∧ s.host.transport.getQueue = [] ∧ s.host.written = [] ∧
    s.taken = [pingText] ∧ s.client.delivered = [pongText.toList] := by
  obtain ⟨c, hpc, hget, hclosed, hnone, h₀⟩ := asked_reachable
  have hhand := @SessionTransport.Step.handOver linkCodec (asked c).host.transport 0 _ rfl
  rw [handOver_request parse_pingText parse_ping rfl] at hhand
  have h₁ := session_reachable h₀ hhand trivial nofun
  have h₂ := session_reachable h₁ (.answer (t := 1) (p := 0) (m := linkPong) rfl rfl) trivial nofun
  have h₃ := session_reachable h₂ (.route (t := 1) rfl) trivial nofun
  have h₄ := session_reachable h₃ (.reply (t := 0) (p := 0) rfl (.head _)) trivial nofun
  have h₅ := link_step h₄ (.respond (t := 1) (u := 0) rfl rfl (.other nofun (.respond rfl))
    (.postResponse hpc))
  have h₆ := client_reachable h₅ (.postCapture (t := 1) rfl rfl) trivial
  have h₇ := client_reachable h₆ (.postArm (t := 1) rfl rfl) trivial
  have h₈ := client_reachable h₇ (.postHand (t := 1) rfl) trivial
  have hpong : c.delivered ++ [pongText.toList] = [pongText.toList] := by
    rw [hnone, List.nil_append]
  exact ⟨_, h₈, hget, hclosed, rfl, rfl, rfl, rfl, rfl, rfl, rfl, hpong⟩

/-- A pong comes as the body of a response, and a notification over a GET stream. -/
theorem pong_and_note_conveyed : ∃ s : State linkCodec, s.taken = [pingText] ∧
    s.host.written = [(0, noteText "a")] ∧
    s.client.delivered = [pongText.toList, (noteText "a").toList] ∧
    s.taken.Subperm s.client.accepted ∧
    s.client.delivered.Subperm (s.sent.map String.toList) := by
  obtain ⟨s₀, h₀, hget, hclosed, hid, hunopened, hopen, hidle, hempty, hwritten, htaken,
    hdelivered⟩ := ponged_reachable
  have h₁ := emitted_reachable (m := linkNote) h₀ hidle hopen rfl
  obtain ⟨s₂, h₂, hget₂, hclosed₂, hstream, hwaiting, hqueue, hwritten₂, htaken₂, hdelivered₂⟩ :=
    streaming_reachable (g := 0) h₁ hget hclosed hid hunopened hopen
  have hqueued : s₂.host.transport.getQueue = [noteText "a"] := by
    rw [hqueue]
    exact congrArg (· ++ [noteText "a"]) hempty
  obtain ⟨s, h₃, hwritten₃, htaken₃, hdelivered₃⟩ := streamed_reachable h₂ hget₂ hclosed₂ hstream
    hwaiting hqueued (linkCodec_compact _ _ linkNote.dumped)
  refine ⟨s, htaken₃.trans (htaken₂.trans htaken), ?_, ?_,
    link_conveys linkCodec linkCodec_compact {} "7" s h₃⟩
  · rw [hwritten₃, hwritten₂, hwritten]
    rfl
  · rw [hdelivered₃, hdelivered₂, hdelivered]
    rfl

end Ping

end Mcp.Http.Link
