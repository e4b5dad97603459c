import Mcp.Http.Link
import Mcp.Http.Resumption

/-! What a step of either side of the link does to the threads that carry POSTs, and who waits for
whom. -/
namespace Mcp.Http.Link

open Transition SessionTransport

/-- Carries no POST, and nothing of a response. -/
def Aside : ClientTransport.PC → Prop
  | .entered _ | .sending _ _ | .capturing _ | .judging _ | .receiving _ | .handing _ => False
  | _ => True

/-- What the GET worker has read, and the frames that were handed on, stay as they are. -/
structure Still (c c' : ClientTransport.State) : Prop where
  unread : c'.get.unread = c.get.unread
  delivered : c'.delivered = c.delivered

/-- What the GET worker does. -/
inductive Reads (c : ClientTransport.State) :
    ClientTransport.Action → ClientTransport.State → Prop where
  | ask {c'} : c'.get.unread = some ([], []) → c'.delivered = c.delivered → Reads c .getRead c'
  | chunk {buf chunk c'} : c.get.unread = some ([], buf) →
      c'.get.unread = some (drainSse (buf ++ chunk)) → c'.delivered = c.delivered →
      Reads c (.getChunk chunk) c'
  | event {se events buf c'} : c.get.unread = some (se :: events, buf) →
      c'.get.unread = some (events, buf) → c'.delivered = c.delivered ++ delivered [se] →
      Reads c .getEvent c'
  | away {a c'} : c'.get.unread = none → c'.delivered = c.delivered → Reads c a c'
  | rest {a c'} : Still c c' → Reads c a c'

/-- What a step of the client does to the threads that carry POSTs. -/
inductive Turns (c : ClientTransport.State) :
    ClientTransport.Action → ClientTransport.State → Prop where
  | spawn {t frame c'} : c.pc t = .idle → c'.pc = Function.update c.pc t (.entered frame) →
      c'.processed = c.processed ++ [frame] → Still c c' → Turns c (.workerSpawn t) c'
  | read {t frame id c'} : c.pc t = .entered frame →
      c'.pc = Function.update c.pc t (.sending frame id) → c'.processed = c.processed →
      Still c c' → Turns c (.postRead t) c'
  | fail {t frame id c'} : c.pc t = .sending frame id →
      c'.pc = Function.update c.pc t .leaving → c'.processed = c.processed → Still c c' →
      Turns c (.postFail t) c'
  | response {t frame id res pc c'} : c.pc t = .sending frame id →
      c'.pc = Function.update c.pc t pc → (pc = .capturing res ∨ pc = .judging res) →
      c'.processed = c.processed → Still c c' → Turns c (.postResponse t res) c'
  | capture {t res c'} : c.pc t = .capturing res →
      c'.pc = Function.update c.pc t (.judging res) → c'.processed = c.processed → Still c c' →
      Turns c (.postCapture t) c'
  | body {t res c'} : c.pc t = .judging res → ClientTransport.isSuccess res = true →
      c'.pc = Function.update c.pc t (if res.status = 202 then .leaving else
        ClientTransport.bodyPC res) → c'.processed = c.processed → Still c c' →
      Turns c (.postArm t) c'
  | event {t se events c'} : c.pc t = .receiving (se :: events) →
      c'.pc = Function.update c.pc t (.receiving events) → c'.processed = c.processed →
      Turns c (.postEvent t) c'
  | hand {t frame c'} : c.pc t = .handing frame → c'.pc = Function.update c.pc t .leaving →
      c'.processed = c.processed → c'.get.unread = c.get.unread →
      c'.delivered = c.delivered ++ [frame] → Turns c (.postHand t) c'
  | aside {t pc a c'} : c'.pc = Function.update c.pc t pc →
      (∀ frame id, c.pc t ≠ .sending frame id) → Aside pc → c'.processed = c.processed →
      Still c c' → Turns c a c'
  | apart {a c'} : c'.pc = c.pc → c'.processed = c.processed → Reads c a c' → Turns c a c'

/-- No promise is fulfilled, and the queue of the GET stream stays as it is. -/
structure Quiet {codec : Codec} (h h' : SessionTransport.State codec) : Prop where
  settled : ∀ p f, (p, .ok f) ∈ h'.settled → (p, .ok f) ∈ h.settled
  getQueue : h'.getQueue = h.getQueue
  promises : h'.promises = h.promises

/-- What becomes of a frame that is sent. -/
inductive Files {codec : Codec} (h h' : SessionTransport.State codec) (frame : String) : Prop where
  | slot {p} : h'.settled = h.settled ++ [(p, .ok frame)] → h'.getQueue = h.getQueue →
      Files h h' frame
  | queue : h'.settled = h.settled → h'.getQueue = h.getQueue ++ [frame] → Files h h' frame
  | drop : h'.settled = h.settled → h'.getQueue = h.getQueue → Files h h' frame

/-- On behalf of a POST. -/
def OnPost {codec : Codec} : SessionTransport.PC codec → Prop
  | .handing _ | .waiting _ | .responding _ => True
  | _ => False

/-- What a step of the host does to the threads that serve POSTs, and to their promises. -/
inductive Acts {codec : Codec} (h : SessionTransport.State codec) :
    SessionTransport.Action codec → SessionTransport.State codec → Prop where
  -- the frame brings nothing that is to be answered
  | note {t raw pc h'} : h.pc t = .idle → h'.pc = Function.update h.pc t pc →
      (pc = .responding accepted ∨ pc = .handing { raw, reply := none }) → Quiet h h' →
      Acts h (.post t raw) h'
  | request {t raw h'} : h.pc t = .idle → h'.pc = Function.update h.pc t
      (.handing { raw, reply := some h.promises }) → h'.promises = h.promises + 1 →
      (∀ p f, (p, .ok f) ∈ h'.settled → (p, .ok f) ∈ h.settled) → h'.getQueue = h.getQueue →
      Acts h (.post t raw) h'
  | handOver {t f pc h'} : h.pc t = .handing f → h'.pc = Function.update h.pc t pc →
      ((∃ p, f.reply = some p ∧ pc = .waiting p) ∨ pc = .responding accepted) → Quiet h h' →
      Acts h (.handOver t) h'
  | reply {t p r h'} : h.pc t = .waiting p → (p, r) ∈ h.settled →
      h'.pc = Function.update h.pc t (.responding (response r)) → Quiet h h' →
      Acts h (.reply t) h'
  | timeOut {t p res h'} : h.pc t = .waiting p →
      h'.pc = Function.update h.pc t (.responding res) → res.status = 504 → Quiet h h' →
      Acts h (.timeOut t) h'
  | respond {t res h'} : h.pc t = .responding res → h'.pc = Function.update h.pc t .idle →
      Quiet h h' → Acts h (.respond t) h'
  | send {t frame a h'} : sends h a = [frame] → ¬OnPost (h.pc t) →
      h'.pc = Function.update h.pc t .idle → h'.promises = h.promises → Files h h' frame →
      Acts h a h'
  | take {frame frames h'} : h.getQueue = frame :: frames → h'.getQueue = frames →
      h'.pc = h.pc → h'.settled = h.settled → h'.promises = h.promises → Acts h .takeGet h'
  | aside {t pc a h'} : ¬OnPost (h.pc t) → ¬OnPost pc → h'.pc = Function.update h.pc t pc →
      Quiet h h' → Acts h a h'
  | rest {a h'} : h'.pc = h.pc → Quiet h h' → Acts h a h'

variable {codec : Codec} {settings : ClientTransport.Settings} {sid : String}
  {s s' : State codec} {a : Action codec} {c c' : ClientTransport.State}
  {d : ClientTransport.Action} {h h' : SessionTransport.State codec}
  {b : SessionTransport.Action codec} {t u : ℕ} {f : String}

section Client

theorem turns_of_step (hst : ClientTransport.Step settings c d c') : Turns c d c' := by
  cases hst with
  | workerSpawn _ hpc => exact .spawn hpc rfl rfl ⟨rfl, rfl⟩
  | postRead hpc => exact .read hpc rfl rfl ⟨rfl, rfl⟩
  | postFail hpc => exact .fail hpc rfl rfl ⟨rfl, rfl⟩
  | postResponse hpc =>
    refine .response hpc rfl ?_ rfl ⟨rfl, rfl⟩
    split
    · exact .inr rfl
    · split
      · exact .inr rfl
      · exact .inl rfl
  | postCapture hpc _ => exact .capture hpc rfl rfl ⟨rfl, rfl⟩
  | postArm hpc hres => exact .body hpc hres rfl rfl ⟨rfl, rfl⟩
  | postEvent hpc => exact .event hpc rfl rfl
  | postHand hpc => exact .hand hpc rfl rfl rfl rfl
  | send hpc =>
    split
    · exact .aside rfl (by simp [hpc]) trivial rfl ⟨rfl, rfl⟩
    · exact .apart rfl rfl (.rest ⟨rfl, rfl⟩)
  | sendCheck hpc | postDisarm hpc _ =>
    split <;> exact .aside rfl (by simp [hpc]) trivial rfl ⟨rfl, rfl⟩
  | postLeave hpc =>
    refine .aside rfl ?_ trivial rfl ⟨rfl, rfl⟩
    rcases hpc with hpc | hpc <;> simp [hpc]
  | close hpc =>
    refine .aside rfl (by simp [hpc]) ?_ rfl ⟨rfl, rfl⟩
    split <;> trivial
  | closeJoinGet hpc _ =>
    refine .aside rfl (by simp [hpc]) ?_ rfl ⟨rfl, rfl⟩
    split <;> trivial
  | sendPush hpc | postNotify hpc | postError hpc _ _ | closeRead hpc | closeDelete hpc
  | closeJoinWorker hpc _ | closeDrain hpc _ | closeFire hpc =>
    exact .aside rfl (by simp [hpc]) trivial rfl ⟨rfl, rfl⟩
  | startGet _ =>
    refine .apart rfl rfl ?_
    cases hopen : settings.openGetStream with
    | false => exact .rest ⟨rfl, rfl⟩
    | true => exact .away rfl rfl
  | getRead => exact .apart rfl rfl (.ask rfl rfl)
  | getChunk hget _ => exact .apart rfl rfl (.chunk (by rw [hget]; rfl) rfl rfl)
  | getEvent hget =>
    refine .apart rfl rfl (.event (by rw [hget]; rfl) rfl ?_)
    exact ClientTransport.delivered_noteEvent c _
  | getMore hget => exact .apart rfl rfl (.rest ⟨by rw [hget]; rfl, rfl⟩)
  | getLoop _ | getCheck _ =>
    refine .apart rfl rfl (.away ?_ rfl)
    dsimp only
    split <;> rfl
  | getResponse _ => exact .apart rfl rfl (.away (ClientTransport.unread_afterGet ..) rfl)
  | getWake | getAbort | getNotify | getReset | getSleep =>
    exact .apart rfl rfl (.away rfl rfl)
  | _ => exact .apart rfl rfl (.rest ⟨rfl, rfl⟩)

/-- The thread is about to send the frame, or is sending it. -/
def Posting (f : String) (c : ClientTransport.State) (t : ℕ) : Prop :=
  c.pc t = .entered f ∨ ∃ id, c.pc t = .sending f id

theorem posting_update {pc : ClientTransport.PC} (hpc : c'.pc = Function.update c.pc u pc)
    (hp : Posting f c' t) : (t = u ∧ (pc = .entered f ∨ ∃ id, pc = .sending f id)) ∨
      (t ≠ u ∧ Posting f c t) := by
  rcases hp with he | ⟨id, he⟩
  · rw [hpc] at he
    rcases update_cases he with ⟨rfl, rfl⟩ | ⟨hne, he⟩
    · exact .inl ⟨rfl, .inl rfl⟩
    · exact .inr ⟨hne, .inl he⟩
  · rw [hpc] at he
    rcases update_cases he with ⟨rfl, rfl⟩ | ⟨hne, he⟩
    · exact .inl ⟨rfl, .inr ⟨id, rfl⟩⟩
    · exact .inr ⟨hne, .inr ⟨id, he⟩⟩

/-- What a thread sends it goes on sending, unless the step is about its response. -/
theorem sending_step {frame : String} {id : Option String}
    (hst : ClientTransport.Step settings c d c') (ht : c.pc t = .sending frame id)
    (hfail : d ≠ .postFail t) (hresponse : ∀ res, d ≠ .postResponse t res) :
    c'.pc t = .sending frame id := by
  have hupdate : ∀ {v pc}, c'.pc = Function.update c.pc v pc → t ≠ v →
      c'.pc t = .sending frame id := by
    intro v pc hpc hv
    rwa [hpc, Function.update_of_ne hv]
  cases turns_of_step hst with
  | fail _ hpc _ _ =>
    refine hupdate hpc ?_
    rintro rfl
    exact hfail rfl
  | response _ hpc _ _ _ =>
    refine hupdate hpc ?_
    rintro rfl
    exact hresponse _ rfl
  | spawn hv hpc _ _ | read hv hpc _ _ | capture hv hpc _ _ | body hv _ hpc _ _ | event hv hpc _
  | hand hv hpc _ _ _ =>
    refine hupdate hpc ?_
    rintro rfl
    rw [ht] at hv
    cases hv
  | aside hpc hv _ _ _ =>
    refine hupdate hpc ?_
    rintro rfl
    exact hv _ _ ht
  | apart hpc _ _ => rwa [hpc]

end Client

section Host

theorem files_send (frame : String) : Files h (h.send frame) frame := by
  unfold SessionTransport.State.send
  split
  · exact .drop rfl rfl
  · split
    · split
      · exact .drop rfl rfl
      · exact .slot rfl rfl
    · exact .queue rfl rfl

theorem Files.setPC {pc : SessionTransport.PC codec} (hf : Files h h' f) :
    Files h (h'.setPC t pc) f := by
  cases hf with
  | slot hs hq => exact .slot hs hq
  | queue hs hq => exact .queue hs hq
  | drop hs hq => exact .drop hs hq

theorem acts_of_step (hst : SessionTransport.Step codec h b h') : Acts h b h' := by
  cases hst with
  | @post t raw hpc =>
    unfold SessionTransport.State.deliver
    split
    · exact .note hpc rfl (.inl rfl) ⟨fun _ _ => id, rfl, rfl⟩
    · split
      · refine .request hpc rfl rfl ?_ rfl
        intro p f hm
        simp only [SessionTransport.State.setPC, SessionTransport.State.register] at hm
        split at hm
        · simpa using hm
        · exact hm
      · exact .note hpc rfl (.inr rfl) ⟨fun _ _ => id, rfl, rfl⟩
  | @startHand f fs _ =>
    obtain ⟨owed, he⟩ := take_frame { h with starting := fs } f
    rw [he]
    exact .rest rfl ⟨fun _ _ => id, rfl, rfl⟩
  | @handOver t f hpc =>
    obtain ⟨owed, buffered, he⟩ := handOver_frame h f
    rw [he]
    refine .handOver hpc rfl ?_ ⟨fun _ _ => id, rfl, rfl⟩
    split
    · exact .inl ⟨_, ‹_›, rfl⟩
    · exact .inr rfl
  | reply hpc hm => exact .reply hpc hm rfl ⟨fun _ _ => id, rfl, rfl⟩
  | timeOut hpc => exact .timeOut hpc rfl rfl ⟨fun _ _ => id, rfl, rfl⟩
  | respond hpc => exact .respond hpc rfl ⟨fun _ _ => id, rfl, rfl⟩
  | @route t p id m hpc | @push t m hpc =>
    obtain ⟨hpromises, hsend⟩ := send_rest h m.frame
    have hupdate : ((h.send m.frame).setPC t .idle).pc = Function.update h.pc t .idle := by
      rw [← hsend]
      rfl
    exact .send (by simp [sends, hpc]) (by simp [hpc, OnPost]) hupdate hpromises
      (files_send m.frame).setPC
  | answer hpc _ | emit hpc =>
    refine .aside (by simp [hpc, OnPost]) ?_ rfl ⟨fun _ _ => id, rfl, rfl⟩
    split <;> exact id
  | takeGet hq => exact .take hq rfl rfl rfl rfl
  | drain _ =>
    refine .rest rfl ⟨?_, rfl, rfl⟩
    intro p f hm
    simpa using hm
  | _ => exact .rest rfl ⟨fun _ _ => id, rfl, rfl⟩

/-- A thread leaves a POST with its response. -/
theorem onPost_step (hst : SessionTransport.Step codec h b h') (hu : OnPost (h.pc u))
    (hb : b ≠ .respond u) : OnPost (h'.pc u) := by
  have hupdate : ∀ {v pc}, h'.pc = Function.update h.pc v pc → (u = v → OnPost pc) →
      OnPost (h'.pc u) := by
    intro v pc hpc hmine
    rw [hpc]
    by_cases hv : u = v
    · subst v
      rw [Function.update_self]
      exact hmine rfl
    · rwa [Function.update_of_ne hv]
  cases acts_of_step hst with
  | note _ hpc hcase =>
    refine hupdate hpc fun _ => ?_
    rcases hcase with rfl | rfl <;> trivial
  | request _ hpc _ _ _ => exact hupdate hpc fun _ => trivial
  | handOver _ hpc hcase _ =>
    refine hupdate hpc fun _ => ?_
    rcases hcase with ⟨p, -, rfl⟩ | rfl <;> trivial
  | reply _ _ hpc _ => exact hupdate hpc fun _ => trivial
  | timeOut _ hpc _ _ => exact hupdate hpc fun _ => trivial
  | respond _ hpc _ =>
    refine hupdate hpc ?_
    rintro rfl
    exact absurd rfl hb
  | send _ hnot hpc _ _ | aside hnot _ hpc _ =>
    refine hupdate hpc ?_
    rintro rfl
    exact absurd hu hnot
  | take _ _ hpc _ _ => rwa [hpc]
  | rest hpc _ => rwa [hpc]

end Host

section Streams

/-- Of the transport, only the queue may change. -/
structure Apart (h h' : SessionTransport.State codec) : Prop where
  pc : h'.pc = h.pc
  settled : h'.settled = h.settled
  promises : h'.promises = h.promises
  buffered : h'.buffered = h.buffered
  starting : h'.starting = h.starting

/-- What a step of the host does to its streams, and to the transport behind them. -/
inductive Flows (l : Streams codec) : Streams.Action codec → Streams codec → Prop where
  | other {a l'} : SessionTransport.Step codec l.transport a l'.transport →
      l'.stream = l.stream → Flows l (.other a) l'
  | take {g frame l'} : l.transport.getQueue = frame :: l'.transport.getQueue →
      l'.stream = Function.update l.stream g (.holding frame) →
      Apart l.transport l'.transport → Flows l (.take g) l'
  | moves {g st b l'} : (∀ a, b ≠ .other a) → l'.stream = Function.update l.stream g st →
      (∀ f, st ≠ .holding f) → l'.transport.getQueue = l.transport.getQueue →
      Apart l.transport l'.transport → Flows l b l'

theorem flows_of_step {l l' : Streams codec} {b : Streams.Action codec}
    (hst : Streams.Step codec l b l') : Flows l b l' := by
  cases hst with
  | enter _ hs | leave _ hs =>
    cases hs
    exact .moves nofun rfl nofun rfl ⟨rfl, rfl, rfl, rfl, rfl⟩
  | call _ =>
    refine .moves nofun rfl ?_ rfl ⟨rfl, rfl, rfl, rfl, rfl⟩
    intro f
    split <;> exact nofun
  | take _ hq hs =>
    cases hs with
    | takeGet hq' =>
      cases hq.symm.trans hq'
      exact .take hq rfl ⟨rfl, rfl, rfl, rfl, rfl⟩
  | beat _ =>
    refine .moves nofun rfl ?_ rfl ⟨rfl, rfl, rfl, rfl, rfl⟩
    intro f
    split <;> exact nofun
  | nothing | written | unwritten => exact .moves nofun rfl nofun rfl ⟨rfl, rfl, rfl, rfl, rfl⟩
  | other _ hs => exact .other hs rfl

theorem onPost_streams {l l' : Streams codec} {b : Streams.Action codec}
    (hst : Streams.Step codec l b l') (hu : OnPost (l.transport.pc u))
    (hb : b ≠ .other (.respond u)) : OnPost (l'.transport.pc u) := by
  cases flows_of_step hst with
  | other hs _ =>
    refine onPost_step hs hu ?_
    rintro rfl
    exact hb rfl
  | take _ _ hapart | moves _ _ _ _ hapart => rwa [hapart.pc]

end Streams

section Linked

/-- A request on its way, and a thread of the host, is waited for by one POST, which is sending;
and nobody waits for two. -/
structure Linked (s : State codec) : Prop where
  transit : ∀ frame t, (frame, some t) ∈ s.transit → ∃ id, s.client.pc t = .sending frame id
  sending : ∀ u t, s.serves u = some t → ∃ frame id, s.client.pc t = .sending frame id
  onPost : ∀ u t, s.serves u = some t → OnPost (s.host.transport.pc u)
  once : (s.transit.filterMap Prod.snd).Nodup
  apart : ∀ u t frame, s.serves u = some t → (frame, some t) ∉ s.transit
  sole : ∀ u v t, s.serves u = some t → s.serves v = some t → u = v

theorem Linked.client (hl : Linked s) (hst : ClientTransport.Step settings s.client d c')
    (hfail : ∀ t, d ≠ .postFail t) (hresponse : ∀ t res, d ≠ .postResponse t res)
    (hc : s'.client = c') (hh : s'.host = s.host) (ht : s'.transit = s.transit)
    (hs : s'.serves = s.serves) : Linked s' := by
  have hkeep : ∀ t frame id, s.client.pc t = .sending frame id →
      s'.client.pc t = .sending frame id := by
    intro t frame id hpc
    rw [hc]
    exact sending_step hst hpc (hfail t) (hresponse t)
  refine ⟨?_, ?_, ?_, ?_, ?_, ?_⟩
  · rw [ht]
    intro frame t hm
    obtain ⟨id, hpc⟩ := hl.transit frame t hm
    exact ⟨id, hkeep _ _ _ hpc⟩
  · rw [hs]
    intro u t hu
    obtain ⟨frame, id, hpc⟩ := hl.sending u t hu
    exact ⟨frame, id, hkeep _ _ _ hpc⟩
  · rw [hs, hh]
    exact hl.onPost
  · rw [ht]
    exact hl.once
  · rw [hs, ht]
    exact hl.apart
  · rw [hs]
    exact hl.sole

theorem Linked.host (hl : Linked s) {b : Streams.Action codec} {l : Streams codec}
    (hst : Streams.Step codec s.host b l)
    (hb : ∀ u, s.serves u ≠ none → b ≠ .other (.respond u))
    (hc : s'.client = s.client) (hh : s'.host = l) (ht : s'.transit = s.transit)
    (hs : s'.serves = s.serves) : Linked s' := by
  refine ⟨?_, ?_, ?_, ?_, ?_, ?_⟩
  · rw [ht, hc]
    exact hl.transit
  · rw [hs, hc]
    exact hl.sending
  · rw [hs, hh]
    intro u t hu
    exact onPost_streams hst (hl.onPost u t hu) (hb u (by simp [hu]))
  · rw [ht]
    exact hl.once
  · rw [hs, ht]
    exact hl.apart
  · rw [hs]
    exact hl.sole

theorem forget_eq_some {c : Option ℕ} : forget t c = some u ↔ c = some u ∧ u ≠ t := by
  unfold forget
  split
  · next h =>
    subst h
    simp only [reduceCtorEq, Option.some.injEq, false_iff, not_and, not_not]
    exact Eq.symm
  · next h =>
    refine ⟨fun hc => ⟨hc, ?_⟩, And.left⟩
    rintro rfl
    exact h hc

theorem waiters_forget (xs : List (String × Option ℕ)) :
    (xs.map fun x => (x.1, forget t x.2)).filterMap Prod.snd =
      (xs.filterMap Prod.snd).filter (· ≠ t) := by
  rw [List.filterMap_map, List.filter_filterMap]
  refine List.filterMap_congr fun x _ => ?_
  cases hx : x.2 with
  | none => simp [forget, hx]
  | some v =>
    by_cases hv : v = t
    · simp [forget, hx, hv, Option.filter]
    · simp [forget, hx, hv, Option.filter]

theorem onPost_posted {l l' : Streams codec}
    (hst : Streams.Step codec l (.other (.post u f)) l') :
    l.transport.pc u = .idle ∧ OnPost (l'.transport.pc u) := by
  cases hst with
  | other _ hs =>
    cases hs with
    | post hpc =>
      refine ⟨hpc, ?_⟩
      unfold SessionTransport.State.deliver
      split
      · simp [SessionTransport.State.setPC, OnPost]
      · split <;> simp [SessionTransport.State.setPC, OnPost]

/-- Where the request of a POST is taken from, it is nowhere else. -/
theorem Linked.only (hl : Linked s) {frame : String} {before after : List (String × Option ℕ)}
    (ht : s.transit = before ++ (frame, some t) :: after) :
    (∀ f, (f, some t) ∉ before ++ after) ∧ ∀ u, s.serves u ≠ some t := by
  constructor
  · intro f hm
    have honce := hl.once
    rw [ht] at honce
    simp only [List.filterMap_append, List.filterMap_cons, List.nodup_append,
      List.nodup_cons, List.mem_cons, List.mem_filterMap] at honce
    obtain ⟨-, ⟨hafter, -⟩, hbefore⟩ := honce
    rcases List.mem_append.mp hm with hm | hm
    · exact hbefore t ⟨_, hm, rfl⟩ t (.inl rfl) rfl
    · exact hafter ⟨_, hm, rfl⟩
  · intro u hu
    exact hl.apart u t frame hu (by simp [ht])

/-- The request of a POST has ended, and what is left waits for others. -/
theorem Linked.release (hl : Linked s) (hst : ClientTransport.Step settings s.client d c')
    (hd : d = .postFail t ∨ ∃ res, d = .postResponse t res) (hc : s'.client = c')
    (htransit : ∀ f v, (f, some v) ∈ s'.transit → v ≠ t ∧ (f, some v) ∈ s.transit)
    (honce : (s'.transit.filterMap Prod.snd).Sublist (s.transit.filterMap Prod.snd))
    (hserves : ∀ u v, s'.serves u = some v → v ≠ t ∧ s.serves u = some v)
    (hpost : ∀ u v, s'.serves u = some v → OnPost (s'.host.transport.pc u)) : Linked s' := by
  have hkeep : ∀ v frame id, v ≠ t → s.client.pc v = .sending frame id →
      s'.client.pc v = .sending frame id := by
    intro v frame id hne hpc
    rw [hc]
    rcases hd with rfl | ⟨res, rfl⟩
    · exact sending_step hst hpc (fun he => hne (by cases he; rfl)) (fun _ he => by cases he)
    · exact sending_step hst hpc (fun he => by cases he) (fun _ he => hne (by cases he; rfl))
  refine ⟨?_, ?_, hpost, hl.once.sublist honce, ?_, ?_⟩
  · intro f v hm
    obtain ⟨hne, hm'⟩ := htransit f v hm
    obtain ⟨id, hpc⟩ := hl.transit f v hm'
    exact ⟨id, hkeep v f id hne hpc⟩
  · intro u v hu
    obtain ⟨hne, hu'⟩ := hserves u v hu
    obtain ⟨f, id, hpc⟩ := hl.sending u v hu'
    exact ⟨f, id, hkeep v f id hne hpc⟩
  · exact fun u v f hu hm => hl.apart u v f (hserves u v hu).2 (htransit f v hm).2
  · exact fun u w v hu hw => hl.sole u w v (hserves u v hu).2 (hserves w v hw).2

theorem linked_step (hst : Step settings sid s a s') (hl : Linked s) : Linked s' := by
  cases hst with
  | @client d c halone hst =>
    refine hl.client hst ?_ ?_ rfl rfl rfl rfl
    · rintro t rfl
      exact halone
    · rintro t res rfl
      exact halone
  | @host b l hunaided hst =>
    refine hl.host hst ?_ rfl rfl rfl rfl
    rintro u hu rfl
    exact hu hunaided
  | @depart t frame id hpc htransit hserves =>
    refine ⟨?_, hl.sending, hl.onPost, ?_, ?_, hl.sole⟩
    · intro f v hm
      rcases List.mem_append.mp hm with hm | hm
      · exact hl.transit f v hm
      · cases List.mem_singleton.mp hm
        exact ⟨id, hpc⟩
    · simp only [List.filterMap_append, List.nodup_append]
      refine ⟨hl.once, by simp, ?_⟩
      intro v hv w hw
      obtain ⟨x, hx, hxv⟩ := List.mem_filterMap.mp hv
      obtain rfl : w = t := by simpa using hw
      rintro rfl
      exact htransit x hx hxv
    · intro u v f hu hm
      rcases List.mem_append.mp hm with hm | hm
      · exact hl.apart u v f hu hm
      · cases List.mem_singleton.mp hm
        exact hserves u hu
  | @arrive u frame waiter before after l ht hst =>
    obtain ⟨hidle, hpost⟩ := onPost_posted hst
    have hsub : (before ++ after).Sublist s.transit :=
      ht ▸ (List.sublist_cons_self _ _).append_left before
    have hcases : ∀ v t, Function.update s.serves u waiter v = some t →
        (v = u ∧ waiter = some t) ∨ (v ≠ u ∧ s.serves v = some t) := fun v t => update_cases
    refine ⟨?_, ?_, ?_, ?_, ?_, ?_⟩
    · exact fun f t hm => hl.transit f t (hsub.subset hm)
    · intro v t hv
      rcases hcases v t hv with ⟨rfl, rfl⟩ | ⟨-, hv⟩
      · obtain ⟨id, hpc⟩ := hl.transit frame t (by simp [ht])
        exact ⟨frame, id, hpc⟩
      · exact hl.sending v t hv
    · intro v t hv
      rcases hcases v t hv with ⟨rfl, rfl⟩ | ⟨hne, hv⟩
      · exact hpost
      · exact onPost_streams hst (hl.onPost v t hv) nofun
    · exact hl.once.sublist (hsub.filterMap _)
    · intro v t f hv
      rcases hcases v t hv with ⟨rfl, rfl⟩ | ⟨-, hv⟩
      · exact (hl.only ht).1 f
      · exact fun hm => hl.apart v t f hv (hsub.subset hm)
    · intro v w t hv hw
      rcases hcases v t hv with ⟨rfl, rfl⟩ | ⟨-, hv'⟩
      · rcases hcases w t hw with ⟨rfl, -⟩ | ⟨-, hw'⟩
        · rfl
        · exact absurd hw' ((hl.only ht).2 w)
      · rcases hcases w t hw with ⟨rfl, rfl⟩ | ⟨-, hw'⟩
        · exact absurd hv' ((hl.only ht).2 v)
        · exact hl.sole v w t hv' hw'
  | @respond t u res l c hserves _ hhost hclient =>
    have hcases : ∀ v w, Function.update s.serves u none v = some w → v ≠ u ∧ s.serves v = some w :=
      fun v w hv => (update_cases hv).resolve_left (by simp)
    refine hl.release hclient (.inr ⟨_, rfl⟩) rfl ?_ (.refl _) ?_ ?_
    · intro f v hm
      refine ⟨?_, hm⟩
      rintro rfl
      exact hl.apart u v f hserves hm
    · intro v w hv
      obtain ⟨hne, hv'⟩ := hcases v w hv
      refine ⟨?_, hv'⟩
      rintro rfl
      exact hne (hl.sole v u w hv' hserves)
    · intro v w hv
      obtain ⟨hne, hv'⟩ := hcases v w hv
      refine onPost_streams hhost (hl.onPost v w hv') fun he => hne ?_
      cases he
      rfl
  | @refuse t frame res before after c ht _ hst =>
    obtain ⟨hnowhere, hunserved⟩ := hl.only ht
    have hsub : (before ++ after).Sublist s.transit :=
      ht ▸ (List.sublist_cons_self _ _).append_left before
    refine hl.release hst (.inr ⟨_, rfl⟩) rfl ?_ (hsub.filterMap _) ?_ hl.onPost
    · intro f v hm
      refine ⟨?_, hsub.subset hm⟩
      rintro rfl
      exact hnowhere f hm
    · intro u v hu
      refine ⟨?_, hu⟩
      rintro rfl
      exact hunserved u hu
  | @fail t c hst =>
    refine hl.release hst (.inl rfl) rfl ?_ ?_ ?_ ?_
    · intro f v hm
      obtain ⟨⟨g, w⟩, hx, he⟩ := List.mem_map.mp hm
      simp only [Prod.mk.injEq] at he
      obtain ⟨rfl, hforget⟩ := he
      obtain ⟨rfl, hne⟩ := forget_eq_some.mp hforget
      exact ⟨hne, hx⟩
    · rw [waiters_forget]
      exact List.filter_sublist
    · exact fun u v hu => (forget_eq_some.mp hu).symm
    · exact fun u v hu => hl.onPost u v (forget_eq_some.mp hu).1
  | @request c hst => exact hl.client hst nofun nofun rfl rfl rfl rfl
  | @connect g id l _ _ hst => exact hl.host hst nofun rfl rfl rfl rfl
  | @read g chunk rest c _ hst => exact hl.client hst nofun nofun rfl rfl rfl rfl
  | @hangUp d c hends hst =>
    refine hl.client hst ?_ ?_ rfl rfl rfl rfl
    · rintro t rfl
      exact hends
    · rintro t res rfl
      exact hends
  | write _ _ hst => exact hl.host hst nofun rfl rfl rfl rfl
  | beat _ hst => exact hl.host hst nofun rfl rfl rfl rfl

end Linked

end Mcp.Http.Link
