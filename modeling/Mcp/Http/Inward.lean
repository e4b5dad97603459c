import Mcp.Http.Outward

/-! From send() of the host to `on_message_` of the client: who has a frame in hand, and what is on
its way on the GET stream. -/
namespace Mcp.Http.Link

open Transition SessionTransport Crowd

variable {codec : Codec} {settings : ClientTransport.Settings} {sid : String}
  {s s' : State codec} {a : Action codec} {c c' : ClientTransport.State}
  {d : ClientTransport.Action} {h h' : SessionTransport.State codec}
  {b : SessionTransport.Action codec} {t u : ℕ} {f : String}

section Client

/-- The response brings the frame, and the client hands it on. -/
structure Carries (f : String) (res : Response) : Prop where
  success : ClientTransport.isSuccess res = true
  status : res.status ≠ 202
  content : res.content = f

/-- The thread has the frame in a response, or is handing it on. -/
def Holding (f : String) (c : ClientTransport.State) (t : ℕ) : Prop :=
  (∃ res, Carries f res ∧ (c.pc t = .capturing res ∨ c.pc t = .judging res)) ∨
    c.pc t = .handing f.toList

/-- Successes come from the session, and none of them brings a stream of events. -/
structure Dressed (sid : String) (c : ClientTransport.State) : Prop where
  success : ∀ t res, (c.pc t = .capturing res ∨ c.pc t = .judging res) →
    ClientTransport.isSuccess res = true → ∃ r, res = dress sid r
  events : ∀ t events, c.pc t ≠ .receiving events

theorem bodyPC_dress {r : Response} (hstatus : r.status ≠ 202) :
    ClientTransport.bodyPC (dress sid r) = .handing r.content.toList := by
  have hjson : ClientTransport.mentions "application/json" "text/event-stream" = false := by decide
  have htext : ClientTransport.mentions "text/plain" "text/event-stream" = false := by decide
  have htype : ClientTransport.header (dress sid r) "Content-Type" =
      some (if r.status = 200 then "application/json" else "text/plain") := by
    simp [ClientTransport.header, dress, hstatus, sameName]
  have hplain : ClientTransport.mentions
      ((ClientTransport.header (dress sid r) "Content-Type").getD "") "text/event-stream" =
        false := by
    rw [htype]
    by_cases hok : r.status = 200
    · simpa [hok] using hjson
    · simpa [hok] using htext
  rw [ClientTransport.bodyPC, hplain]
  rfl

theorem not_carries_error (e : Exception) (f : String) : ¬Carries f (response (.error e)) :=
  fun hc => absurd hc.success (by simp [response, ClientTransport.isSuccess])

theorem holding_update {pc : ClientTransport.PC} (hpc : c'.pc = Function.update c.pc u pc)
    (hin : Holding f c' t) : (t = u ∧ ((∃ res, Carries f res ∧
      (pc = .capturing res ∨ pc = .judging res)) ∨ pc = .handing f.toList)) ∨
        (t ≠ u ∧ Holding f c t) := by
  by_cases ht : t = u
  · subst t
    rw [Holding, hpc, Function.update_self] at hin
    exact .inl ⟨rfl, hin⟩
  · rw [Holding, hpc, Function.update_of_ne ht] at hin
    exact .inr ⟨ht, hin⟩

/-- A step of the client, but for a response: a frame is handed on by the thread that has it, or
the threads have what they had. -/
theorem holding_step (hd : Dressed sid c) (hst : ClientTransport.Step settings c d c')
    (halone : ∀ t res, d ≠ .postResponse t res) :
    (∃ t frame, c.pc t = .handing frame ∧ c'.delivered = c.delivered ++ [frame] ∧
      c'.get.unread = c.get.unread ∧ ∀ f v, Holding f c' v → v ≠ t ∧ Holding f c v) ∨
    ((∀ f v, Holding f c' v → Holding f c v) ∧ Reads c d c') := by
  cases turns_of_step hst with
  | spawn _ hpc _ hstill | read _ hpc _ hstill | fail _ hpc _ hstill =>
    refine .inr ⟨fun f v hv => ?_, .rest hstill⟩
    exact (holding_update hpc hv).elim (fun he => by simp at he) And.right
  | response _ _ _ _ _ => exact absurd rfl (halone _ _)
  | @capture t res _ hcapturing hpc _ hstill =>
    refine .inr ⟨fun f v hv => ?_, .rest hstill⟩
    rcases holding_update hpc hv with ⟨rfl, he⟩ | ⟨-, hv⟩
    · obtain ⟨res', hc, he⟩ : ∃ res', Carries f res' ∧ res = res' := by simpa using he
      subst res'
      exact .inl ⟨res, hc, .inl hcapturing⟩
    · exact hv
  | @body t res _ hjudging hsuccess hpc _ hstill =>
    refine .inr ⟨fun f v hv => ?_, .rest hstill⟩
    rcases holding_update hpc hv with ⟨rfl, he⟩ | ⟨-, hv⟩
    · obtain ⟨r, rfl⟩ := hd.success v res (.inr hjudging) hsuccess
      by_cases hstatus : r.status = 202
      · simp [dress, hstatus] at he
      · rw [if_neg (by simpa [dress] using hstatus), bodyPC_dress hstatus] at he
        have hcontent : r.content = f := by simpa [String.toList_inj] using he
        exact .inl ⟨_, ⟨hsuccess, hstatus, hcontent⟩, .inr hjudging⟩
    · exact hv
  | event hreceiving _ _ => exact absurd hreceiving (hd.events _ _)
  | @hand t frame _ hhanding hpc _ hunread hdelivered =>
    refine .inl ⟨t, frame, hhanding, hdelivered, hunread, fun f v hv => ?_⟩
    exact (holding_update hpc hv).resolve_left fun he => by simp at he
  | @aside _ pc _ _ hpc _ haside _ hstill =>
    refine .inr ⟨fun f v hv => ?_, .rest hstill⟩
    refine (holding_update hpc hv).elim (fun he => ?_) And.right
    rcases he.2 with ⟨res, -, he | he⟩ | he <;> rw [he] at haside <;> exact haside.elim
  | apart hpc _ hreads =>
    refine .inr ⟨fun f v hv => ?_, hreads⟩
    rwa [Holding, hpc] at hv

theorem dressed_step (hd : Dressed sid c) (hst : ClientTransport.Step settings c d c')
    (hres : ∀ t res, d = .postResponse t res → ClientTransport.isSuccess res = true →
      ∃ r, res = dress sid r) : Dressed sid c' := by
  have hupdate : ∀ {v pc}, c'.pc = Function.update c.pc v pc →
      (∀ res, (pc = .capturing res ∨ pc = .judging res) →
        ClientTransport.isSuccess res = true → ∃ r, res = dress sid r) →
      (∀ events, pc ≠ .receiving events) → Dressed sid c' := by
    intro v pc hpc hsuccess hevents
    refine ⟨?_, ?_⟩
    · intro t res ht
      rw [hpc] at ht
      by_cases hv : t = v
      · subst t
        rw [Function.update_self] at ht
        exact hsuccess res ht
      · rw [Function.update_of_ne hv] at ht
        exact hd.success t res ht
    · intro t events ht
      rw [hpc] at ht
      rcases update_cases ht with ⟨-, he⟩ | ⟨-, he⟩
      · exact hevents events he
      · exact hd.events t events he
  cases turns_of_step hst with
  | spawn _ hpc _ _ | read _ hpc _ _ | fail _ hpc _ _ | hand _ hpc _ _ _ =>
    exact hupdate hpc (by simp) (by simp)
  | response _ hpc hcase _ _ =>
    rcases hcase with rfl | rfl
    · exact hupdate hpc (by simpa using hres _ _ rfl) (by simp)
    · exact hupdate hpc (by simpa using hres _ _ rfl) (by simp)
  | capture hcapturing hpc _ _ =>
    exact hupdate hpc (by simpa using hd.success _ _ (.inl hcapturing)) (by simp)
  | @body t res _ hjudging hsuccess hpc _ _ =>
    obtain ⟨r, rfl⟩ := hd.success t res (.inr hjudging) hsuccess
    by_cases hstatus : r.status = 202
    · rw [if_pos (by simpa [dress] using hstatus)] at hpc
      exact hupdate hpc (by simp) (by simp)
    · rw [if_neg (by simpa [dress] using hstatus), bodyPC_dress hstatus] at hpc
      exact hupdate hpc (by simp) (by simp)
  | event hreceiving _ _ => exact absurd hreceiving (hd.events _ _)
  | aside hpc _ haside _ _ =>
    refine hupdate hpc ?_ ?_
    · rintro res (rfl | rfl) <;> exact haside.elim
    · rintro events rfl
      exact haside
  | apart hpc _ _ => exact ⟨by rw [hpc]; exact hd.success, by rw [hpc]; exact hd.events⟩

end Client

section Host

/-- The thread has the frame in a response, or waits for a promise that is fulfilled with it. -/
def Answering (f : String) (h : SessionTransport.State codec) (u : ℕ) : Prop :=
  (∃ p, (h.pc u).Holds p ∧ (p, .ok f) ∈ h.settled) ∨
    ∃ res, h.pc u = .responding res ∧ Carries f res

/-- No promise is in the hands of two threads. -/
structure Sole (h : SessionTransport.State codec) : Prop where
  made : ∀ u p, (h.pc u).Holds p → p < h.promises
  one : ∀ u v p, (h.pc u).Holds p → (h.pc v).Holds p → u = v

theorem not_holds {pc : SessionTransport.PC codec} (hnot : ¬OnPost pc) (p : ℕ) : ¬pc.Holds p := by
  cases pc with
  | handing _ | waiting _ | responding _ => exact absurd trivial hnot
  | _ => exact id

theorem sole_step (hs : Sole h) (hst : SessionTransport.Step codec h b h') : Sole h' := by
  -- a thread that holds what it has held, or nothing
  have hupdate : ∀ {v pc}, h'.pc = Function.update h.pc v pc → h'.promises = h.promises →
      (∀ p, pc.Holds p → (h.pc v).Holds p) → Sole h' := by
    intro v pc hpc hpromises hsub
    have hold : ∀ u p, (h'.pc u).Holds p → (h.pc u).Holds p := by
      intro u p hu
      rw [hpc] at hu
      by_cases hv : u = v
      · subst u
        rw [Function.update_self] at hu
        exact hsub p hu
      · rwa [Function.update_of_ne hv] at hu
    refine ⟨fun u p hu => hpromises ▸ hs.made u p (hold u p hu), fun u w p hu hw => ?_⟩
    exact hs.one u w p (hold u p hu) (hold w p hw)
  have hsame : h'.pc = h.pc → h'.promises = h.promises → Sole h' := by
    intro hpc hpromises
    refine ⟨?_, ?_⟩
    · rw [hpc, hpromises]
      exact hs.made
    · rw [hpc]
      exact hs.one
  cases acts_of_step hst with
  | note _ hpc hcase hquiet =>
    refine hupdate hpc hquiet.promises fun p hp => ?_
    rcases hcase with rfl | rfl
    · exact hp.elim
    · cases hp
  | @request t raw _ hidle hpc hpromises _ _ =>
    have hcases : ∀ u p, (h'.pc u).Holds p → (u = t ∧ p = h.promises) ∨ (h.pc u).Holds p := by
      intro u p hu
      rw [hpc] at hu
      by_cases ht : u = t
      · subst u
        rw [Function.update_self] at hu
        cases hu
        exact .inl ⟨rfl, rfl⟩
      · rw [Function.update_of_ne ht] at hu
        exact .inr hu
    refine ⟨?_, ?_⟩
    · intro u p hu
      rw [hpromises]
      rcases hcases u p hu with ⟨-, rfl⟩ | hu
      · exact Nat.lt_succ_self _
      · exact Nat.lt_succ_of_lt (hs.made u p hu)
    · intro u v p hu hv
      rcases hcases u p hu with ⟨rfl, rfl⟩ | hu
      · rcases hcases v _ hv with ⟨rfl, -⟩ | hv
        · rfl
        · exact absurd (hs.made v _ hv) (Nat.lt_irrefl _)
      · rcases hcases v p hv with ⟨-, rfl⟩ | hv
        · exact absurd (hs.made u _ hu) (Nat.lt_irrefl _)
        · exact hs.one u v p hu hv
  | handOver hhanding hpc hcase hquiet =>
    refine hupdate hpc hquiet.promises fun p hp => ?_
    rw [hhanding]
    rcases hcase with ⟨q, hreply, rfl⟩ | rfl
    · cases hp
      exact hreply
    · exact hp.elim
  | reply _ _ hpc hquiet | timeOut _ hpc _ hquiet | respond _ hpc hquiet =>
    exact hupdate hpc hquiet.promises fun _ hp => hp.elim
  | send _ _ hpc hpromises _ => exact hupdate hpc hpromises fun _ hp => hp.elim
  | aside _ hnot hpc hquiet =>
    exact hupdate hpc hquiet.promises fun p hp => (not_holds hnot p hp).elim
  | take _ _ hpc _ hpromises => exact hsame hpc hpromises
  | rest hpc hquiet => exact hsame hpc hquiet.promises

theorem answering_update {pc : SessionTransport.PC codec} {v : ℕ}
    (hpc : h'.pc = Function.update h.pc v pc)
    (hsettled : ∀ p f, (p, .ok f) ∈ h'.settled → (p, .ok f) ∈ h.settled)
    (hmine : ∀ p, pc.Holds p → (p, .ok f) ∈ h.settled → (h.pc v).Holds p)
    (hres : ∀ res, pc = .responding res → Carries f res → Answering f h v)
    (hin : Answering f h' u) : Answering f h u := by
  rcases hin with ⟨p, hp, hm⟩ | ⟨res, hu, hc⟩
  · rw [hpc] at hp
    by_cases hv : u = v
    · subst u
      rw [Function.update_self] at hp
      exact .inl ⟨p, hmine p hp (hsettled p f hm), hsettled p f hm⟩
    · rw [Function.update_of_ne hv] at hp
      exact .inl ⟨p, hp, hsettled p f hm⟩
  · rw [hpc] at hu
    rcases update_cases hu with ⟨rfl, he⟩ | ⟨-, hu⟩
    · exact hres res he hc
    · exact .inr ⟨res, hu, hc⟩

/-- A frame that is sent comes to one thread, or to the queue, or nowhere; and nothing else comes
to either. -/
theorem answering_step (f : String) (hs : Sole h) (hfiled : Filed h)
    (hst : SessionTransport.Step codec h b h') :
    (∃ v, sends h b = [f] ∧ h'.getQueue = h.getQueue ∧
      ∀ u, Answering f h' u → u = v ∨ Answering f h u) ∨
    ((∀ u, Answering f h' u → Answering f h u) ∧
      h'.getQueue.count f ≤ h.getQueue.count f + (sends h b).count f) := by
  have hqueue : h'.getQueue = h.getQueue →
      h'.getQueue.count f ≤ h.getQueue.count f + (sends h b).count f := by
    intro he
    rw [he]
    exact Nat.le_add_right _ _
  cases acts_of_step hst with
  | note _ hpc hcase hquiet =>
    refine .inr ⟨fun u => answering_update hpc hquiet.settled ?_ ?_, hqueue hquiet.getQueue⟩
    · intro p hp
      rcases hcase with rfl | rfl
      · exact hp.elim
      · cases hp
    · rintro res rfl hc
      rcases hcase with he | he
      · cases he
        exact absurd rfl hc.status
      · cases he
  | request _ hpc _ hsettled hq =>
    refine .inr ⟨fun u => answering_update hpc hsettled ?_ (fun _ he => by cases he), hqueue hq⟩
    -- a promise that has just been made is not fulfilled
    intro p hp hm
    cases hp
    exact absurd (hfiled.done _ _ hm) (Nat.lt_irrefl _)
  | handOver hhanding hpc hcase hquiet =>
    refine .inr ⟨fun u => answering_update hpc hquiet.settled ?_ ?_, hqueue hquiet.getQueue⟩
    · intro p hp _
      rw [hhanding]
      rcases hcase with ⟨q, hreply, rfl⟩ | rfl
      · cases hp
        exact hreply
      · exact hp.elim
    · rintro res rfl hc
      rcases hcase with ⟨q, -, he⟩ | he
      · cases he
      · cases he
        exact absurd rfl hc.status
  | @reply t p r _ hwaiting hm hpc hquiet =>
    refine .inr ⟨fun u => answering_update hpc hquiet.settled (fun _ hp => hp.elim) ?_,
      hqueue hquiet.getQueue⟩
    rintro res he hc
    cases he
    cases r with
    | error e => exact absurd hc (not_carries_error e f)
    | ok g =>
      have hg : g = f := hc.content
      subst g
      exact .inl ⟨p, by rw [hwaiting]; rfl, hm⟩
  | @timeOut t p res _ _ hpc hstatus hquiet =>
    refine .inr ⟨fun u => answering_update hpc hquiet.settled (fun _ hp => hp.elim) ?_,
      hqueue hquiet.getQueue⟩
    rintro res' he hc
    cases he
    have hsuccess := hc.success
    simp [ClientTransport.isSuccess, hstatus] at hsuccess
  | respond _ hpc hquiet =>
    exact .inr ⟨fun u => answering_update hpc hquiet.settled (fun _ hp => hp.elim)
      (fun _ he => by cases he), hqueue hquiet.getQueue⟩
  | @send t frame _ _ hsends hnot hpc _ hfiles =>
    have hsame : h'.settled = h.settled → ∀ u, Answering f h' u → Answering f h u := by
      intro hsettled u
      exact answering_update hpc (fun p g hm => hsettled ▸ hm) (fun _ hp => hp.elim)
        (fun _ he => by cases he)
    cases hfiles with
    | @slot p hsettled hq =>
      -- the one thread that waits for the promise, if there is one
      obtain ⟨v, hv⟩ : ∃ v, ∀ u, (h.pc u).Holds p → u = v := by
        by_cases hheld : ∃ v, (h.pc v).Holds p
        · obtain ⟨v, hv⟩ := hheld
          exact ⟨v, fun u hu => hs.one u v p hu hv⟩
        · exact ⟨0, fun u hu => absurd ⟨u, hu⟩ hheld⟩
      have hcases : ∀ u, Answering f h' u → (u = v ∧ frame = f) ∨ Answering f h u := by
        rintro u (⟨q, hq', hm⟩ | ⟨res, hu, hc⟩)
        · rw [hpc] at hq'
          by_cases ht : u = t
          · subst u
            rw [Function.update_self] at hq'
            exact hq'.elim
          · rw [Function.update_of_ne ht] at hq'
            rw [hsettled] at hm
            rcases List.mem_append.mp hm with hm | hm
            · exact .inr (.inl ⟨q, hq', hm⟩)
            · cases List.mem_singleton.mp hm
              exact .inl ⟨hv u hq', rfl⟩
        · rw [hpc] at hu
          rcases update_cases hu with ⟨-, he⟩ | ⟨-, hu⟩
          · cases he
          · exact .inr (.inr ⟨res, hu, hc⟩)
      by_cases hframe : frame = f
      · subst frame
        exact .inl ⟨v, hsends, hq, fun u hu => (hcases u hu).imp And.left id⟩
      · exact .inr ⟨fun u hu => (hcases u hu).resolve_left fun he => hframe he.2, hqueue hq⟩
    | queue hsettled hq =>
      refine .inr ⟨hsame hsettled, ?_⟩
      rw [hq, hsends, List.count_append]
    | drop hsettled hq => exact .inr ⟨hsame hsettled, hqueue hq⟩
  | take hq hq' hpc hsettled _ =>
    refine .inr ⟨fun u hu => ?_, ?_⟩
    · rwa [Answering, hpc, hsettled] at hu
    · rw [hq, hq', List.count_cons]
      omega
  | @aside t pc _ _ _ hnot hpc hquiet =>
    refine .inr ⟨fun u => answering_update hpc hquiet.settled
      (fun p hp => (not_holds hnot p hp).elim) ?_, hqueue hquiet.getQueue⟩
    rintro res rfl
    exact absurd trivial hnot
  | rest hpc hquiet =>
    refine .inr ⟨fun u hu => ?_, hqueue hquiet.getQueue⟩
    rw [Answering, hpc] at hu
    exact hu.imp (fun ⟨p, hp, hm⟩ => ⟨p, hp, hquiet.settled p f hm⟩) id

/-- A thread that has responded has nothing. -/
theorem not_answering (hst : SessionTransport.Step codec h (.respond u) h') :
    ¬Answering f h' u := by
  cases hst with
  | respond _ =>
    rintro (⟨p, hp, -⟩ | ⟨res, hu, -⟩)
    · simp [SessionTransport.State.setPC, SessionTransport.PC.Holds] at hp
    · simp [SessionTransport.State.setPC] at hu

end Host

section Wire

/-- A frame that the provider can write as one event. -/
structure OneLine (frame : String) : Prop where
  ne_nil : frame.toList ≠ []
  no_cr : '\r' ∉ frame.toList
  no_lf : '\n' ∉ frame.toList

/-- What a compact dump keeps to. -/
def Compact (codec : Codec) : Prop := ∀ j text, codec.dump j = some text → OneLine text

/-- The frames that the client has still to hand on of a stream: those of events it has parsed, and
those it will find in its buffer and in the bytes to come. -/
def unreadFrames (c : ClientTransport.State) (bytes : Bytes) : List Bytes :=
  match c.get.unread with
  | none => []
  | some (events, buf) => delivered events ++ delivered (drainSse (buf ++ bytes)).1

def State.bytes (s : State codec) : Bytes := (s.stream.map Prod.snd).getD []

variable {frame : String} {buf bytes text : Bytes}

theorem drain_more (hclean : (drainSse (buf ++ bytes)).2 = []) (text : Bytes) :
    drainSse (buf ++ (bytes ++ text)) =
      ((drainSse (buf ++ bytes)).1 ++ (drainSse text).1, (drainSse text).2) := by
  have happend := Incremental.Reader.drain_append (R := sseReader) (buf ++ bytes) text
  rw [← List.append_assoc]
  simp only [drainSse] at hclean ⊢
  rw [happend, hclean, List.nil_append]

/-- Of a write that is torn nothing is read, unless all of it has come. -/
theorem drain_torn {x : Tick} (ht : text <+: x.write) :
    (drainSse text).1 = [] ∨ drainSse text = (x.events, []) := by
  have hwhole : text <+: [x].flatMap Tick.write := by simpa using ht
  obtain ⟨ys, tail, hys, htext, hread⟩ := Incremental.Reader.drain_prefix next_write hwhole
  rw [drainSse, hread]
  rcases List.prefix_cons_iff.mp hys with rfl | ⟨zs, rfl, hzs⟩
  · exact .inl rfl
  · obtain rfl := List.prefix_nil.mp hzs
    have htail : tail = [] := by
      have hlen := ht.length_le
      rw [htext] at hlen
      simpa using hlen
    right
    simp [htail]

/-- A write that has come whole is read whole. -/
theorem drain_tick (x : Tick) : drainSse x.write = (x.events, []) := by
  have hall := Incremental.Reader.drain_flatMap next_write [x]
  rw [drainSse]
  simpa using hall

theorem drain_whole (hline : OneLine frame) :
    drainSse (event frame) = ([{ data := frame.toList }], []) :=
  drain_tick (some ⟨frame.toList, hline.ne_nil, hline.no_cr, hline.no_lf⟩)

theorem drain_event {ok : Bool} (hline : OneLine frame) (hw : Wrote ok (event frame) text) :
    (delivered (drainSse text).1 = [] ∨ delivered (drainSse text).1 = [frame.toList]) ∧
      (ok = true → (drainSse text).2 = []) := by
  let tick : Tick := some ⟨frame.toList, hline.ne_nil, hline.no_cr, hline.no_lf⟩
  have hevents : delivered tick.events = [frame.toList] := by
    simp [tick, Tick.events, delivered, hline.ne_nil]
  refine ⟨?_, fun hok => ?_⟩
  · rcases drain_torn (x := tick) hw.part with hnone | hall
    · exact .inl (by rw [hnone]; rfl)
    · exact .inr (by rw [hall, hevents])
  · rw [hw.all hok, drain_whole hline]

theorem drain_heartbeat {ok : Bool} (hw : Wrote ok heartbeat text) :
    (drainSse text).1 = [] ∧ (ok = true → (drainSse text).2 = []) := by
  refine ⟨?_, fun hok => ?_⟩
  · rcases drain_torn (x := none) hw.part with hnone | hall
    · exact hnone
    · rw [hall]
      rfl
  · rw [hw.all hok]
    exact congrArg Prod.snd (drain_tick none)

/-- What the host keeps to. -/
structure Hosted (l : Streams codec) : Prop where
  sole : Sole l.transport
  filed : Filed l.transport
  queued : ∀ frame ∈ l.transport.getQueue, OneLine frame
  holding : ∀ g frame, l.stream g = .holding frame → OneLine frame

theorem oneLine_sends (hcodec : Compact codec) (hm : frame ∈ sends h b) : OneLine frame := by
  cases b with
  | route v =>
    cases hv : h.pc v with
    | answering p id m =>
      simp only [sends, hv, List.mem_singleton] at hm
      exact hm ▸ hcodec _ _ m.dumped
    | _ => simp [sends, hv] at hm
  | push v =>
    cases hv : h.pc v with
    | emitting m =>
      simp only [sends, hv, List.mem_singleton] at hm
      exact hm ▸ hcodec _ _ m.dumped
    | _ => simp [sends, hv] at hm
  | _ => cases hm

theorem queue_step (hst : SessionTransport.Step codec h b h') :
    ∀ frame ∈ h'.getQueue, frame ∈ h.getQueue ∨ frame ∈ sends h b := by
  intro frame hm
  cases acts_of_step hst with
  | note _ _ _ hquiet | handOver _ _ _ hquiet | reply _ _ _ hquiet | timeOut _ _ _ hquiet
  | respond _ _ hquiet | aside _ _ _ hquiet | rest _ hquiet =>
    rw [hquiet.getQueue] at hm
    exact .inl hm
  | request _ _ _ _ hq =>
    rw [hq] at hm
    exact .inl hm
  | send hsends _ _ _ hfiles =>
    cases hfiles with
    | slot _ hq | drop _ hq =>
      rw [hq] at hm
      exact .inl hm
    | queue _ hq =>
      rw [hq] at hm
      rw [hsends]
      exact List.mem_append.mp hm
  | take hq hq' _ _ _ =>
    rw [hq, ← hq']
    exact .inl (List.mem_cons_of_mem _ hm)

theorem hosted_step (hcodec : Compact codec) {l l' : Streams codec} {b : Streams.Action codec}
    (hst : Streams.Step codec l b l') (hl : Hosted l) : Hosted l' := by
  have htransport : (∃ a, SessionTransport.Step codec l.transport a l'.transport) ∨
      l'.transport = l.transport := by
    cases hst with
    | enter _ hs | take _ _ hs | leave _ hs | other _ hs => exact .inl ⟨_, hs⟩
    | _ => exact .inr rfl
  have hsole : Sole l'.transport ∧ Filed l'.transport := by
    rcases htransport with ⟨a, hs⟩ | he
    · exact ⟨sole_step hl.sole hs, filed_step hs hl.filed⟩
    · rw [he]
      exact ⟨hl.sole, hl.filed⟩
  cases flows_of_step hst with
  | other hs hstream =>
    refine ⟨hsole.1, hsole.2, fun frame hm => ?_, by rw [hstream]; exact hl.holding⟩
    exact (queue_step hs frame hm).elim (hl.queued frame) (oneLine_sends hcodec)
  | @take g frame _ hq hstream _ =>
    refine ⟨hsole.1, hsole.2, fun f hm => hl.queued f (by simp [hq, hm]), fun v f hv => ?_⟩
    rw [hstream] at hv
    rcases update_cases hv with ⟨-, he⟩ | ⟨-, hv⟩
    · cases he
      exact hl.queued frame (by simp [hq])
    · exact hl.holding v f hv
  | moves _ hstream hnot hq _ =>
    refine ⟨hsole.1, hsole.2, by rw [hq]; exact hl.queued, fun v f hv => ?_⟩
    rw [hstream] at hv
    rcases update_cases hv with ⟨-, he⟩ | ⟨-, hv⟩
    · exact absurd he (hnot f)
    · exact hl.holding v f hv

/-- Nothing more is written on the stream. -/
def Over (st : Stream) : Prop := st = .done ∨ st = .gone

theorem over_step {l l' : Streams codec} {b : Streams.Action codec} {g : ℕ}
    (hst : Streams.Step codec l b l') (ho : Over (l.stream g)) : Over (l'.stream g) := by
  have hupdate : ∀ {v st}, (Over (l.stream v) → Over st) →
      Over (Function.update l.stream v st g) := by
    intro v st hover
    by_cases hv : g = v
    · subst v
      rw [Function.update_self]
      exact hover ho
    · rwa [Function.update_of_ne hv]
  cases hst with
  | enter hv _ | call hv | take hv _ _ | nothing hv _ | written hv | unwritten hv | beat hv =>
    exact hupdate (by simp [hv, Over])
  | leave _ _ => exact hupdate fun _ => .inr rfl
  | other _ _ => exact ho

/-- What is written on a stream that the client reads ends with an event, while it goes on. -/
def Clean (s : State codec) : Prop :=
  ∀ g bytes buf, s.stream = some (g, bytes) → s.client.get.unread.map Prod.snd = some buf →
    Over (s.host.stream g) ∨ (drainSse (buf ++ bytes)).2 = []

/-- The link keeps to its bookkeeping. -/
structure Sound (sid : String) (s : State codec) : Prop where
  linked : Linked s
  dressed : Dressed sid s.client
  hosted : Hosted s.host
  clean : Clean s

theorem Clean.host (hclean : Clean s) {b : Streams.Action codec} {l : Streams codec}
    (hst : Streams.Step codec s.host b l) (hhost : s'.host = l) (hstream : s'.stream = s.stream)
    (hunread : s'.client.get.unread = s.client.get.unread) : Clean s' := by
  intro g bytes buf hg hbuf
  rw [hstream] at hg
  rw [hunread] at hbuf
  rw [hhost]
  exact (hclean g bytes buf hg hbuf).imp (over_step hst) id

theorem Clean.client (hclean : Clean s) (hhost : s'.host = s.host)
    (hstream : s'.stream = s.stream)
    (hunread : s'.client.get.unread.map Prod.snd = none ∨
      s'.client.get.unread.map Prod.snd = s.client.get.unread.map Prod.snd) : Clean s' := by
  intro g bytes buf hg hbuf
  rw [hstream] at hg
  rw [hhost]
  rcases hunread with hnone | hsame
  · rw [hnone] at hbuf
    cases hbuf
  · exact hclean g bytes buf hg (hsame ▸ hbuf)

/-- By itself the client reads nothing. -/
theorem unread_alone (hd : Dressed sid c) (halone : Alone d)
    (hst : ClientTransport.Step settings c d c') : c'.get.unread.map Prod.snd = none ∨
      c'.get.unread.map Prod.snd = c.get.unread.map Prod.snd := by
  have hresponse : ∀ t res, d ≠ .postResponse t res := by
    rintro t res rfl
    exact halone
  rcases holding_step hd hst hresponse with ⟨-, -, -, -, hunread, -⟩ | ⟨-, hreads⟩
  · exact .inr (by rw [hunread])
  · cases hreads with
    | ask _ _ | chunk _ _ _ => exact halone.elim
    | event hunread hunread' _ => exact .inr (by rw [hunread, hunread']; rfl)
    | away hnone _ => exact .inl (by rw [hnone]; rfl)
    | rest hstill => exact .inr (by rw [hstill.unread])

theorem unread_posted (hst : ClientTransport.Step settings c d c')
    (hd : d = .postFail t ∨ ∃ res, d = .postResponse t res) :
    c'.get.unread = c.get.unread ∧ c'.delivered = c.delivered := by
  rcases hd with rfl | ⟨res, rfl⟩ <;> cases hst <;> exact ⟨rfl, rfl⟩

/-- What is written is carried to the client that reads the stream. -/
theorem Clean.write (hclean : Clean s) {g : ℕ} {ok : Bool} {text : Bytes}
    {b : Streams.Action codec} {l : Streams codec} (hst : Streams.Step codec s.host b l)
    (hopen : ¬Over (s.host.stream g)) (hshut : ok = false → Over (l.stream g))
    (hrest : ok = true → (drainSse text).2 = []) :
    Clean { s with host := l, stream := s.carry g text } := by
  intro v bytes buf hv hbuf
  simp only [State.carry, Option.map_eq_some_iff] at hv
  obtain ⟨⟨w, old⟩, hold, he⟩ := hv
  split at he
  · next hw =>
    cases he
    obtain rfl : w = g := hw
    have hclear := (hclean w old buf hold hbuf).resolve_left hopen
    cases hok : ok with
    | false => exact .inl (hshut hok)
    | true =>
      right
      rw [drain_more hclear]
      exact hrest hok
  · cases he
    exact (hclean v bytes buf hold hbuf).imp (over_step hst) id

theorem sound_step (hcodec : Compact codec) (hst : Step settings sid s a s') (hs : Sound sid s) :
    Sound sid s' := by
  have hlinked := linked_step hst hs.linked
  cases hst with
  | @client d c halone hst =>
    refine ⟨hlinked, dressed_step hs.dressed hst ?_, hs.hosted,
      hs.clean.client rfl rfl (unread_alone hs.dressed halone hst)⟩
    rintro t res rfl
    exact halone.elim
  | host _ hst | arrive _ hst =>
    exact ⟨hlinked, hs.dressed, hosted_step hcodec hst hs.hosted,
      hs.clean.host hst rfl rfl rfl⟩
  | depart _ _ _ => exact ⟨hlinked, hs.dressed, hs.hosted, hs.clean⟩
  | @respond t u res l c _ _ hhost hclient =>
    refine ⟨hlinked, dressed_step hs.dressed hclient ?_, hosted_step hcodec hhost hs.hosted,
      hs.clean.host hhost rfl rfl (unread_posted hclient (.inr ⟨_, rfl⟩)).1⟩
    intro v res' he _
    cases he
    exact ⟨res, rfl⟩
  | @refuse t frame res before after c _ hres hst =>
    refine ⟨hlinked, dressed_step hs.dressed hst ?_, hs.hosted,
      hs.clean.client rfl rfl (.inr (by rw [(unread_posted hst (.inr ⟨_, rfl⟩)).1]))⟩
    intro v res' he hsuccess
    cases he
    rw [hres] at hsuccess
    cases hsuccess
  | fail hst =>
    exact ⟨hlinked, dressed_step hs.dressed hst (fun _ _ he => by cases he), hs.hosted,
      hs.clean.client rfl rfl (.inr (by rw [(unread_posted hst (.inl rfl)).1]))⟩
  | request hst =>
    exact ⟨hlinked, dressed_step hs.dressed hst (fun _ _ he => by cases he), hs.hosted,
      fun _ _ _ hg => by cases hg⟩
  | @connect g id l hget _ hst =>
    refine ⟨hlinked, hs.dressed, hosted_step hcodec hst hs.hosted, ?_⟩
    intro v bytes buf hv hbuf
    cases hv
    rw [hget] at hbuf
    cases hbuf
    exact .inr (by rw [drainSse]; exact congrArg Prod.snd Incremental.Reader.drain_nil)
  | @read g chunk rest c hstream hst =>
    refine ⟨hlinked, dressed_step hs.dressed hst (fun _ _ he => by cases he), hs.hosted, ?_⟩
    cases hst with
    | @getChunk id buf _ hget _ =>
      intro v bytes buf' hv hbuf
      cases hv
      obtain rfl : (drainSse (buf ++ chunk)).2 = buf' := Option.some.inj hbuf
      have hold := hs.clean g (chunk ++ rest) buf hstream (by rw [hget]; rfl)
      rwa [drainSse, ← List.append_assoc, Incremental.Reader.drain_append] at hold
  | @hangUp d c hends hst =>
    refine ⟨hlinked, dressed_step hs.dressed hst ?_, hs.hosted,
      fun _ _ _ hg => by cases hg⟩
    rintro t res rfl
    exact hends.elim
  | @write g ok frame text l hholding hw hst =>
    have hline := hs.hosted.holding g frame hholding
    refine ⟨hlinked, hs.dressed, hosted_step hcodec hst hs.hosted,
      hs.clean.write hst (by simp [hholding, Over]) ?_ (drain_event hline hw).2⟩
    rintro rfl
    cases hst with
    | unwritten _ => exact .inl (Function.update_self ..)
  | @beat g ok text l hw hst =>
    have hbeating : s.host.stream g = .beating := by
      cases hst
      assumption
    refine ⟨hlinked, hs.dressed, hosted_step hcodec hst hs.hosted,
      hs.clean.write hst (by simp [hbeating, Over]) ?_ (drain_heartbeat hw).2⟩
    rintro rfl
    cases hst with
    | beat _ => exact .inl (Function.update_self ..)

end Wire

end Mcp.Http.Link
