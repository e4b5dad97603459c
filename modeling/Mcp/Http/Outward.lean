import Mcp.Http.LinkSteps
import Mcp.Library.Crowd

/-! From process_send() to the Session of the host: no frame is handed on more often than it was
sent. -/
namespace Mcp.Http.Link

open Transition SessionTransport Crowd

/-- What can have a frame in hand. -/
inductive Place where
  | post (t : ℕ)
  | thread (u : ℕ)
  | stream (g : ℕ)
  deriving DecidableEq

variable {codec : Codec} {settings : ClientTransport.Settings} {sid : String}
  {s s' : State codec} {a : Action codec} {c c' : ClientTransport.State}
  {d : ClientTransport.Action} {h h' : SessionTransport.State codec}
  {b : SessionTransport.Action codec} {t u : ℕ} {f : String}

/-- What has the frame in hand on its way from process_send() to the Session. -/
def Outbound (f : String) (s : State codec) : Place → Prop
  | .post t => Posting f s.client t ∧ (∀ x ∈ s.transit, x.2 ≠ some t) ∧ ∀ u, s.serves u ≠ some t
  | .thread u => ∃ reply, s.host.transport.pc u = .handing { raw := f, reply }
  | .stream _ => False

/-- How often the frame lies in the gate of a session. -/
def gated (f : String) (h : SessionTransport.State codec) : ℕ :=
  (h.buffered.map Frame.raw).count f + (h.starting.map Frame.raw).count f

/-- How often the frame is elsewhere on its way, or has been taken. -/
def outward (f : String) (s : State codec) : ℕ :=
  (s.transit.map Prod.fst).count f + gated f s.host.transport + s.taken.count f

theorem posting_step (f : String) (hst : ClientTransport.Step settings c d c') :
    (∃ t frame, d = .workerSpawn t ∧ c'.processed = c.processed ++ [frame] ∧
      ∀ v, Posting f c' v → (v = t ∧ frame = f) ∨ Posting f c v) ∨
    (c'.processed = c.processed ∧ ∀ v, Posting f c' v → Posting f c v) := by
  cases turns_of_step hst with
  | @spawn t frame _ _ hpc hprocessed _ =>
    refine .inl ⟨t, frame, rfl, hprocessed, fun v hv => ?_⟩
    rcases posting_update hpc hv with ⟨rfl, he | ⟨id, he⟩⟩ | ⟨-, hv⟩
    · cases he
      exact .inl ⟨rfl, rfl⟩
    · cases he
    · exact .inr hv
  | read hentered hpc hprocessed _ =>
    refine .inr ⟨hprocessed, fun v hv => ?_⟩
    rcases posting_update hpc hv with ⟨rfl, he | ⟨id, he⟩⟩ | ⟨-, hv⟩
    · cases he
    · cases he
      exact .inl hentered
    · exact hv
  | fail _ hpc hprocessed _ | capture _ hpc hprocessed _ | event _ hpc hprocessed
  | hand _ hpc hprocessed _ _ =>
    refine .inr ⟨hprocessed, fun v hv => ?_⟩
    rcases posting_update hpc hv with ⟨-, he | ⟨id, he⟩⟩ | ⟨-, hv⟩
    · cases he
    · cases he
    · exact hv
  | response _ hpc hcase hprocessed _ =>
    refine .inr ⟨hprocessed, fun v hv => ?_⟩
    rcases posting_update hpc hv with ⟨-, he | ⟨id, he⟩⟩ | ⟨-, hv⟩
    · rcases hcase with rfl | rfl <;> cases he
    · rcases hcase with rfl | rfl <;> cases he
    · exact hv
  | body _ _ hpc hprocessed _ =>
    refine .inr ⟨hprocessed, fun v hv => ?_⟩
    rcases posting_update hpc hv with ⟨-, he⟩ | ⟨-, hv⟩
    · unfold ClientTransport.bodyPC at he
      split at he
      · simp at he
      · split at he <;> simp at he
    · exact hv
  | @aside _ pc _ _ hpc _ haside hprocessed _ =>
    refine .inr ⟨hprocessed, fun v hv => ?_⟩
    rcases posting_update hpc hv with ⟨-, he | ⟨id, he⟩⟩ | ⟨-, hv⟩
    · rw [he] at haside
      exact haside.elim
    · rw [he] at haside
      exact haside.elim
    · exact hv
  | apart hpc hprocessed _ =>
    refine .inr ⟨hprocessed, fun v hv => ?_⟩
    rwa [Posting, hpc] at hv

/-- A thread whose request has ended posts nothing. -/
theorem not_posting (hst : ClientTransport.Step settings c d c')
    (hd : d = .postFail t ∨ ∃ res, d = .postResponse t res) : ¬Posting f c' t := by
  rintro hp
  rcases hd with rfl | ⟨res, rfl⟩
  · cases hst with
    | postFail _ => simp [Posting, ClientTransport.State.setPC] at hp
  · cases hst with
    | postResponse _ =>
      simp only [Posting, ClientTransport.State.setPC, Function.update_self] at hp
      split at hp
      · simp at hp
      · split at hp <;> simp at hp

theorem handing_step (hst : SessionTransport.Step codec h b h') (hb : ∀ v raw, b ≠ .post v raw)
    {fr : Frame} (hu : h'.pc u = .handing fr) : h.pc u = .handing fr := by
  have hupdate : ∀ {v pc}, h'.pc = Function.update h.pc v pc → pc ≠ .handing fr →
      h.pc u = .handing fr := by
    intro v pc hpc hne
    rw [hpc] at hu
    exact (update_cases hu).elim (fun he => absurd he.2 hne) And.right
  cases acts_of_step hst with
  | note _ _ _ _ | request _ _ _ _ _ => exact absurd rfl (hb _ _)
  | handOver _ hpc hcase _ =>
    refine hupdate hpc ?_
    rcases hcase with ⟨p, -, rfl⟩ | rfl <;> simp
  | reply _ _ hpc _ | timeOut _ hpc _ _ | respond _ hpc _ | send _ _ hpc _ _ =>
    exact hupdate hpc (by simp)
  | aside _ hnot hpc _ =>
    refine hupdate hpc ?_
    rintro rfl
    exact hnot trivial
  | take _ _ hpc _ _ | rest hpc _ => rwa [hpc] at hu

theorem not_handing (hst : SessionTransport.Step codec h (.handOver u) h') (fr : Frame) :
    h'.pc u ≠ .handing fr := by
  cases hst with
  | handOver _ =>
    simp only [SessionTransport.State.setPC, Function.update_self]
    split <;> simp

/-- What a POST brings to the gate is handed on or stays there, and start() hands on what it has
found there. -/
theorem gated_step (f : String) (hst : SessionTransport.Step codec h b h') :
    gated f h' + ((h.hands b).map fun x => x.2.raw).count f ≤
      gated f h + ((h.delivers b).map Frame.raw).count f := by
  unfold gated
  by_cases hon : b = .onMessage
  · subst b
    cases hst
    exact Nat.le_refl _
  by_cases hstart : b = .start
  · subst b
    cases hst
    simp only [SessionTransport.State.hands, SessionTransport.State.delivers]
    split <;> simp [Nat.add_comm]
  · cases buffers_step hst hon hstart with
    | through _ hbuffered hstarting hhands =>
      rw [hbuffered, hstarting, hhands]
      simp [Function.comp_def]
    | held _ hbuffered hstarting hhands =>
      rw [hbuffered, hstarting, hhands]
      simp
      omega
    | drained fr hstarting hbuffered hdelivers hhands =>
      rw [hbuffered, hstarting, hdelivers, hhands]
      simp [List.count_cons]
      omega

theorem delivers_cases (hst : SessionTransport.Step codec h b h') :
    h.delivers b = [] ∨ ∃ v fr, b = .handOver v ∧ h.pc v = .handing fr ∧ h.delivers b = [fr] := by
  cases hst with
  | @handOver v fr hpc =>
    exact .inr ⟨v, fr, rfl, hpc, by simp [SessionTransport.State.delivers, hpc]⟩
  | _ => exact .inl rfl

theorem hands_eq_nil {b : Streams.Action codec} (hb : ∀ a, b ≠ .other a) : s.hands b = [] := by
  cases b with
  | other a => exact absurd rfl (hb a)
  | _ => rfl

/-- A step of the host, but for those that begin a POST. -/
theorem outbound_host {b : Streams.Action codec} {l : Streams codec} {n : ℕ}
    (hst : Streams.Step codec s.host b l) (hb : ∀ v raw, b ≠ .other (.post v raw))
    (hpost : ∀ v, Outbound f s' (.post v) → Outbound f s (.post v)) (hhost : s'.host = l)
    (htransit : (s'.transit.map Prod.fst).count f ≤ (s.transit.map Prod.fst).count f)
    (htaken : s'.taken = s.taken ++ s.hands b) (h : Covered (Outbound f s) (outward f s) n) :
    Covered (Outbound f s') (outward f s') n := by
  subst hhost
  have hapart : Apart s.host.transport s'.host.transport → s.hands b = [] →
      Covered (Outbound f s') (outward f s') n := by
    intro hapart hnone
    have hgated : gated f s'.host.transport = gated f s.host.transport := by
      rw [gated, gated, hapart.buffered, hapart.starting]
    refine h.mono ?_ ?_
    · rintro (v | v | v) hin
      · exact hpost v hin
      · rwa [Outbound, hapart.pc] at hin
      · exact hin
    · rw [hnone, List.append_nil] at htaken
      simp only [outward, htaken, hgated]
      omega
  cases flows_of_step hst with
  | @other a _ hs _ =>
    have hgated := gated_step f hs
    have hthread : ∀ v, Outbound f s' (.thread v) → Outbound f s (.thread v) := by
      rintro v ⟨reply, hv⟩
      exact ⟨reply, handing_step hs (fun w raw he => hb w raw (by rw [he])) hv⟩
    have hstays : ∀ p, Outbound f s' p → Outbound f s p := by
      rintro (v | v | v) hin
      · exact hpost v hin
      · exact hthread v hin
      · exact hin
    have hmore : outward f s' + gated f s.host.transport ≤ outward f s +
        gated f s'.host.transport + ((s.host.transport.hands a).map fun x => x.2.raw).count f := by
      simp only [outward, htaken, State.hands, List.count_append]
      omega
    rcases delivers_cases hs with hnone | ⟨v, fr, rfl, hv, hone⟩
    · rw [hnone] at hgated
      refine h.mono hstays ?_
      simp only [List.map_nil, List.count_nil] at hgated
      omega
    · rw [hone] at hgated
      by_cases hraw : fr.raw = f
      · have hin : Outbound f s (.thread v) := ⟨fr.reply, by rw [hv, ← hraw]⟩
        refine h.leave hin (fun p hp => ⟨?_, hstays p hp⟩) ?_
        · rintro rfl
          obtain ⟨reply, hv'⟩ := hp
          exact not_handing hs _ hv'
        · simp only [List.map_cons, List.map_nil, hraw, List.count_singleton_self] at hgated
          omega
      · refine h.mono hstays ?_
        simp only [List.map_cons, List.map_nil, List.count_cons, List.count_nil, hraw,
          beq_iff_eq, if_false] at hgated
        omega
  | take _ _ hsame => exact hapart hsame rfl
  | moves hne _ _ _ hsame => exact hapart hsame (hands_eq_nil hne)

/-- A step of the client alone. -/
theorem outbound_client (hst : ClientTransport.Step settings s.client d c')
    (hc : s'.client = c') (hh : s'.host = s.host) (ht : s'.transit = s.transit)
    (hs : s'.serves = s.serves) (htaken : s'.taken = s.taken)
    (h : Covered (Outbound f s) (outward f s) (s.client.processed.count f)) :
    Covered (Outbound f s') (outward f s') (s'.client.processed.count f) := by
  have hout : outward f s' = outward f s := by rw [outward, outward, hh, ht, htaken]
  have hthread : ∀ v, Outbound f s' (.thread v) → Outbound f s (.thread v) := by
    intro v hv
    rwa [Outbound, hh] at hv
  subst hc
  rcases posting_step f hst with ⟨t, frame, -, hprocessed, hposting⟩ | ⟨hprocessed, hposting⟩
  · rw [hout, hprocessed, List.count_append]
    by_cases hframe : frame = f
    · subst frame
      refine h.enter (t := .post t) ?_ (by simp; omega)
      rintro (v | v | v) hne hin
      · obtain ⟨hp, hrest⟩ := hin
        rw [ht, hs] at hrest
        exact ⟨(hposting v hp).resolve_left fun he => hne (by rw [he.1]), hrest⟩
      · exact hthread v hin
      · exact hin
    · refine h.mono ?_ (by simp [hframe])
      rintro (v | v | v) hin
      · obtain ⟨hp, hrest⟩ := hin
        rw [ht, hs] at hrest
        exact ⟨(hposting v hp).resolve_left fun he => hframe he.2, hrest⟩
      · exact hthread v hin
      · exact hin
  · rw [hout, hprocessed]
    refine h.mono ?_ le_rfl
    rintro (v | v | v) hin
    · obtain ⟨hp, hrest⟩ := hin
      rw [ht, hs] at hrest
      exact ⟨hposting v hp, hrest⟩
    · exact hthread v hin
    · exact hin

theorem handing_posted (hst : SessionTransport.Step codec h (.post u f) h') {v : ℕ} {fr : Frame}
    (hv : h'.pc v = .handing fr) : (v = u ∧ fr.raw = f) ∨ h.pc v = .handing fr := by
  cases hst with
  | post _ =>
    unfold SessionTransport.State.deliver at hv
    split at hv
    · rcases update_cases hv with ⟨-, he⟩ | ⟨-, hv⟩
      · cases he
      · exact .inr hv
    · split at hv
      · rcases update_cases hv with ⟨rfl, he⟩ | ⟨-, hv⟩
        · cases he
          exact .inl ⟨rfl, rfl⟩
        · exact .inr hv
      · rcases update_cases hv with ⟨rfl, he⟩ | ⟨-, hv⟩
        · cases he
          exact .inl ⟨rfl, rfl⟩
        · exact .inr hv

/-- A thread of the client whose request has ended is out; the others post as before. -/
theorem posting_ended (f : String) (hst : ClientTransport.Step settings c d c')
    (hd : d = .postFail t ∨ ∃ res, d = .postResponse t res) :
    c'.processed = c.processed ∧ ∀ v, Posting f c' v → v ≠ t ∧ Posting f c v := by
  rcases posting_step f hst with ⟨v, frame, rfl, -⟩ | ⟨hprocessed, hposting⟩
  · rcases hd with hd | ⟨res, hd⟩ <;> cases hd
  · refine ⟨hprocessed, fun v hv => ⟨?_, hposting v hv⟩⟩
    rintro rfl
    exact not_posting hst hd hv

/-- The request of a POST has ended with no step of the host. -/
theorem outbound_ended (hst : ClientTransport.Step settings s.client d c')
    (hd : d = .postFail t ∨ ∃ res, d = .postResponse t res) (hc : s'.client = c')
    (hh : s'.host = s.host) (htaken : s'.taken = s.taken)
    (htransit : (s'.transit.map Prod.fst).count f ≤ (s.transit.map Prod.fst).count f)
    (hwaiting : ∀ v, v ≠ t → (∀ x ∈ s'.transit, x.2 ≠ some v) → ∀ x ∈ s.transit, x.2 ≠ some v)
    (hserving : ∀ v, v ≠ t → (∀ u, s'.serves u ≠ some v) → ∀ u, s.serves u ≠ some v)
    (h : Covered (Outbound f s) (outward f s) (s.client.processed.count f)) :
    Covered (Outbound f s') (outward f s') (s'.client.processed.count f) := by
  obtain ⟨hprocessed, hposting⟩ := posting_ended f hst hd
  rw [hc, hprocessed]
  refine h.mono ?_ ?_
  · rintro (v | v | v) hin
    · obtain ⟨hp, hwaits, hserved⟩ := hin
      obtain ⟨hne, hp'⟩ := hposting v (hc ▸ hp)
      exact ⟨hp', hwaiting v hne hwaits, hserving v hne hserved⟩
    · rwa [Outbound, hh] at hin
    · exact hin
  · simp only [outward, hh, htaken]
    omega

theorem outbound_step (hst : Step settings sid s a s') (hl : Linked s)
    (h : Covered (Outbound f s) (outward f s) (s.client.processed.count f)) :
    Covered (Outbound f s') (outward f s') (s'.client.processed.count f) := by
  cases hst with
  | client _ hst | request hst | read _ hst | hangUp _ hst =>
    exact outbound_client hst rfl rfl rfl rfl rfl h
  | @host b l hunaided hst =>
    refine outbound_host hst ?_ (fun _ => id) rfl le_rfl rfl h
    rintro v raw rfl
    exact hunaided
  | connect _ _ hst | write _ _ hst | beat _ hst =>
    exact outbound_host hst (fun _ _ he => by cases he) (fun _ => id) rfl le_rfl
      (by simp [State.hands]) h
  | @depart t frame id hpc htransit hserves =>
    let left : State codec := { s with transit := s.transit ++ [(frame, some t)] }
    have hin : ∀ p, Outbound f left p → p ≠ .post t ∧ Outbound f s p := by
      rintro (v | v | v) hin
      · obtain ⟨hp, hwaits, hserved⟩ := hin
        refine ⟨?_, hp, fun x hx => hwaits x (List.mem_append_left _ hx), hserved⟩
        rintro ⟨rfl⟩
        exact hwaits (frame, some t) (by simp [left]) rfl
      · exact ⟨by simp, hin⟩
      · exact hin.elim
    have hmore : outward f left = outward f s + [frame].count f := by
      simp only [left, outward, List.map_append, List.count_append, List.map_cons, List.map_nil]
      omega
    by_cases hframe : frame = f
    · subst frame
      have hposting : Outbound f s (.post t) := ⟨.inr ⟨id, hpc⟩, htransit, hserves⟩
      rw [List.count_singleton_self] at hmore
      exact h.leave hposting hin (by rw [hmore])
    · rw [List.count_eq_zero.mpr (by simpa using Ne.symm hframe)] at hmore
      exact h.mono (fun p hp => (hin p hp).2) (by rw [hmore, Nat.add_zero])
  | @arrive u frame waiter before after l ht hst =>
    cases flows_of_step hst with
    | moves hne _ _ _ _ => exact absurd rfl (hne _)
    | other hs _ =>
      have hidle := (onPost_posted hst).1
      have hgated := gated_step f hs
      simp only [SessionTransport.State.hands, SessionTransport.State.delivers, List.map_nil,
        List.count_nil, Nat.add_zero] at hgated
      have hpost : ∀ v, Outbound f { s with
          host := l, transit := before ++ after, serves := Function.update s.serves u waiter }
          (.post v) → Outbound f s (.post v) := by
        rintro v ⟨hp, hwaits, hserved⟩
        have hwaiter : waiter ≠ some v :=
          fun he => hserved u ((Function.update_self ..).trans he)
        refine ⟨hp, ?_, fun w hw => ?_⟩
        · rw [ht]
          intro x hx
          simp only [List.mem_append, List.mem_cons] at hx
          rcases hx with hx | rfl | hx
          · exact hwaits x (List.mem_append_left _ hx)
          · exact hwaiter
          · exact hwaits x (List.mem_append_right _ hx)
        · -- a thread that begins a POST has served none
          by_cases hwu : w = u
          · subst w
            have := hl.onPost u v hw
            rw [hidle] at this
            exact this
          · exact hserved w ((Function.update_of_ne hwu _ _).trans hw)
      by_cases hframe : frame = f
      · subst frame
        refine h.enter (t := .thread u) ?_ ?_
        · rintro (v | v | v) hne hin
          · exact hpost v hin
          · obtain ⟨reply, hv⟩ := hin
            refine ⟨reply, (handing_posted hs hv).resolve_left fun he => hne ?_⟩
            rw [he.1]
          · exact hin
        · simp only [outward, ht, List.map_append, List.map_cons, List.count_append,
            List.count_cons_self]
          omega
      · refine h.mono ?_ ?_
        · rintro (v | v | v) hin
          · exact hpost v hin
          · obtain ⟨reply, hv⟩ := hin
            exact ⟨reply, (handing_posted hs hv).resolve_left fun he => hframe he.2.symm⟩
          · exact hin
        · simp only [outward, ht, List.map_append, List.map_cons, List.count_append]
          rw [List.count_cons_of_ne hframe]
          omega
  | @respond t u res l c hserves _ hhost hclient =>
    obtain ⟨hprocessed, hposting⟩ := posting_ended f hclient (.inr ⟨_, rfl⟩)
    refine outbound_host hhost (fun _ _ he => by cases he) ?_ rfl le_rfl (by simp [State.hands,
      SessionTransport.State.hands]) (hprocessed ▸ h)
    rintro v ⟨hp, hwaits, hserved⟩
    obtain ⟨hne, hp'⟩ := hposting v hp
    refine ⟨hp', hwaits, fun w hw => ?_⟩
    by_cases hwu : w = u
    · subst w
      exact hne (Option.some.inj (hw.symm.trans hserves))
    · exact hserved w ((Function.update_of_ne hwu _ _).trans hw)
  | @refuse t frame res before after c ht _ hst =>
    refine outbound_ended hst (.inr ⟨_, rfl⟩) rfl rfl rfl ?_ ?_ (fun _ _ => id) h
    · rw [ht]
      exact (((List.sublist_cons_self _ _).append_left before).map _).count_le _
    · intro v hne hwaits
      rw [ht]
      intro x hx
      simp only [List.mem_append, List.mem_cons] at hx
      rcases hx with hx | rfl | hx
      · exact hwaits x (List.mem_append_left _ hx)
      · exact fun he => hne (Option.some.inj he).symm
      · exact hwaits x (List.mem_append_right _ hx)
  | @fail t c hst =>
    refine outbound_ended hst (.inl rfl) rfl rfl rfl (by simp [Function.comp_def]) ?_ ?_ h
    · intro v hne hwaits x hx he
      exact hwaits _ (List.mem_map_of_mem hx) (forget_eq_some.mpr ⟨he, hne⟩)
    · intro v hne hserved u hu
      exact hserved u (forget_eq_some.mpr ⟨hu, hne⟩)

end Mcp.Http.Link
