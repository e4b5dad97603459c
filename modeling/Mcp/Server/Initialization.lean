import Mcp.Server.Gate

/-! What every run of the server keeps to: one initialize is accepted, and everything else that
matters comes after it. -/
namespace Mcp.Server

open Tasks Threads Transition

/-- What an event needs to have behind it. -/
def Admits (jobs : ℕ → Option Job) (earlier : List Event) : Event → Prop
  | .accepted t => (∀ u, .accepted u ∉ earlier) ∧ (∀ r, .answered t r ∉ earlier) ∧
      ∃ req, jobs t = some (.request req) ∧ req.method = methodInitialize ∧ WellFormed req
  | .invoked _ _ => ∃ u, .accepted u ∈ earlier
  | .answered t r => ∃ job, jobs t = some job ∧
      ∀ req, job = .request req → req.method = methodInitialize →
        (.accepted t ∈ earlier ∧ ∃ j, r.outcome = .result j) ∨
          (.accepted t ∉ earlier ∧ ∃ e, r.outcome = .error e)

def Legal (jobs : ℕ → Option Job) : List Event → Prop
  | [] => True
  | e :: earlier => Admits jobs earlier e ∧ Legal jobs earlier

section Histories

variable {jobs : ℕ → Option Job} {history earlier later : List Event} {e : Event} {t u : ℕ}
  {r : JsonRpcResponse} {req : JsonRpcRequest}

theorem Legal.admits (h : Legal jobs (later ++ e :: earlier)) : Admits jobs earlier e := by
  induction later with
  | nil => exact h.1
  | cons x later ih => exact ih h.2

theorem Legal.request_of_accepted (h : Legal jobs history) (ht : .accepted t ∈ history) :
    ∃ req, jobs t = some (.request req) ∧ req.method = methodInitialize ∧ WellFormed req := by
  obtain ⟨later, earlier, rfl⟩ := List.append_of_mem ht
  exact h.admits.2.2

theorem Legal.accepted_unique (h : Legal jobs history) (ht : .accepted t ∈ history)
    (hu : .accepted u ∈ history) : t = u := by
  induction history with
  | nil => cases ht
  | cons e earlier ih =>
    rcases List.mem_cons.mp ht with rfl | ht'
    · rcases List.mem_cons.mp hu with hu' | hu'
      · cases hu'
        rfl
      · exact absurd hu' (h.1.1 u)
    · rcases List.mem_cons.mp hu with rfl | hu'
      · exact absurd ht' (h.1.1 t)
      · exact ih h.2 ht' hu'

/-- An initialize that is answered with a result has been accepted. -/
theorem Legal.accepted_of_result (h : Legal jobs history) (hr : .answered t r ∈ history)
    (hjob : jobs t = some (.request req)) (hm : req.method = methodInitialize) {j : Json}
    (hj : r.outcome = .result j) : .accepted t ∈ history := by
  obtain ⟨later, earlier, rfl⟩ := List.append_of_mem hr
  obtain ⟨job, hjob', hcases⟩ := h.admits
  rw [hjob, Option.some.injEq] at hjob'
  rcases hcases req hjob'.symm hm with ⟨hacc, -⟩ | ⟨-, e, he⟩
  · simp [hacc]
  · rw [hj] at he
    cases he

/-- An initialize that has been accepted is not answered with an error, before or after. -/
theorem Legal.not_error_of_accepted (h : Legal jobs history) (ht : .accepted t ∈ history)
    (hr : .answered t r ∈ history) : ∀ e, r.outcome ≠ .error e := by
  intro e he
  obtain ⟨req, hreq, hm, -⟩ := h.request_of_accepted ht
  obtain ⟨later, earlier, rfl⟩ := List.append_of_mem hr
  obtain ⟨job, hjob, hcases⟩ := h.admits
  rw [hreq, Option.some.injEq] at hjob
  rcases hcases req hjob.symm hm with ⟨-, j, hj⟩ | ⟨hnot, -⟩
  · rw [he] at hj
    cases hj
  · -- the claim came after the answer, which it does not admit
    have hlater : .accepted t ∈ later := by simpa [hnot] using ht
    obtain ⟨l₁, l₂, rfl⟩ := List.append_of_mem hlater
    rw [List.append_assoc, List.cons_append] at h
    exact h.admits.2.1 r (by simp)

theorem Admits.update {job : Job} (ht : jobs t = none) (h : Admits jobs earlier e) :
    Admits (Function.update jobs t (some job)) earlier e := by
  have hkeep : ∀ v job', jobs v = some job' →
      Function.update jobs t (some job) v = some job' := by
    intro v job' hv
    have hne : v ≠ t := by
      rintro rfl
      simp [ht] at hv
    simpa [hne] using hv
  cases e with
  | accepted v =>
    obtain ⟨hacc, hans, req, hreq, hinit⟩ := h
    exact ⟨hacc, hans, req, hkeep _ _ hreq, hinit⟩
  | invoked v o => exact h
  | answered v r =>
    obtain ⟨job', hjob', hcases⟩ := h
    exact ⟨job', hkeep _ _ hjob', hcases⟩

theorem Legal.update {job : Job} (ht : jobs t = none) (h : Legal jobs history) :
    Legal (Function.update jobs t (some job)) history := by
  induction history with
  | nil => trivial
  | cons e earlier ih => exact ⟨h.1.update ht, ih h.2⟩

/-- A thread that has not been started yet appears in no event but those of handlers. -/
theorem Legal.not_accepted (h : Legal jobs history) (ht : jobs t = none) :
    .accepted t ∉ history := by
  intro hmem
  obtain ⟨req, hreq, -⟩ := h.request_of_accepted hmem
  simp [ht] at hreq

theorem Legal.not_answered (h : Legal jobs history) (ht : jobs t = none) :
    .answered t r ∉ history := by
  intro hmem
  obtain ⟨later, earlier, rfl⟩ := List.append_of_mem hmem
  obtain ⟨job, hjob, -⟩ := h.admits
  simp [ht] at hjob

end Histories

/-- The invariant of the shared state. -/
structure Gated (s : State) : Prop where
  legal : Legal s.jobs s.history
  accepted : s.initialized = true ↔ ∃ t, .accepted t ∈ s.history
  spawned : s.initialized = false → s.services.spawned = []

/-- How far a thread has come with its job. -/
inductive Stage (s : State) (t : ℕ) (p : Program ServerOp ServerOp.Ans Unit) : Job → Prop where
  | serving {job} : (∀ req, job = .request req → req.method ≠ methodInitialize) → p.Only Serves →
      Stage s t p job
  | claiming {req} : req.method = methodInitialize → .accepted t ∉ s.history →
      (∀ r, .answered t r ∉ s.history) → Claims req p → Stage s t p (.request req)
  | granted {req} : req.method = methodInitialize → .accepted t ∈ s.history → p.Only Grants →
      Stage s t p (.request req)
  | refused {req} : req.method = methodInitialize → .accepted t ∉ s.history → p.Only Refuses →
      Stage s t p (.request req)

/-- The invariant of a thread. -/
structure Follows (s : State) (t : ℕ) (p : Program ServerOp ServerOp.Ans Unit) : Prop where
  gate : s.initialized = true ∨ p.Guarded Opens Safe
  stage : ∃ job, s.jobs t = some job ∧ Stage s t p job

/-- What a step of another thread leaves to thread `v`. -/
structure Leaves (s u : State) (v : ℕ) : Prop where
  initialized : s.initialized = true → u.initialized = true
  jobs : u.jobs v = s.jobs v
  accepted : .accepted v ∈ u.history ↔ .accepted v ∈ s.history
  answered : ∀ r, .answered v r ∈ u.history ↔ .answered v r ∈ s.history

section Steps

variable {jsonWhat : JsonException → String} {cfg : Settings} {s u : State} {t v : ℕ}
  {p : Program ServerOp ServerOp.Ans Unit}

theorem Follows.leaves (h : Follows s v p) (hl : Leaves s u v) : Follows u v p := by
  refine ⟨h.gate.imp_left hl.initialized, ?_⟩
  obtain ⟨job, hjob, hstage⟩ := h.stage
  refine ⟨job, hl.jobs.trans hjob, ?_⟩
  cases hstage with
  | serving hm hp => exact .serving hm hp
  | claiming hm hacc hans hp =>
    refine .claiming hm ?_ ?_ hp
    · rwa [hl.accepted]
    · intro r
      rw [hl.answered]
      exact hans r
  | granted hm hacc hp => exact .granted hm (hl.accepted.mpr hacc) hp
  | refused hm hacc hp => exact .refused hm (by rwa [hl.accepted]) hp

/-- The events of an operation belong to the thread that performs it. -/
theorem mem_events {o : Op} {e : Event} (h : e ∈ o.events t) :
    (∃ r, o = .respond r ∧ e = .answered t r) ∨ (o.isInvocation = true ∧ e = .invoked t o) := by
  cases o <;> simp_all [Op.events, Op.isInvocation]

theorem leaves_performs {o : ServerOp} {x : ServerOp.Ans o} (h : performs s t o x u)
    (hv : v ≠ t) : Leaves s u v := by
  rcases o with o | o
  · obtain ⟨services, -, rfl⟩ := h
    have hother : ∀ e ∈ o.events t, e ≠ .accepted v ∧ ∀ r, e ≠ .answered v r := by
      intro e he
      rcases mem_events he with ⟨r, -, rfl⟩ | ⟨-, rfl⟩
      · refine ⟨by simp, ?_⟩
        intro r' h
        cases h
        exact hv rfl
      · simp
    refine ⟨id, rfl, ?_, ?_⟩
    · rw [List.mem_append, or_iff_right]
      intro hmem
      exact (hother _ hmem).1 rfl
    · intro r
      rw [List.mem_append, or_iff_right]
      intro hmem
      exact (hother _ hmem).2 r rfl
  · cases o with
    | claimInitialized =>
      obtain ⟨-, rfl⟩ := h
      split
      · exact ⟨id, rfl, .rfl, fun _ => .rfl⟩
      · exact ⟨fun _ => rfl, rfl, by simp [hv], by simp⟩
    | storeCapabilities c =>
      obtain rfl := h
      exact ⟨id, rfl, .rfl, fun _ => .rfl⟩

/-- Task workers come from an operation that needs the gate open. -/
theorem serve_spawned {initialized : Bool} {services services' : Services} {o : Op} {x : o.Ans}
    (h : serve initialized services o x services') (ho : o.isInvocation = false) :
    services'.spawned = services.spawned := by
  cases o <;> simp_all [serve, Op.isInvocation]

theorem Follows.safe {o : ServerOp} {next : ServerOp.Ans o → Program ServerOp ServerOp.Ans Unit}
    (h : Follows s t (.perform o next)) : s.initialized = true ∨ Safe o :=
  h.gate.imp_right And.left

/-- An event of an operation that a thread may perform next is admitted. -/
theorem admits_of_mem_events {o : Op}
    {next : o.Ans → Program ServerOp ServerOp.Ans Unit} {e : Event} (hI : Gated s)
    (hT : Follows s t (.perform (.inl o) next)) (he : e ∈ o.events t) :
    Admits s.jobs s.history e := by
  rcases mem_events he with ⟨r, rfl, rfl⟩ | ⟨hinv, rfl⟩
  · obtain ⟨job, hjob, hstage⟩ := hT.stage
    refine ⟨job, hjob, ?_⟩
    rintro req rfl hm
    cases hstage with
    | serving hne _ => exact absurd hm (hne req rfl)
    | claiming _ _ _ hp =>
      obtain ⟨-, _, hp, -⟩ := hp
      cases hp
    | granted _ hacc hp => exact .inl ⟨hacc, hp.1⟩
    | refused _ hacc hp => exact .inr ⟨hacc, hp.1⟩
  · rcases hT.safe with hinit | hsafe
    · exact hI.accepted.mp hinit
    · rw [Safe, hinv] at hsafe
      cases hsafe

theorem accepted_append_events {o : Op} :
    .accepted v ∈ o.events t ++ s.history ↔ .accepted v ∈ s.history := by
  rw [List.mem_append, or_iff_right]
  intro h
  rcases mem_events h with ⟨r, -, h⟩ | ⟨-, h⟩ <;> cases h

theorem events_cases (o : Op) (t : ℕ) : o.events t = [] ∨ ∃ e, o.events t = [e] := by
  cases o <;> simp [Op.events, Op.isInvocation]

theorem gated_op {o : Op} {next : o.Ans → Program ServerOp ServerOp.Ans Unit} {x : o.Ans}
    {services : Services} (hI : Gated s) (hT : Follows s t (.perform (.inl o) next))
    (h : serve s.initialized s.services o x services) :
    Gated { s with services, history := o.events t ++ s.history } where
  legal := by
    have hadmits : ∀ e ∈ o.events t, Admits s.jobs s.history e := fun e he =>
      admits_of_mem_events hI hT he
    rcases events_cases o t with hnil | ⟨e, he⟩
    · rw [hnil]
      exact hI.legal
    · rw [he] at hadmits ⊢
      exact ⟨hadmits e (by simp), hI.legal⟩
  accepted := by
    rw [hI.accepted]
    exact exists_congr fun v => accepted_append_events.symm
  spawned := by
    intro hinit
    rcases hT.safe with htrue | hsafe
    · rw [show s.initialized = false from hinit] at htrue
      cases htrue
    · rw [serve_spawned h hsafe]
      exact hI.spawned hinit

/-- After a load that read true the gate is open, and after any other operation the thread is
still guarded. -/
theorem gate_op {o : Op} {next : o.Ans → Program ServerOp ServerOp.Ans Unit} {x : o.Ans}
    {services : Services} (hT : Follows s t (.perform (.inl o) next))
    (h : serve s.initialized s.services o x services) :
    s.initialized = true ∨ (next x).Guarded Opens Safe := by
  rcases hT.gate with hinit | hguarded
  · exact .inl hinit
  · rcases hguarded.2 x with hopens | hnext
    · cases o with
      | loadInitialized =>
        obtain ⟨rfl, -⟩ := h
        exact .inl hopens
      | _ => exact hopens.elim
    · exact .inr hnext

theorem follows_op {o : Op} {next : o.Ans → Program ServerOp ServerOp.Ans Unit} {x : o.Ans}
    {services : Services} (hT : Follows s t (.perform (.inl o) next))
    (h : serve s.initialized s.services o x services) :
    Follows { s with services, history := o.events t ++ s.history } t (next x) := by
  have hgate := gate_op hT h
  refine ⟨hgate, ?_⟩
  obtain ⟨job, hjob, hstage⟩ := hT.stage
  refine ⟨job, hjob, ?_⟩
  cases hstage with
  | serving hm hp => exact .serving hm (hp.2 x)
  | claiming _ _ _ hp =>
    obtain ⟨-, _, hp, -⟩ := hp
    cases hp
  | granted hm hacc hp => exact .granted hm (accepted_append_events.mpr hacc) (hp.2 x)
  | refused hm hacc hp =>
    refine .refused hm ?_ (hp.2 x)
    rwa [accepted_append_events]

/-- Only an initialize that has not claimed the slot yet does so. -/
theorem claims_of_follows {next : Bool → Program ServerOp ServerOp.Ans Unit}
    (hT : Follows s t (.perform (.inr .claimInitialized) next)) :
    ∃ req, s.jobs t = some (.request req) ∧ req.method = methodInitialize ∧
      .accepted t ∉ s.history ∧ (∀ r, .answered t r ∉ s.history) ∧ WellFormed req ∧
      (next true).Only Grants ∧ (next false).Only Refuses := by
  obtain ⟨job, hjob, hstage⟩ := hT.stage
  cases hstage with
  | serving _ hp => exact hp.1.elim
  | @claiming req hm hacc hans hp =>
    obtain ⟨hwell, next', heq, hgrants, hrefuses⟩ := hp
    cases heq
    exact ⟨req, hjob, hm, hacc, hans, hwell, hgrants, hrefuses⟩
  | granted _ _ hp => exact hp.1.elim
  | refused _ _ hp => exact hp.1.elim

theorem keeps_claim {next : Bool → Program ServerOp ServerOp.Ans Unit} {x : Bool} (hI : Gated s)
    (hT : Follows s t (.perform (.inr .claimInitialized) next))
    (h : performs s t (.inr .claimInitialized) x u) : Gated u ∧ Follows u t (next x) := by
  obtain ⟨req, hjob, hm, hacc, hans, hwell, hgrants, hrefuses⟩ := claims_of_follows hT
  obtain ⟨rfl, rfl⟩ := h
  cases hinit : s.initialized with
  | true =>
    simp only [if_true, Bool.not_true]
    exact ⟨hI, .inl hinit, _, hjob, .refused hm hacc hrefuses⟩
  | false =>
    have hnone : ∀ v, .accepted v ∉ s.history := by
      intro v hv
      rw [hI.accepted.mpr ⟨v, hv⟩] at hinit
      cases hinit
    simp only [Bool.false_eq_true, if_false, Bool.not_false]
    refine ⟨⟨⟨⟨hnone, hans, req, hjob, hm, hwell⟩, hI.legal⟩, ?_, ?_⟩, .inl rfl, _, hjob, ?_⟩
    · exact ⟨fun _ => ⟨t, by simp⟩, fun _ => rfl⟩
    · intro h
      cases h
    · exact .granted hm (by simp) hgrants

/-- The capabilities are stored by the initialize that has been accepted. -/
theorem granted_of_follows {c : ClientCapabilities}
    {next : Unit → Program ServerOp ServerOp.Ans Unit}
    (hT : Follows s t (.perform (.inr (.storeCapabilities c)) next)) :
    ∃ req, s.jobs t = some (.request req) ∧ req.method = methodInitialize ∧
      .accepted t ∈ s.history ∧ (next ()).Only Grants := by
  obtain ⟨job, hjob, hstage⟩ := hT.stage
  cases hstage with
  | serving _ hp => exact hp.1.elim
  | claiming _ _ _ hp =>
    obtain ⟨-, _, hp, -⟩ := hp
    cases hp
  | @granted req hm hacc hp => exact ⟨req, hjob, hm, hacc, hp.2 ()⟩
  | refused _ _ hp => exact hp.1.elim

theorem keeps_performs {o : ServerOp} {next : ServerOp.Ans o → Program ServerOp ServerOp.Ans Unit}
    {x : ServerOp.Ans o} (hI : Gated s) (hT : Follows s t (.perform o next))
    (h : performs s t o x u) : Gated u ∧ Follows u t (next x) := by
  rcases o with o | o
  · obtain ⟨services, hserve, rfl⟩ := h
    exact ⟨gated_op hI hT hserve, follows_op hT hserve⟩
  · cases o with
    | claimInitialized => exact keeps_claim hI hT h
    | storeCapabilities c =>
      obtain ⟨req, hjob, hm, hacc, hgrants⟩ := granted_of_follows hT
      obtain rfl := h
      exact ⟨⟨hI.legal, hI.accepted, hI.spawned⟩, .inl (hI.accepted.mpr ⟨t, hacc⟩), _, hjob,
        .granted hm hacc hgrants⟩

theorem follows_request (hI : Gated s) (ht : s.jobs t = none) (req : JsonRpcRequest) :
    Follows { s with jobs := Function.update s.jobs t (some (.request req)) } t
      (serveRequest jsonWhat cfg req) := by
  refine ⟨.inr guarded_serveRequest, .request req, by simp, ?_⟩
  by_cases hm : req.method = methodInitialize
  · rcases serveRequest_initialize hm with hrefuses | hclaims
    · exact .refused hm (hI.legal.not_accepted ht) hrefuses
    · exact .claiming hm (hI.legal.not_accepted ht) (fun r => hI.legal.not_answered ht) hclaims
  · refine .serving ?_ (serveRequest_serves hm)
    rintro req' h
    cases h
    exact hm

theorem keeps_starts (hI : Gated s) (h : Starts jsonWhat cfg s t p u) :
    Gated u ∧ Follows u t p := by
  cases h with
  | request req ht =>
    exact ⟨⟨hI.legal.update ht, hI.accepted, hI.spawned⟩, follows_request hI ht req⟩
  | @task pre w post ht hspawned =>
    have hinit : s.initialized = true := by
      cases hinit : s.initialized with
      | true => rfl
      | false => simp [hI.spawned hinit] at hspawned
    refine ⟨⟨hI.legal.update ht, hI.accepted, ?_⟩, .inl hinit, .task w, by simp, ?_⟩
    · intro h
      rw [hinit] at h
      cases h
    · exact .serving (by simp) (Program.only_embed (fun _ => trivial) _)

theorem leaves_starts (h : Starts jsonWhat cfg s t p u) (hv : v ≠ t) : Leaves s u v := by
  cases h <;> exact ⟨id, by simp [hv], .rfl, fun _ => .rfl⟩

theorem gated_atStart (h : AtStart s) : Gated s := by
  obtain ⟨hinit, hspawned, -, hhistory⟩ := h
  refine ⟨?_, ?_, fun _ => hspawned⟩
  · rw [hhistory]
    trivial
  · simp [hinit, hhistory]

theorem inductive_rules : Inductive (rules jsonWhat cfg) AtStart Gated Follows where
  init _ := gated_atStart
  start s t p u hI h := by
    obtain ⟨hI', hT'⟩ := keeps_starts hI h
    exact ⟨hI', hT', fun v q hv hq => hq.leaves (leaves_starts h hv)⟩
  perform s t o next x u hI hT h := by
    obtain ⟨hI', hT'⟩ := keeps_performs hI hT h
    exact ⟨hI', hT', fun v q hv hq => hq.leaves (leaves_performs h hv)⟩
  finish s t a u hI _ h := by
    obtain rfl := h
    exact ⟨hI, fun _ _ _ hq => hq⟩
  other s u hI h := by
    obtain ⟨registry, rfl⟩ := h
    exact ⟨⟨hI.legal, hI.accepted, hI.spawned⟩,
      fun v q hq => hq.leaves ⟨id, rfl, .rfl, fun _ => .rfl⟩⟩

theorem performs_jobs {o : ServerOp} {x : ServerOp.Ans o} (h : performs s t o x u) :
    u.jobs = s.jobs := by
  rcases o with o | o
  · obtain ⟨services, -, rfl⟩ := h
    rfl
  · cases o with
    | claimInitialized =>
      obtain ⟨-, rfl⟩ := h
      split <;> rfl
    | storeCapabilities c =>
      obtain rfl := h
      rfl

/-- What is so wherever the program of a job gets to is so of what is left of it. -/
theorem inductive_always {Q : Job → Prop}
    {P : Job → (o : ServerOp) → (ServerOp.Ans o → Program ServerOp ServerOp.Ans Unit) → Prop}
    (hrequest : ∀ req, Q (.request req) → (serveRequest jsonWhat cfg req).Always (P (.request req)))
    (htask : ∀ w, Q (.task w) → (taskWorker jsonWhat w).embed.Always (P (.task w))) :
    Inductive (rules jsonWhat cfg) AtStart (fun _ => True)
      fun s t p => ∀ job, s.jobs t = some job → Q job → p.Always (P job) where
  init _ _ := trivial
  start s t p u _ h := by
    refine ⟨trivial, ?_, fun v q hv hq job hjob => hq job ((leaves_starts h hv).jobs ▸ hjob)⟩
    intro job hjob hQ
    cases h with
    | request req ht =>
      obtain rfl : .request req = job := by simpa using hjob
      exact hrequest req hQ
    | @task pre w post ht hspawned =>
      obtain rfl : .task w = job := by simpa using hjob
      exact htask w hQ
  perform s t o next x u _ hT h := by
    refine ⟨trivial, ?_, fun v q _ hq job hjob => hq job (performs_jobs h ▸ hjob)⟩
    intro job hjob hQ
    rw [performs_jobs h] at hjob
    exact (hT job hjob hQ).2 x
  finish s t a u _ _ h := by
    obtain rfl := h
    exact ⟨trivial, fun _ _ _ hq => hq⟩
  other s u _ h := by
    obtain ⟨registry, rfl⟩ := h
    exact ⟨trivial, fun _ _ hq => hq⟩

end Steps

def IsInitialize (s : State) (t : ℕ) : Prop :=
  ∃ req, s.jobs t = some (.request req) ∧ req.method = methodInitialize

def Succeeded (s : State) (t : ℕ) : Prop :=
  ∃ r j, .answered t r ∈ s.history ∧ r.outcome = .result j

def Rejected (s : State) (t : ℕ) : Prop :=
  ∃ r e, .answered t r ∈ s.history ∧ r.outcome = .error e

section Runs

variable {jsonWhat : JsonException → String} {cfg : Settings}
  {s s' : Pool State ServerOp ServerOp.Ans Unit} {a : Action} {e : Event}

theorem mem_history_step (h : (server jsonWhat cfg).Step s a s') (he : e ∈ s.shared.history) :
    e ∈ s'.shared.history := by
  cases h with
  | start _ hr => cases hr <;> exact he
  | @perform t o next x u _ hr =>
    rcases o with o | o
    · obtain ⟨services, -, rfl⟩ := hr
      exact List.mem_append_right _ he
    · cases o with
      | claimInitialized =>
        obtain ⟨-, rfl⟩ := hr
        split
        · exact he
        · exact List.mem_cons_of_mem _ he
      | storeCapabilities c =>
        obtain rfl := hr
        exact he
  | finish _ hr =>
    obtain rfl := hr
    exact he
  | other hr =>
    obtain ⟨registry, rfl⟩ := hr
    exact he

theorem mem_history_run (h : (server jsonWhat cfg).Run Free s s') (he : e ∈ s.shared.history) :
    e ∈ s'.shared.history :=
  h.invariant (P := fun s => e ∈ s.shared.history) (fun _ _ _ he _ hs => mem_history_step hs he) he

theorem gated_reachable (hs : (server jsonWhat cfg).Reachable Free s) : Gated s.shared :=
  (inductive_rules.reachable hs).1

/-- `initialized_` and the capabilities are written by an initialize that has been accepted. -/
theorem change_step (hs : (server jsonWhat cfg).Reachable Free s)
    (h : (server jsonWhat cfg).Step s a s')
    (hne : s'.shared.initialized ≠ s.shared.initialized ∨
      s'.shared.clientCapabilities ≠ s.shared.clientCapabilities) :
    ∃ t, a = .perform t ∧ IsInitialize s.shared t ∧ .accepted t ∈ s'.shared.history := by
  obtain ⟨-, hT⟩ := inductive_rules.reachable hs
  cases h with
  | start _ hr => cases hr <;> simp at hne
  | @perform t o next x u hp hr =>
    refine ⟨t, rfl, ?_⟩
    rcases o with o | o
    · obtain ⟨services, -, rfl⟩ := hr
      simp at hne
    · cases o with
      | claimInitialized =>
        obtain ⟨req, hjob, hm, -⟩ := claims_of_follows (hT t _ hp)
        obtain ⟨-, rfl⟩ := hr
        refine ⟨⟨req, hjob, hm⟩, ?_⟩
        cases hinit : s.shared.initialized <;> simp_all
      | storeCapabilities c =>
        obtain ⟨req, hjob, hm, hacc, -⟩ := granted_of_follows (hT t _ hp)
        obtain rfl := hr
        exact ⟨⟨req, hjob, hm⟩, hacc⟩
  | finish _ hr =>
    obtain rfl := hr
    simp at hne
  | other hr =>
    obtain ⟨registry, rfl⟩ := hr
    simp at hne

/-- In every run at most one initialize is answered with a result; what is invoked on behalf of a
request comes after an initialize with well-formed params has been accepted; and whatever writes
`initialized_` or the client capabilities is an initialize that is never rejected. -/
theorem initialization_gate (hs : (server jsonWhat cfg).Reachable Free s) :
    (∀ t u, IsInitialize s.shared t → Succeeded s.shared t → IsInitialize s.shared u →
      Succeeded s.shared u → t = u) ∧
    (∀ later t o earlier, s.shared.history = later ++ .invoked t o :: earlier →
      ∃ u req, .accepted u ∈ earlier ∧ s.shared.jobs u = some (.request req) ∧
        req.method = methodInitialize ∧ WellFormed req) ∧
    (∀ a s', (server jsonWhat cfg).Step s a s' →
      s'.shared.initialized ≠ s.shared.initialized ∨
        s'.shared.clientCapabilities ≠ s.shared.clientCapabilities →
      ∃ t, a = .perform t ∧ IsInitialize s.shared t ∧
        ∀ s'', (server jsonWhat cfg).Run Free s' s'' → ¬Rejected s''.shared t) := by
  have hlegal := (gated_reachable hs).legal
  refine ⟨?_, ?_, ?_⟩
  · rintro t u ⟨req, hreq, hm⟩ ⟨r, j, hr, hj⟩ ⟨req', hreq', hm'⟩ ⟨r', j', hr', hj'⟩
    have ht := hlegal.accepted_of_result hr hreq hm hj
    have hu := hlegal.accepted_of_result hr' hreq' hm' hj'
    exact hlegal.accepted_unique ht hu
  · intro later t o earlier h
    have hsplit := hlegal
    rw [h] at hsplit
    obtain ⟨u, hu⟩ := hsplit.admits
    obtain ⟨req, hreq⟩ := hlegal.request_of_accepted (t := u) (by simp [h, hu])
    exact ⟨u, req, hu, hreq⟩
  · intro a s' hstep hne
    obtain ⟨t, ha, hinit, hacc⟩ := change_step hs hstep hne
    refine ⟨t, ha, hinit, ?_⟩
    rintro s'' hrun ⟨r, e, hr, he⟩
    have hlegal'' := (gated_reachable ((hs.step trivial hstep).run hrun)).legal
    exact hlegal''.not_error_of_accepted (mem_history_run hrun hacc) hr e he

end Runs

/-- A well-formed initialize. -/
def hello : JsonRpcRequest where
  id := .integer 1
  method := methodInitialize
  params := some (.object [("capabilities", .object []),
    ("clientInfo", .object [("name", .string "client"), ("version", .string "1")]),
    ("protocolVersion", .string kLatestProtocolVersion)])

/-- A server that nothing is registered with. -/
def bare : Settings where
  serverInfo := {
    name := "server"
    title := none
    version := "1"
    description := none
    websiteUrl := none
    icons := none
    «meta» := none }
  instructions := none
  pageSize := 0
  tasks := false
  tasksDefaultTtlMs := none
  tasksMaxConcurrent := 0

def atStart : State where
  initialized := false
  clientCapabilities := none
  services := {
    registry := {
      tools := ⟨∅, by decide⟩
      resources := ⟨∅, by decide⟩
      resourceTemplates := ⟨[], by decide⟩
      fallbackResourceHandler := false
      prompts := ⟨∅, by decide⟩
      loggingEnabled := false
      completionHandler := false }
    logLevel := .info
    store := {}
    workersInflight := 0
    spawned := [] }
  jobs _ := none
  history := []

def arrived : State where
  __ := atStart
  jobs := Function.update (fun _ => none) 0 (some (.request hello))

/-- A first initialize gets through, and is then never rejected. -/
theorem hello_accepted : ∃ s s' : Pool State ServerOp ServerOp.Ans Unit,
    (server (fun _ => "") bare).Step s (.perform 0) s' ∧
      s'.shared.initialized ≠ s.shared.initialized ∧
      ∀ s'', (server (fun _ => "") bare).Run Free s' s'' → ¬Rejected s''.shared 0 := by
  have hstart : (server (fun _ => "") bare).Initial ⟨atStart, fun _ => none⟩ :=
    ⟨⟨rfl, rfl, fun _ => rfl, rfl⟩, fun _ => rfl⟩
  have harrive : (server (fun _ => "") bare).Step ⟨atStart, fun _ => none⟩ (.start 0)
      ⟨arrived, Function.update (fun _ => none) 0 (some (serveRequest (fun _ => "") bare hello))⟩ :=
    .start rfl (.request hello rfl)
  obtain ⟨next, hnext⟩ : ∃ next, serveRequest (fun _ => "") bare hello =
      .perform (.inr .claimInitialized) next := ⟨_, rfl⟩
  rw [hnext] at harrive
  have hclaim := Step.perform (R := rules (fun _ => "") bare) (s := ⟨arrived, Function.update
      (fun _ => none) 0 (some (.perform (.inr .claimInitialized) next))⟩) (t := 0)
    (o := .inr .claimInitialized) (x := true)
    (u := { arrived with initialized := true, history := [.accepted 0] })
    rfl ⟨rfl, rfl⟩
  have hinitial : (server (fun _ => "") bare).Reachable Free ⟨atStart, fun _ => none⟩ :=
    .initial hstart
  have hreach := hinitial.step trivial harrive
  obtain ⟨-, -, hchange⟩ := initialization_gate hreach
  obtain ⟨t, ht, -, hnever⟩ := hchange _ _ hclaim (.inl Bool.noConfusion)
  cases ht
  exact ⟨_, _, hclaim, Bool.noConfusion, hnever⟩

end Mcp.Server
