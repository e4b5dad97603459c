import Mcp.Server.TaskResults

/-! What client_capabilities() says, over all the runs of one Server. -/
namespace Mcp.Server

open Tasks Threads Transition

/-- `run` is called, or something happens in a run. -/
inductive Move where
  | run
  | act (a : Action)

/-- `run` stores `initialized_ = false` and leaves the client capabilities. Workers that an earlier
run has left behind go on, and what is configured may change from one run to the next. -/
inductive Lives (jsonWhat : JsonException → String) :
    Pool State ServerOp ServerOp.Ans Unit → Move →
      Pool State ServerOp ServerOp.Ans Unit → Prop where
  | run {s} : Lives jsonWhat s .run
      ⟨{ s.shared with initialized := false, history := [] }, s.thread⟩
  | act {s a s'} (cfg : Settings) : (server jsonWhat cfg).Step s a s' → Lives jsonWhat s (.act a) s'

/-- A Server from its construction on. -/
def lifetime (jsonWhat : JsonException → String) :
    System (Pool State ServerOp ServerOp.Ans Unit) Move where
  Initial s := AtStart s.shared ∧ s.shared.clientCapabilities = none ∧ ∀ t, s.thread t = none
  Step := Lives jsonWhat

/-- Calls of the user's handlers. -/
def Op.isUser : Op → Bool
  | .callTool _ _ | .readResource _ | .getPrompt _ _ | .complete _ => true
  | _ => false

theorem isInvocation_of_isUser {o : Op} (h : o.isUser = true) : o.isInvocation = true := by
  cases o <;> first | rfl | cases h

section Programs

variable {jsonWhat : JsonException → String} {cfg : Settings} {req : JsonRpcRequest}

/-- The jobs that write the client capabilities. -/
def Opening : Job → Prop
  | .request req => req.method = methodInitialize
  | .task _ => False

/-- An initialize that has claimed the slot records what its params say next, once. -/
def Announces : Job → (o : ServerOp) →
    (ServerOp.Ans o → Program ServerOp ServerOp.Ans Unit) → Prop
  | _, .inr .claimInitialized, next =>
    (∃ c rest, next true = .perform (.inr (.storeCapabilities c)) rest) ∧ (next false).Only Serves
  | .request req, .inr (.storeCapabilities c), next =>
    (∃ p, (req.params.getD .null).get InitializeRequestParams = .ok p ∧ p.capabilities = c) ∧
      (next ()).Only Serves
  | _, _, _ => True

theorem announces_serveRequest (h : req.method = methodInitialize) :
    (serveRequest jsonWhat cfg req).Always (Announces (.request req)) := by
  cases hd : decodeParams jsonWhat InitializeRequestParams "invalid initialize params: "
      (req.params.getD .null) with
  | error e =>
    rw [serveRequest_of_method h, handleInitialize_of_error hd]
    exact ⟨trivial, fun _ => trivial⟩
  | ok parsed =>
    rw [serveRequest_of_method h]
    unfold handleInitialize
    rw [hd]
    refine ⟨⟨⟨_, _, rfl⟩, ⟨trivial, fun _ => trivial⟩⟩, ?_⟩
    intro won
    cases won with
    | false => exact ⟨trivial, fun _ => trivial⟩
    | true =>
      refine ⟨⟨⟨parsed, decodeParams_ok hd, rfl⟩, ?_⟩, ?_⟩
      · exact ⟨trivial, fun _ => ⟨trivial, fun _ => ⟨trivial, fun _ => ⟨trivial, fun _ =>
          ⟨trivial, fun _ => ⟨trivial, fun _ => trivial⟩⟩⟩⟩⟩⟩
      · exact fun _ => ⟨trivial, fun _ => ⟨trivial, fun _ => ⟨trivial, fun _ => ⟨trivial, fun _ =>
          ⟨trivial, fun _ => ⟨trivial, fun _ => trivial⟩⟩⟩⟩⟩⟩

theorem inductive_announces : Inductive (rules jsonWhat cfg) AtStart (fun _ => True)
    fun s t p => ∀ job, s.jobs t = some job → Opening job → p.Always (Announces job) :=
  inductive_always (fun _ hm => announces_serveRequest hm) fun _ hw => hw.elim

end Programs

section Runs

variable {jsonWhat : JsonException → String} {cfg : Settings}
  {s s' : Pool State ServerOp ServerOp.Ans Unit} {a : Action} {t : ℕ} {c : ClientCapabilities}

/-- Thread `t` is about to record the capabilities. -/
def AtStore (s : Pool State ServerOp ServerOp.Ans Unit) (t : ℕ) : Prop :=
  ∃ c next, s.thread t = some (.perform (.inr (.storeCapabilities c)) next)

/-- Thread `t` serves an initialize, accepted in this run, that advertises `c`. -/
def Advertised (s : Pool State ServerOp ServerOp.Ans Unit) (t : ℕ) (c : ClientCapabilities) :
    Prop :=
  .accepted t ∈ s.shared.history ∧ ∃ req p, s.shared.jobs t = some (.request req) ∧
    req.method = methodInitialize ∧
    (req.params.getD .null).get InitializeRequestParams = .ok p ∧ p.capabilities = c

/-- Thread `t` calls a user's handler next. -/
def CallsUser (s : Pool State ServerOp ServerOp.Ans Unit) (t : ℕ) : Prop :=
  ∃ o next, s.thread t = some (.perform (.inl o) next) ∧ o.isUser = true

/-- No run begins after an initialize has been accepted in an earlier one, and no user's handler is
called between the compare_exchange of handle_initialize and its store. -/
def Undisturbed (s : Pool State ServerOp ServerOp.Ans Unit) : Move → Prop
  | .run => s.shared.initialized = false
  | .act a => ∀ t u, a = .perform t → CallsUser s t → .accepted u ∈ s.shared.history →
      ¬AtStore s u

/-- What is known of a Server without its capabilities. -/
structure Known (s : Pool State ServerOp ServerOp.Ans Unit) : Prop where
  gated : Gated s.shared
  follows : ∀ t p, s.thread t = some p → Follows s.shared t p
  announces : ∀ t p, s.thread t = some p → ∀ job, s.shared.jobs t = some job → Opening job →
    p.Always (Announces job)

/-- The invariant of the client capabilities. -/
structure Told (s : Pool State ServerOp ServerOp.Ans Unit) : Prop where
  before : s.shared.initialized = false → s.shared.clientCapabilities = none
  after : ∀ t, .accepted t ∈ s.shared.history →
    (AtStore s t ∧ s.shared.clientCapabilities = none) ∨
      (∀ p, s.thread t = some p → p.Only Serves) ∧
        ∃ c, Advertised s t c ∧ s.shared.clientCapabilities = some c

theorem known_step (hk : Known s) (hs : (server jsonWhat cfg).Step s a s') : Known s' := by
  obtain ⟨hgated, hfollows⟩ := inductive_rules.step ⟨hk.gated, hk.follows⟩ hs
  exact ⟨hgated, hfollows, (inductive_announces.step ⟨trivial, hk.announces⟩ hs).2⟩

/-- Nothing has been accepted yet: a new run is the old one. -/
theorem known_run (hk : Known s) (hinit : s.shared.initialized = false) :
    Known ⟨{ s.shared with initialized := false, history := [] }, s.thread⟩ := by
  have hnone : ∀ t, .accepted t ∉ s.shared.history := by
    intro t ht
    rw [hk.gated.accepted.mpr ⟨t, ht⟩] at hinit
    cases hinit
  refine ⟨⟨trivial, by simp, fun _ => hk.gated.spawned hinit⟩, ?_, hk.announces⟩
  intro t p hp
  obtain ⟨hgate, job, hjob, hstage⟩ := hk.follows t p hp
  refine ⟨?_, job, hjob, ?_⟩
  · rw [hinit] at hgate
    exact .inr (hgate.resolve_left Bool.noConfusion)
  · cases hstage with
    | serving hm hp => exact .serving hm hp
    | claiming hm _ _ hp => exact .claiming hm (by simp) (by simp) hp
    | granted _ hacc _ => exact absurd hacc (hnone t)
    | refused hm _ hp => exact .refused hm (by simp) hp

/-- A step that leaves the capabilities alone, and takes no thread to its store. -/
theorem Told.frame (h : Told s) (hinit : s'.shared.initialized = s.shared.initialized)
    (hcaps : s'.shared.clientCapabilities = s.shared.clientCapabilities)
    (hacc : ∀ v, .accepted v ∈ s'.shared.history → .accepted v ∈ s.shared.history)
    (hjobs : ∀ v, .accepted v ∈ s.shared.history → s'.shared.jobs v = s.shared.jobs v)
    (hthread : ∀ v, .accepted v ∈ s.shared.history → s'.thread v = s.thread v ∨
      ¬AtStore s v ∧ ∀ q, s'.thread v = some q → q.Only Serves) : Told s' := by
  constructor
  · rw [hinit, hcaps]
    exact h.before
  · intro v hv
    have hv' := hacc v hv
    rw [hcaps]
    rcases h.after v hv' with ⟨hstore, hnone⟩ | ⟨honly, c, ⟨-, req, p, hjob, hreq⟩, hsome⟩
    · rcases hthread v hv' with hsame | ⟨hnot, -⟩
      · left
        obtain ⟨c, next, hc⟩ := hstore
        exact ⟨⟨c, next, hsame.trans hc⟩, hnone⟩
      · exact absurd hstore hnot
    · right
      refine ⟨?_, c, ⟨hv, req, p, (hjobs v hv').trans hjob, hreq⟩, hsome⟩
      intro q hq
      rcases hthread v hv' with hsame | ⟨-, hserves⟩
      · exact honly q (hsame.symm.trans hq)
      · exact hserves q hq

theorem not_accepted_of_new (hk : Known s) (hjob : s.shared.jobs t = none) {v : ℕ}
    (hv : .accepted v ∈ s.shared.history) : v ≠ t := by
  rintro rfl
  obtain ⟨req, hreq, -⟩ := hk.gated.legal.request_of_accepted hv
  simp [hjob] at hreq

theorem told_start {p : Program ServerOp ServerOp.Ans Unit} {u : State} (hk : Known s)
    (ht : Told s) (hr : Starts jsonWhat cfg s.shared t p u) :
    Told ⟨u, Function.update s.thread t (some p)⟩ := by
  have hjob : s.shared.jobs t = none := by cases hr <;> assumption
  have hne := fun v => not_accepted_of_new (v := v) hk hjob
  refine ht.frame ?_ ?_ ?_ ?_ fun v hv => .inl (Function.update_of_ne (hne v hv) _ _)
  · cases hr <;> rfl
  · cases hr <;> rfl
  · cases hr <;> exact fun _ => id
  · intro v hv
    cases hr <;> exact Function.update_of_ne (hne v hv) _ _

/-- What an accepted initialize does before and after its store serves nothing else. -/
theorem Told.serves (h : Told s) {o : Op} {next : o.Ans → Program ServerOp ServerOp.Ans Unit}
    (hp : s.thread t = some (.perform (.inl o) next)) (ht : .accepted t ∈ s.shared.history)
    (x : o.Ans) : (next x).Only Serves := by
  rcases h.after t ht with ⟨⟨c, next', hc⟩, -⟩ | ⟨honly, -⟩
  · cases hp.symm.trans hc
  · exact (honly _ hp).2 x

theorem told_op {o : Op} {next : o.Ans → Program ServerOp ServerOp.Ans Unit} {x : o.Ans}
    {services : Services} (ht : Told s) (hp : s.thread t = some (.perform (.inl o) next)) :
    Told ⟨{ s.shared with services, history := o.events t ++ s.shared.history },
      Function.update s.thread t (some (next x))⟩ := by
  refine ht.frame rfl rfl (fun v hv => accepted_append_events.mp hv) (fun _ _ => rfl) ?_
  intro v hv
  by_cases hvt : v = t
  · subst v
    refine .inr ⟨?_, ?_⟩
    · rintro ⟨c, next', hc⟩
      cases hp.symm.trans hc
    · intro q hq
      obtain rfl : next x = q := by simpa using hq
      exact ht.serves hp hv x
  · exact .inl (Function.update_of_ne hvt _ _)

theorem told_claim {next : Bool → Program ServerOp ServerOp.Ans Unit} {x : Bool} {u : State}
    (hk : Known s) (ht : Told s) (hp : s.thread t = some (.perform (.inr .claimInitialized) next))
    (hr : performs s.shared t (.inr .claimInitialized) x u) :
    Told ⟨u, Function.update s.thread t (some (next x))⟩ := by
  obtain ⟨req, hjob, hm, hacc, -⟩ := claims_of_follows (hk.follows t _ hp)
  obtain ⟨⟨c, rest, hnext⟩, -⟩ := (hk.announces t _ hp _ hjob hm).1
  obtain ⟨rfl, rfl⟩ := hr
  cases hinit : s.shared.initialized with
  | true =>
    rw [if_pos rfl]
    refine ht.frame rfl rfl (fun _ => id) (fun _ _ => rfl) fun v hv => .inl ?_
    have hvt : v ≠ t := fun h => hacc (h ▸ hv)
    exact Function.update_of_ne hvt _ _
  | false =>
    have hnone : ∀ v, .accepted v ∉ s.shared.history := by
      intro v hv
      rw [hk.gated.accepted.mpr ⟨v, hv⟩] at hinit
      cases hinit
    simp only [Bool.false_eq_true, if_false, Bool.not_false]
    constructor
    · intro h
      cases h
    · intro v hv
      obtain rfl : v = t := by simpa [hnone] using hv
      refine .inl ⟨⟨c, rest, ?_⟩, ht.before hinit⟩
      rw [← hnext]
      exact Function.update_self _ _ _

theorem told_store {next : Unit → Program ServerOp ServerOp.Ans Unit} (hk : Known s)
    (hp : s.thread t = some (.perform (.inr (.storeCapabilities c)) next)) :
    Told ⟨{ s.shared with clientCapabilities := some c },
      Function.update s.thread t (some (next ()))⟩ := by
  obtain ⟨req, hjob, hm, hacc, -⟩ := granted_of_follows (hk.follows t _ hp)
  obtain ⟨⟨p, hget, hc⟩, honly⟩ := (hk.announces t _ hp _ hjob hm).1
  constructor
  · intro hinit
    have hinit' : s.shared.initialized = false := hinit
    rw [hk.gated.accepted.mpr ⟨t, hacc⟩] at hinit'
    cases hinit'
  · intro v hv
    obtain rfl : t = v := hk.gated.legal.accepted_unique hacc hv
    refine .inr ⟨?_, c, ⟨hacc, req, p, hjob, hm, hget, hc⟩, rfl⟩
    intro q hq
    obtain rfl : next () = q := by simpa using hq
    exact honly

theorem told_step (hk : Known s) (ht : Told s) (hs : (server jsonWhat cfg).Step s a s') :
    Told s' := by
  cases hs with
  | start _ hr => exact told_start hk ht hr
  | @perform t o next x u hp hr =>
    rcases o with o | o
    · obtain ⟨services, -, rfl⟩ := hr
      exact told_op ht hp
    · cases o with
      | claimInitialized => exact told_claim hk ht hp hr
      | storeCapabilities c =>
        obtain rfl := hr
        exact told_store hk hp
  | @finish t v u hp hr =>
    obtain rfl := hr
    refine ht.frame rfl rfl (fun _ => id) (fun _ _ => rfl) ?_
    intro v hv
    by_cases hvt : v = t
    · subst v
      refine .inr ⟨?_, by simp⟩
      rintro ⟨c, next, hc⟩
      cases hp.symm.trans hc
    · exact .inl (Function.update_of_ne hvt _ _)
  | other hr =>
    obtain ⟨registry, rfl⟩ := hr
    exact ht.frame rfl rfl (fun _ => id) (fun _ _ => rfl) fun _ _ => .inl rfl

theorem told_reachable (h : (lifetime jsonWhat).Reachable Undisturbed s) : Known s ∧ Told s := by
  refine h.invariant (P := fun s => Known s ∧ Told s) ?_ ?_
  · rintro s ⟨hstart, hcaps, hnone⟩
    have hnever : ∀ t, .accepted t ∉ s.shared.history := by simp [hstart.2.2.2]
    refine ⟨⟨gated_atStart hstart, by simp [hnone], by simp [hnone]⟩, fun _ => hcaps, ?_⟩
    exact fun t ht => absurd ht (hnever t)
  · rintro s m s' - ⟨hk, ht⟩ hok hst
    cases hst with
    | run => exact ⟨known_run hk hok, fun _ => ht.before hok, by simp⟩
    | act cfg hst => exact ⟨known_step hk hst, told_step hk ht hst⟩

theorem initialized_of_callsUser (hk : Known s) (hu : CallsUser s t) :
    s.shared.initialized = true := by
  obtain ⟨o, next, hp, ho⟩ := hu
  rcases (hk.follows t _ hp).safe with hinit | hsafe
  · exact hinit
  · rw [Safe, isInvocation_of_isUser ho] at hsafe
    cases hsafe

/-- In every run of this kind, over all the calls of `run`: client_capabilities() is empty until an
initialize of the current run has recorded its capabilities, and gives those from then on; and a
user's handler is called only then. -/
theorem client_capabilities_truthful (jsonWhat : JsonException → String)
    (s : Pool State ServerOp ServerOp.Ans Unit)
    (hs : (lifetime jsonWhat).Reachable Undisturbed s) :
    ((∀ t, .accepted t ∈ s.shared.history → AtStore s t) →
      s.shared.clientCapabilities = none) ∧
    (∀ t, .accepted t ∈ s.shared.history → ¬AtStore s t →
      ∃ c, Advertised s t c ∧ s.shared.clientCapabilities = some c) ∧
    ∀ t s', Undisturbed s (.act (.perform t)) → Lives jsonWhat s (.act (.perform t)) s' →
      CallsUser s t → ∃ u c, Advertised s u c ∧ s.shared.clientCapabilities = some c := by
  obtain ⟨hk, ht⟩ := told_reachable hs
  have hrecorded : ∀ t, .accepted t ∈ s.shared.history → ¬AtStore s t →
      ∃ c, Advertised s t c ∧ s.shared.clientCapabilities = some c := by
    intro t hacc hnot
    exact ((ht.after t hacc).resolve_left fun h => hnot h.1).2
  refine ⟨?_, hrecorded, ?_⟩
  · intro hall
    cases hinit : s.shared.initialized with
    | false => exact ht.before hinit
    | true =>
      obtain ⟨t, hacc⟩ := hk.gated.accepted.mp hinit
      rcases ht.after t hacc with ⟨-, hnone⟩ | ⟨honly, -⟩
      · exact hnone
      · obtain ⟨c, next, hc⟩ := hall t hacc
        exact (honly _ hc).1.elim
  · intro t s' hok _ hu
    obtain ⟨u, hacc⟩ := hk.gated.accepted.mp (initialized_of_callsUser hk hu)
    exact ⟨u, hrecorded u hacc (hok t u rfl hu hacc)⟩

end Runs

section Hello

variable {ok : Pool State ServerOp ServerOp.Ans Unit → Move → Prop}
  {s : Pool State ServerOp ServerOp.Ans Unit} {t : ℕ}

theorem request_lives (hs : (lifetime fun _ => "").Reachable ok s) (req : JsonRpcRequest)
    (hok : ok s (.act (.start t))) (ht : s.thread t = none) (hjob : s.shared.jobs t = none) :
    (lifetime fun _ => "").Reachable ok
      ⟨{ s.shared with jobs := Function.update s.shared.jobs t (some (.request req)) },
        Function.update s.thread t (some (serveRequest (fun _ => "") taskServer req))⟩ :=
  hs.step hok (.act taskServer (.start ht (.request req hjob)))

theorem op_lives (hs : (lifetime fun _ => "").Reachable ok s) (o : ServerOp) (x : ServerOp.Ans o)
    {u : State} {next : ServerOp.Ans o → Program ServerOp ServerOp.Ans Unit}
    (hok : ok s (.act (.perform t))) (ht : s.thread t = some (.perform o next))
    (h : performs s.shared t o x u) :
    (lifetime fun _ => "").Reachable ok ⟨u, Function.update s.thread t (some (next x))⟩ :=
  hs.step hok (.act taskServer (.perform ht h))

theorem finish_lives (hs : (lifetime fun _ => "").Reachable ok s) (hok : ok s (.act (.finish t)))
    (ht : s.thread t = some (.done ())) :
    (lifetime fun _ => "").Reachable ok ⟨s.shared, Function.update s.thread t none⟩ :=
  hs.step hok (.act taskServer (.finish ht rfl))

def noCapabilities : ClientCapabilities where
  experimental := none
  roots := none
  sampling := none
  elicitation := none
  tasks := none

theorem run_lives (hs : (lifetime fun _ => "").Reachable ok s) (hok : ok s .run) :
    (lifetime fun _ => "").Reachable ok
      ⟨{ s.shared with initialized := false, history := [] }, s.thread⟩ := hs.step hok .run

theorem withEcho_lives (hok : ok ⟨withEcho, fun _ => none⟩ .run) :
    (lifetime fun _ => "").Reachable ok ⟨withEcho, fun _ => none⟩ :=
  run_lives (.initial ⟨⟨rfl, rfl, fun _ => rfl, rfl⟩, rfl, fun _ => rfl⟩) hok

/-- A first initialize is told. -/
theorem hello_recorded : ∃ (s : Pool State ServerOp ServerOp.Ans Unit) (c : ClientCapabilities),
    Advertised s 0 c ∧ s.shared.clientCapabilities = some c := by
  have h₀ : (lifetime fun _ => "").Reachable Undisturbed _ := withEcho_lives rfl
  have h₁ := request_lives (t := 0) h₀ hello (by rintro t u ⟨⟩) rfl rfl
  have h₂ := op_lives (t := 0) h₁ (.inr .claimInitialized) true
    (by rintro t u ⟨⟩ ⟨o, next, hp, -⟩; cases hp) rfl ⟨rfl, rfl⟩
  have h₃ := op_lives (t := 0) h₂ (.inr (.storeCapabilities noCapabilities)) ()
    (by rintro t u ⟨⟩ ⟨o, next, hp, -⟩; cases hp) rfl rfl
  obtain ⟨-, hrecorded, -⟩ := client_capabilities_truthful _ _ h₃
  obtain ⟨c, hc⟩ := hrecorded 0 (List.mem_singleton_self _) (by rintro ⟨c, next, hc⟩; cases hc)
  exact ⟨_, c, hc⟩

/-- A second run shows the capabilities of the first one's client; and a tool is called while an
initialize has been accepted and its capabilities are not recorded yet. -/
theorem capabilities_of_another_run :
    (∃ s : Pool State ServerOp ServerOp.Ans Unit, (lifetime fun _ => "").Reachable Free s ∧
      (∀ t, s.thread t = none ∧ .accepted t ∉ s.shared.history) ∧
      s.shared.clientCapabilities = some noCapabilities) ∧
    ∃ s : Pool State ServerOp ServerOp.Ans Unit, (lifetime fun _ => "").Reachable Free s ∧
      .accepted 0 ∈ s.shared.history ∧ CallsUser s 1 ∧ s.shared.clientCapabilities = none := by
  have h₀ : (lifetime fun _ => "").Reachable Free _ := withEcho_lives trivial
  have h₁ := request_lives (t := 0) h₀ hello trivial rfl rfl
  have h₂ := op_lives (t := 0) h₁ (.inr .claimInitialized) true trivial rfl ⟨rfl, rfl⟩
  constructor
  · have h₃ := op_lives (t := 0) h₂ (.inr (.storeCapabilities noCapabilities)) () trivial rfl rfl
    have h₄ := op_lives (t := 0) h₃ (.inl .read) withEcho.services.registry trivial rfl
      ⟨_, ⟨rfl, rfl⟩, rfl⟩
    have h₅ := op_lives (t := 0) h₄ (.inl .read) withEcho.services.registry trivial rfl
      ⟨_, ⟨rfl, rfl⟩, rfl⟩
    have h₆ := op_lives (t := 0) h₅ (.inl .read) withEcho.services.registry trivial rfl
      ⟨_, ⟨rfl, rfl⟩, rfl⟩
    have h₇ := op_lives (t := 0) h₆ (.inl .read) withEcho.services.registry trivial rfl
      ⟨_, ⟨rfl, rfl⟩, rfl⟩
    have h₈ := op_lives (t := 0) h₇ (.inl .read) withEcho.services.registry trivial rfl
      ⟨_, ⟨rfl, rfl⟩, rfl⟩
    have h₉ := op_lives (t := 0) h₈ (.inl (.respond _)) () trivial rfl ⟨_, rfl, rfl⟩
    have h₁₀ := finish_lives (t := 0) h₉ trivial rfl
    have h₁₁ := run_lives h₁₀ trivial
    refine ⟨_, h₁₁, fun t => ⟨?_, List.not_mem_nil⟩, rfl⟩
    simp only [Function.update_idem]
    rcases eq_or_ne t 0 with rfl | hne
    · exact Function.update_self _ _ _
    · exact Function.update_of_ne hne _ _
  · have h₃ := request_lives (t := 1) h₂ callPlain trivial rfl rfl
    have h₄ := op_lives (t := 1) h₃ (.inl .loadInitialized) true trivial rfl
      ⟨_, ⟨rfl, rfl⟩, rfl⟩
    have h₅ := op_lives (t := 1) h₄ (.inl .read) withEcho.services.registry trivial rfl
      ⟨_, ⟨rfl, rfl⟩, rfl⟩
    exact ⟨_, h₅, List.mem_singleton_self _, ⟨_, _, rfl, rfl⟩, rfl⟩

end Hello

end Mcp.Server
