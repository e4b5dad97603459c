import Mcp.Server.Run

/-! No handler runs before an initialize has been accepted, and at most one is. -/
namespace Mcp.Server

open Tasks Threads Transition

/-- The operations that are allowed before initialization. -/
def Safe : ServerOp → Prop
  | .inl o => o.isInvocation = false
  | .inr _ => True

/-- A load of `initialized_` that read true. -/
def Opens : (o : ServerOp) → ServerOp.Ans o → Prop
  | .inl .loadInitialized, x => x = true
  | _, _ => False

abbrev Guarded {α : Type} (h : Handler α) : Prop :=
  h.run.Guarded (fun o => Opens (.inl o)) fun o => Safe (.inl o)

/-- What follows the check need not be looked at. -/
theorem guarded_requireInitialized {α : Type} (f : Unit → Handler α) :
    Guarded (requireInitialized >>= f) := by
  refine ⟨rfl, ?_⟩
  intro x
  cases x with
  | true => exact .inl rfl
  | false => exact .inr trivial

theorem guarded_handleList {α : Type} (cfg : Settings) (collect : Registry → StdVector α)
    (result : List α → Option String → Json) (params : Json) :
    Guarded (handleList cfg collect result params) := by
  unfold handleList
  exact guarded_requireInitialized _

theorem guarded_except {α : Type} (r : Except Exception α) : Guarded (liftM r) := trivial

theorem guarded_call {o : Op} (h : o.isInvocation = false) : Guarded (call o) :=
  ⟨h, fun _ => .inr trivial⟩

theorem guarded_bind {α β : Type} {x : Handler α} {f : α → Handler β} (hx : Guarded x)
    (hf : ∀ a, Guarded (f a)) : Guarded (x >>= f) := by
  apply Program.guarded_bind hx
  intro r
  cases r with
  | ok a => exact hf a
  | error e => trivial

theorem guarded_handleSetLevel (jsonWhat : JsonException → String) (params : Json) :
    Guarded (handleSetLevel jsonWhat params) := by
  unfold handleSetLevel
  refine guarded_bind (guarded_call rfl) ?_
  intro registry
  have hrest : Guarded (do
      let parsed ← decodeParams jsonWhat SetLevelRequestParams "invalid logging/setLevel: " params
      let _ ← call (.storeLogLevel parsed.level)
      return Json.emptyObject) :=
    guarded_bind (guarded_except _) fun parsed =>
      guarded_bind (guarded_call rfl) fun _ => trivial
  split
  · exact guarded_bind (guarded_except _) fun _ => hrest
  · exact hrest

/-- Every registered handler but handle_initialize performs nothing unsafe before it has read
`initialized_` to be true. -/
theorem guarded_serviceHandlers (jsonWhat : JsonException → String) (cfg : Settings) :
    ∀ entry ∈ serviceHandlers jsonWhat cfg, ∀ params, Guarded (entry.2 params) := by
  unfold serviceHandlers
  rw [List.forall_mem_append]
  constructor
  · simp only [List.forall_mem_cons]
    refine ⟨fun _ => guarded_handleList .., fun _ => guarded_requireInitialized _,
      fun _ => guarded_handleList .., fun _ => guarded_handleList ..,
      fun _ => guarded_requireInitialized _, fun _ => guarded_handleList ..,
      fun _ => guarded_requireInitialized _, fun _ => trivial, guarded_handleSetLevel jsonWhat,
      fun _ => guarded_requireInitialized _, List.forall_mem_nil _⟩
  · split
    · simp only [List.forall_mem_cons]
      exact ⟨fun _ => guarded_requireInitialized _, fun _ => guarded_requireInitialized _,
        fun _ => guarded_requireInitialized _, fun _ => guarded_requireInitialized _,
        List.forall_mem_nil _⟩
    · exact List.forall_mem_nil _

/-- Operations other than those of handle_initialize. -/
def Serves : ServerOp → Prop
  | .inl _ => True
  | .inr _ => False

/-- What an initialize does once it has claimed the slot: it answers with a result. -/
def Grants : ServerOp → Prop
  | .inl (.respond r) => ∃ j, r.outcome = .result j
  | .inl o => o.isInvocation = false
  | .inr .claimInitialized => False
  | .inr (.storeCapabilities _) => True

/-- What a rejected initialize does: it writes nothing and answers with an error. -/
def Refuses : ServerOp → Prop
  | .inl (.respond r) => ∃ e, r.outcome = .error e
  | .inl o => o.isInvocation = false
  | .inr _ => False

def WellFormed (req : JsonRpcRequest) : Prop :=
  ∃ p, (req.params.getD .null).get InitializeRequestParams = .ok p

/-- An initialize about to claim the slot: what it does then depends on whether it gets it. -/
def Claims (req : JsonRpcRequest) (p : Program ServerOp ServerOp.Ans Unit) : Prop :=
  WellFormed req ∧ ∃ next, p = .perform (.inr .claimInitialized) next ∧
    (next true).Only Grants ∧ (next false).Only Refuses

section Programs

variable {jsonWhat : JsonException → String} {cfg : Settings} {req : JsonRpcRequest}

theorem outcomeOf_error (e : Exception) : ∃ e', outcomeOf jsonWhat (.error e) = .error e' := by
  cases e <;> exact ⟨_, rfl⟩

theorem decodeParams_ok {α : Type} [FromJson α] {text : String} {params : Json} {a : α}
    (h : decodeParams jsonWhat α text params = .ok a) : params.get α = .ok a := by
  unfold decodeParams at h
  split at h
  · next hget =>
    cases h
    exact hget
  · split at h <;> cases h

theorem serveRequest_of_method (h : req.method = methodInitialize) :
    serveRequest jsonWhat cfg req =
      (handleInitialize jsonWhat cfg (req.params.getD .null)).run.bind fun r =>
        performServer (.inl (.respond (respondTo jsonWhat req (some r)))) := by
  simp only [serveRequest, requestHandler, h, if_true]
  rfl

theorem handleInitialize_of_error {params : Json} {e : Exception}
    (h : decodeParams jsonWhat InitializeRequestParams "invalid initialize params: " params =
      .error e) : (handleInitialize jsonWhat cfg params).run = .done (.error e) := by
  unfold handleInitialize
  rw [h]
  rfl

/-- An initialize is refused for its params, or goes on to claim the slot. -/
theorem serveRequest_initialize (h : req.method = methodInitialize) :
    (serveRequest jsonWhat cfg req).Only Refuses ∨ Claims req (serveRequest jsonWhat cfg req) := by
  cases hd : decodeParams jsonWhat InitializeRequestParams "invalid initialize params: "
      (req.params.getD .null) with
  | error e =>
    left
    rw [serveRequest_of_method h, handleInitialize_of_error hd]
    obtain ⟨e', he'⟩ : ∃ e', outcomeOf jsonWhat (.error e) = .error e' := outcomeOf_error e
    exact ⟨⟨e', he'⟩, fun _ => trivial⟩
  | ok parsed =>
    right
    refine ⟨⟨parsed, decodeParams_ok hd⟩, ?_⟩
    rw [serveRequest_of_method h]
    unfold handleInitialize
    rw [hd]
    refine ⟨_, rfl, ?_, ?_⟩
    · exact ⟨trivial, fun _ => ⟨rfl, fun _ => ⟨rfl, fun _ => ⟨rfl, fun _ =>
        ⟨rfl, fun _ => ⟨rfl, fun _ => ⟨⟨_, rfl⟩, fun _ => trivial⟩⟩⟩⟩⟩⟩⟩
    · exact ⟨⟨_, rfl⟩, fun _ => trivial⟩

theorem safe_of_grants {o : ServerOp} (h : Grants o) : Safe o := by
  rcases o with o | o
  · cases o <;> first | exact h | rfl
  · trivial

theorem safe_of_refuses {o : ServerOp} (h : Refuses o) : Safe o := by
  rcases o with o | o
  · cases o <;> first | exact h | rfl
  · trivial

theorem requestHandler_cases {handler : Json → ServerHandler Json}
    (h : req.method ≠ methodInitialize)
    (hh : requestHandler jsonWhat cfg req.method = some handler) :
    ∃ entry ∈ serviceHandlers jsonWhat cfg,
      handler = fun params => ExceptT.mk (entry.2 params).run.embed := by
  simp only [requestHandler, h, if_false, Option.map_eq_some_iff] at hh
  obtain ⟨entry, hfind, rfl⟩ := hh
  exact ⟨entry, List.mem_of_find?_eq_some hfind, rfl⟩

theorem serveRequest_serves (h : req.method ≠ methodInitialize) :
    (serveRequest jsonWhat cfg req).Only Serves := by
  unfold serveRequest
  split
  · exact ⟨trivial, fun _ => trivial⟩
  · next handler hh =>
    obtain ⟨entry, -, rfl⟩ := requestHandler_cases h hh
    exact Program.only_bind (Program.only_embed (fun _ => trivial) _)
      fun _ => ⟨trivial, fun _ => trivial⟩

theorem guarded_serveRequest : (serveRequest jsonWhat cfg req).Guarded Opens Safe := by
  by_cases h : req.method = methodInitialize
  · rcases serveRequest_initialize h with hrefuses | ⟨-, next, hp, hgrants, hrefuses⟩
    · exact Program.guarded_of_only (Program.only_mono (fun _ => safe_of_refuses) hrefuses)
    · rw [hp]
      refine ⟨trivial, fun won => .inr ?_⟩
      cases won with
      | true => exact Program.guarded_of_only (Program.only_mono (fun _ => safe_of_grants) hgrants)
      | false =>
        exact Program.guarded_of_only (Program.only_mono (fun _ => safe_of_refuses) hrefuses)
  · unfold serveRequest
    split
    · exact ⟨rfl, fun _ => .inr trivial⟩
    · next handler hh =>
      obtain ⟨entry, hentry, rfl⟩ := requestHandler_cases h hh
      exact Program.guarded_bind
        (Program.guarded_embed (guarded_serviceHandlers jsonWhat cfg entry hentry _))
        fun _ => ⟨rfl, fun _ => .inr trivial⟩

end Programs

end Mcp.Server
