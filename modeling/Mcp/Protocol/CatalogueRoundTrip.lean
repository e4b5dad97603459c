import Mcp.Protocol.Catalogue
import Mcp.Protocol.Elicitation
import Mcp.Protocol.HandshakeRoundTrip
import Mcp.Tasks.Store

/-! What a server lists, and the params of the requests about it, decode to what was encoded. -/
namespace Mcp

open Tasks

structure Tool.NullFree (t : Tool) : Prop where
  outputSchema : t.outputSchema ≠ some .null
  «meta» : t.meta ≠ some .null

def Resource.NullFree (r : Resource) : Prop := r.meta ≠ some .null

def ResourceTemplate.NullFree (r : ResourceTemplate) : Prop := r.meta ≠ some .null

def Prompt.NullFree (p : Prompt) : Prop := p.meta ≠ some .null

structure ListToolsResult.NullFree (r : ListToolsResult) : Prop where
  tools : ∀ t ∈ r.tools, t.NullFree
  «meta» : r.meta ≠ some .null

structure ListResourcesResult.NullFree (r : ListResourcesResult) : Prop where
  resources : ∀ x ∈ r.resources, x.NullFree
  «meta» : r.meta ≠ some .null

structure ListResourceTemplatesResult.NullFree (r : ListResourceTemplatesResult) : Prop where
  resourceTemplates : ∀ x ∈ r.resourceTemplates, x.NullFree
  «meta» : r.meta ≠ some .null

structure ListPromptsResult.NullFree (r : ListPromptsResult) : Prop where
  prompts : ∀ p ∈ r.prompts, p.NullFree
  «meta» : r.meta ≠ some .null

def CallToolRequestParams.NullFree (p : CallToolRequestParams) : Prop := p.arguments ≠ some .null

/-- The requested schema of a form is an object. -/
def ElicitRequestParams.ObjectSchema : ElicitRequestParams → Prop
  | .form p => p.requestedSchema.isObject = true
  | .url _ => True

/-- The context arguments are a map: no key is there twice. -/
def CompleteRequestParams.KeysNodup (p : CompleteRequestParams) : Prop :=
  ∀ ctx ∈ p.contextArguments, (ctx.map Prod.fst).Nodup

/-- Equal, the context arguments as maps. -/
structure CompleteRequestParams.Same (p q : CompleteRequestParams) : Prop where
  reference : p.reference = q.reference
  argument : p.argument = q.argument
  contextArguments : Option.Rel List.Perm p.contextArguments q.contextArguments

section Maps
variable {k : String} {kvs : List (String × Json)}

theorem mem_assign {v : Json} {kv : String × Json} (h : kv ∈ Json.assign k v kvs) :
    kv.1 = k ∨ kv ∈ kvs := by
  induction kvs with
  | nil =>
    left
    rw [List.mem_singleton.mp h]
  | cons kw kvs ih =>
    unfold Json.assign at h
    split at h
    · rcases List.mem_cons.mp h with rfl | h
      · exact .inl rfl
      · exact .inr (List.mem_cons_of_mem _ h)
    · split at h
      · rcases List.mem_cons.mp h with rfl | h
        · exact .inl rfl
        · exact .inr h
      · rcases List.mem_cons.mp h with rfl | h
        · exact .inr List.mem_cons_self
        · exact (ih h).imp_right (List.mem_cons_of_mem _)

/-- A new member is one more member, wherever the order of the keys puts it. -/
theorem assign_perm {v : Json} (hk : ∀ kv ∈ kvs, kv.1 ≠ k) :
    (Json.assign k v kvs).Perm ((k, v) :: kvs) := by
  induction kvs with
  | nil => exact .refl _
  | cons kw kvs ih =>
    have hne : ¬k = kw.1 := Ne.symm (hk kw List.mem_cons_self)
    unfold Json.assign
    rw [if_neg hne]
    split
    · exact .refl _
    · have htail := ih fun kv hkv => hk kv (List.mem_cons_of_mem _ hkv)
      exact (htail.cons kw).trans (.swap _ _ _)

/-- The members written one by one are the members read back, up to their order. -/
theorem stringMembers_foldl (m : List (String × String)) (hm : (m.map Prod.fst).Nodup)
    (hk : ∀ kv ∈ kvs, kv.1 ∉ m.map Prod.fst) :
    ∃ kvs', m.foldl putString (.object kvs) = .object kvs' ∧
      (stringMembers kvs').Perm (stringMembers kvs ++ m) := by
  induction m generalizing kvs with
  | nil => exact ⟨kvs, rfl, by simp⟩
  | cons kv m ih =>
    obtain ⟨k, s⟩ := kv
    rw [List.map_cons, List.nodup_cons] at hm
    obtain ⟨kvs', hobject, hperm⟩ := @ih (Json.assign k (.of s) kvs) hm.2 (by
      intro kw hkw
      rcases mem_assign hkw with hkey | hkw
      · rw [hkey]
        exact hm.1
      · exact fun h => hk kw hkw (List.mem_cons_of_mem _ h))
    refine ⟨kvs', hobject, hperm.trans ?_⟩
    have hnew : ∀ kw ∈ kvs, kw.1 ≠ k := by
      rintro kw hkw rfl
      exact hk kw hkw (by simp)
    have hassign : (stringMembers (Json.assign k (.of s) kvs)).Perm
        ((k, s) :: stringMembers kvs) := (assign_perm hnew).filterMap _
    exact (hassign.append_right m).trans List.perm_middle.symm

theorem stringObject_spec {m : List (String × String)} (hm : (m.map Prod.fst).Nodup) :
    ∃ kvs, stringObject m = .object kvs ∧ m.Perm (stringMembers kvs) := by
  obtain ⟨kvs, hobject, hperm⟩ := @stringMembers_foldl [] m hm (by simp)
  exact ⟨kvs, hobject, hperm.symm⟩

end Maps

section Catalogue

attribute [local simp] require getAt takeOptional find_putOptional Json.find_set bind Except.bind
  pure Except.pure

instance : RoundTrips ToolAnnotations where
  restores a := by
    constructor
    · change ToolAnnotations.fromJson a.toJson = _
      simp [ToolAnnotations.fromJson, ToolAnnotations.toJson]
    · change a.toJson.isNull = false
      simp [ToolAnnotations.toJson]

instance : RoundTrips TaskSupport := ⟨fun t => by cases t <;> exact ⟨rfl, rfl⟩⟩

instance : RoundTrips ToolExecution where
  restores e := by
    constructor
    · change ToolExecution.fromJson e.toJson = _
      simp [ToolExecution.fromJson, ToolExecution.toJson]
    · change e.toJson.isNull = false
      simp [ToolExecution.toJson]

theorem restores_tool {t : Tool} (ht : t.NullFree) : Restores t := by
  constructor
  · change Tool.fromJson t.toJson = _
    have houtput : takeOptionalJson t.toJson "outputSchema" = t.outputSchema :=
      takeOptionalJson_of_find (by simp [Tool.toJson]) ht.outputSchema
    have hmeta : takeOptionalJson t.toJson "_meta" = t.meta :=
      takeOptionalJson_of_find (by simp [Tool.toJson]) ht.meta
    simp only [Tool.fromJson, houtput, hmeta]
    simp [Tool.toJson]
  · change t.toJson.isNull = false
    simp [Tool.toJson]

theorem restores_resource {r : Resource} (hr : r.NullFree) : Restores r := by
  constructor
  · change Resource.fromJson r.toJson = _
    have hmeta : takeOptionalJson r.toJson "_meta" = r.meta :=
      takeOptionalJson_of_find (by simp [Resource.toJson]) hr
    simp only [Resource.fromJson, hmeta]
    simp [Resource.toJson]
  · change r.toJson.isNull = false
    simp [Resource.toJson]

theorem restores_resourceTemplate {r : ResourceTemplate} (hr : r.NullFree) : Restores r := by
  constructor
  · change ResourceTemplate.fromJson r.toJson = _
    have hmeta : takeOptionalJson r.toJson "_meta" = r.meta :=
      takeOptionalJson_of_find (by simp [ResourceTemplate.toJson]) hr
    simp only [ResourceTemplate.fromJson, hmeta]
    simp [ResourceTemplate.toJson]
  · change r.toJson.isNull = false
    simp [ResourceTemplate.toJson]

instance : RoundTrips PromptArgument where
  restores a := by
    constructor
    · change PromptArgument.fromJson a.toJson = _
      simp [PromptArgument.fromJson, PromptArgument.toJson]
    · change a.toJson.isNull = false
      simp [PromptArgument.toJson]

theorem restores_prompt {p : Prompt} (hp : p.NullFree) : Restores p := by
  constructor
  · change Prompt.fromJson p.toJson = _
    have hmeta : takeOptionalJson p.toJson "_meta" = p.meta :=
      takeOptionalJson_of_find (by simp [Prompt.toJson]) hp
    simp only [Prompt.fromJson, hmeta]
    simp [Prompt.toJson]
  · change p.toJson.isNull = false
    simp [Prompt.toJson]

/-- The page is read back when its items are, under any name but those of the other members. -/
theorem listResultFromJson_of {α : Type} [ToJson α] [FromJson α] {member : String}
    {page : List α} {nextCursor : Option String} {«meta» : Option Json}
    (hcursor : member ≠ "nextCursor") (hm : member ≠ "_meta") (hpage : ∀ a ∈ page, Restores a)
    (hnull : «meta» ≠ some .null) :
    listResultFromJson α member (listResultToJson member page nextCursor «meta») =
      .ok (page, nextCursor, «meta») := by
  have hitems := (restores_list hpage).get_of
  have hmeta : takeOptionalJson (listResultToJson member page nextCursor «meta») "_meta" = «meta» :=
    takeOptionalJson_of_find (by simp [listResultToJson, hm.symm]) hnull
  simp only [listResultFromJson, hmeta]
  simp [listResultToJson, hcursor, hcursor.symm, hm, hitems]

theorem get_of_listToolsResult {r : ListToolsResult} (hr : r.NullFree) :
    (Json.of r).get ListToolsResult = .ok r := by
  change (listResultFromJson Tool "tools" (listResultToJson "tools" _ _ _) >>= _) = _
  rw [listResultFromJson_of (by decide) (by decide) (fun t ht => restores_tool (hr.tools t ht))
    hr.meta]
  rfl

theorem get_of_listResourcesResult {r : ListResourcesResult} (hr : r.NullFree) :
    (Json.of r).get ListResourcesResult = .ok r := by
  change (listResultFromJson Resource "resources" (listResultToJson "resources" _ _ _) >>= _) = _
  rw [listResultFromJson_of (by decide) (by decide)
    (fun x hx => restores_resource (hr.resources x hx)) hr.meta]
  rfl

theorem get_of_listResourceTemplatesResult {r : ListResourceTemplatesResult} (hr : r.NullFree) :
    (Json.of r).get ListResourceTemplatesResult = .ok r := by
  change (listResultFromJson ResourceTemplate "resourceTemplates"
    (listResultToJson "resourceTemplates" _ _ _) >>= _) = _
  rw [listResultFromJson_of (by decide) (by decide)
    (fun x hx => restores_resourceTemplate (hr.resourceTemplates x hx)) hr.meta]
  rfl

theorem get_of_listPromptsResult {r : ListPromptsResult} (hr : r.NullFree) :
    (Json.of r).get ListPromptsResult = .ok r := by
  change (listResultFromJson Prompt "prompts" (listResultToJson "prompts" _ _ _) >>= _) = _
  rw [listResultFromJson_of (by decide) (by decide)
    (fun p hp => restores_prompt (hr.prompts p hp)) hr.meta]
  rfl

instance : RoundTrips TaskStatus := ⟨fun s => by cases s <;> exact ⟨rfl, rfl⟩⟩

instance : RoundTrips Task where
  restores t := by
    constructor
    · change Task.fromJson t.toJson = _
      simp [Task.fromJson, Task.toJson]
    · change t.toJson.isNull = false
      simp [Task.toJson]

theorem get_of_listTasksResult (r : TaskStore.ListTasksResult) :
    (Json.of r).get TaskStore.ListTasksResult = .ok r := by
  change TaskStore.ListTasksResult.fromJson r.toJson = _
  simp [TaskStore.ListTasksResult.fromJson, TaskStore.ListTasksResult.toJson]

instance : RoundTrips TaskAugmentation where
  restores t := by
    constructor
    · change TaskAugmentation.fromJson t.toJson = _
      simp [TaskAugmentation.fromJson, TaskAugmentation.toJson]
    · change t.toJson.isNull = false
      simp [TaskAugmentation.toJson]

theorem get_of_callToolRequestParams {p : CallToolRequestParams} (hp : p.NullFree) :
    (Json.of p).get CallToolRequestParams = .ok p := by
  change CallToolRequestParams.fromJson p.toJson = _
  have harguments : takeOptionalJson p.toJson "arguments" = p.arguments :=
    takeOptionalJson_of_find (by simp [CallToolRequestParams.toJson]) hp
  simp only [CallToolRequestParams.fromJson, harguments]
  simp [CallToolRequestParams.toJson]

/-- Each kind of reference is written with its own type. -/
instance : RoundTrips CompletionReference where
  restores r := by
    cases r with
    | resourceTemplate r =>
      constructor
      · change CompletionReference.fromJson r.toJson = _
        have hget : r.toJson.get ResourceTemplateReference = .ok r := by
          change ResourceTemplateReference.fromJson r.toJson = _
          simp [ResourceTemplateReference.fromJson, ResourceTemplateReference.toJson]
        have htype : require String r.toJson "type" = .ok "ref/resource" := by
          simp [ResourceTemplateReference.toJson]
        simp only [CompletionReference.fromJson, htype, hget]
        rfl
      · change r.toJson.isNull = false
        simp [ResourceTemplateReference.toJson]
    | prompt r =>
      constructor
      · change CompletionReference.fromJson r.toJson = _
        have hget : r.toJson.get PromptReference = .ok r := by
          change PromptReference.fromJson r.toJson = _
          simp [PromptReference.fromJson, PromptReference.toJson]
        have htype : require String r.toJson "type" = .ok "ref/prompt" := by
          simp [PromptReference.toJson]
        simp only [CompletionReference.fromJson, htype, hget]
        rfl
      · change r.toJson.isNull = false
        simp [PromptReference.toJson]

instance : RoundTrips CompleteArgument where
  restores a := by
    constructor
    · change CompleteArgument.fromJson a.toJson = _
      simp [CompleteArgument.fromJson, CompleteArgument.toJson]
    · change a.toJson.isNull = false
      simp [CompleteArgument.toJson]

theorem get_of_completeRequestParams {p : CompleteRequestParams} (hp : p.KeysNodup) :
    ∃ q, (Json.of p).get CompleteRequestParams = .ok q ∧ p.Same q := by
  obtain ⟨reference, argument, contextArguments⟩ := p
  cases contextArguments with
  | none =>
    refine ⟨⟨reference, argument, none⟩, ?_, ⟨rfl, rfl, .none⟩⟩
    change CompleteRequestParams.fromJson
      (CompleteRequestParams.toJson ⟨reference, argument, none⟩) = _
    simp [CompleteRequestParams.fromJson, CompleteRequestParams.toJson]
  | some ctx =>
    obtain ⟨kvs, hobject, hperm⟩ := stringObject_spec (hp ctx rfl)
    refine ⟨⟨reference, argument, some (stringMembers kvs)⟩, ?_, ⟨rfl, rfl, .some hperm⟩⟩
    change CompleteRequestParams.fromJson
      (CompleteRequestParams.toJson ⟨reference, argument, some ctx⟩) = _
    simp [CompleteRequestParams.fromJson, CompleteRequestParams.toJson, hobject]

theorem get_of_elicitRequestParams {p : ElicitRequestParams} (hp : p.ObjectSchema) :
    (Json.of p).get ElicitRequestParams = .ok p := by
  cases p with
  | form p =>
    change ElicitRequestParams.fromJson p.toJson = _
    have hmode : elicitMode p.toJson = .ok "form" := by
      simp [elicitMode, ElicitFormRequestParams.toJson]
    have hschema : p.requestedSchema.isObject = true := hp
    have hget : p.toJson.get ElicitFormRequestParams = .ok p := by
      change ElicitFormRequestParams.fromJson p.toJson = _
      simp [ElicitFormRequestParams.fromJson, ElicitFormRequestParams.toJson, hschema]
    simp only [ElicitRequestParams.fromJson, hmode, hget]
    rfl
  | url p =>
    change ElicitRequestParams.fromJson p.toJson = _
    have hmode : elicitMode p.toJson = .ok "url" := by
      simp [elicitMode, ElicitUrlRequestParams.toJson]
      rfl
    have hget : p.toJson.get ElicitUrlRequestParams = .ok p := by
      change ElicitUrlRequestParams.fromJson p.toJson = _
      simp [ElicitUrlRequestParams.fromJson, ElicitUrlRequestParams.toJson]
    simp only [ElicitRequestParams.fromJson, hmode, hget]
    rfl

end Catalogue

/-- What is said in the handshake, listed, or asked about what is listed decodes to what was
encoded; the context of a completion, which is a map, to the same map. -/
theorem handshake_and_catalogue_round_trip :
    (∀ p : InitializeRequestParams, p.NullFree →
      (Json.of p).get InitializeRequestParams = .ok p) ∧
    (∀ r : InitializeResult, r.NullFree → (Json.of r).get InitializeResult = .ok r) ∧
    (∀ r : ListToolsResult, r.NullFree → (Json.of r).get ListToolsResult = .ok r) ∧
    (∀ r : ListResourcesResult, r.NullFree → (Json.of r).get ListResourcesResult = .ok r) ∧
    (∀ r : ListResourceTemplatesResult, r.NullFree →
      (Json.of r).get ListResourceTemplatesResult = .ok r) ∧
    (∀ r : ListPromptsResult, r.NullFree → (Json.of r).get ListPromptsResult = .ok r) ∧
    (∀ r : TaskStore.ListTasksResult, (Json.of r).get TaskStore.ListTasksResult = .ok r) ∧
    (∀ p : CompleteRequestParams, p.KeysNodup →
      ∃ q, (Json.of p).get CompleteRequestParams = .ok q ∧ p.Same q) ∧
    (∀ p : CallToolRequestParams, p.NullFree → (Json.of p).get CallToolRequestParams = .ok p) ∧
    (∀ p : ElicitRequestParams, p.ObjectSchema → (Json.of p).get ElicitRequestParams = .ok p) := by
  refine ⟨?_, ?_, ?_, ?_, ?_, ?_, ?_, ?_, ?_, ?_⟩
  · intro p hp
    exact (restores_initializeRequestParams hp).get_of
  · intro r hr
    exact (restores_initializeResult hr).get_of
  · intro r hr
    exact get_of_listToolsResult hr
  · intro r hr
    exact get_of_listResourcesResult hr
  · intro r hr
    exact get_of_listResourceTemplatesResult hr
  · intro r hr
    exact get_of_listPromptsResult hr
  · intro r
    exact get_of_listTasksResult r
  · intro p hp
    exact get_of_completeRequestParams hp
  · intro p hp
    exact get_of_callToolRequestParams hp
  · intro p hp
    exact get_of_elicitRequestParams hp

/-- A client that can be asked for more, with a word on itself. -/
def askedClient : InitializeRequestParams where
  protocolVersion := kLatestProtocolVersion
  capabilities := {
    experimental := none
    roots := some { listChanged := some true }
    sampling := some { context := none, tools := some .emptyObject }
    elicitation := some { form := some .emptyObject, url := none }
    tasks := some {
      list := some .emptyObject
      cancel := none
      requests := some { tools := some .emptyObject, sampling := none, elicitation := none } } }
  clientInfo := {
    name := "cli"
    title := none
    version := "1"
    description := none
    websiteUrl := none
    icons := some [{ src := "data:,", mimeType := none, sizes := none, theme := some "dark" }]
    «meta» := some .emptyObject }

theorem nullFree_askedClient : askedClient.NullFree := by
  refine ⟨⟨nofun, ?_, ?_, ?_⟩, nofun⟩
  · intro s hs
    cases hs
    exact ⟨nofun, nofun⟩
  · intro e he
    cases he
    exact ⟨nofun, nofun⟩
  · intro t ht
    cases ht
    refine ⟨nofun, nofun, ?_⟩
    intro r hr
    cases hr
    exact ⟨nofun, nofun, nofun⟩

/-- A completion that takes another argument into account. -/
def cityCompletion : CompleteRequestParams where
  reference := .prompt { name := "trip", title := none }
  argument := { name := "city", value := "Pa" }
  contextArguments := some [("country", "France")]

theorem askedClient_restored :
    (Json.of askedClient).get InitializeRequestParams = .ok askedClient ∧
      ∃ q, (Json.of cityCompletion).get CompleteRequestParams = .ok q ∧ cityCompletion.Same q := by
  obtain ⟨hhello, _, _, _, _, _, _, hcomplete, _, _⟩ := handshake_and_catalogue_round_trip
  refine ⟨hhello askedClient nullFree_askedClient, hcomplete cityCompletion ?_⟩
  intro ctx hctx
  cases hctx
  simp

end Mcp
