import Mcp.Protocol.Capabilities
import Mcp.Protocol.ContentRoundTrip

/-! What the parties say of themselves in the handshake decodes to what was encoded. -/
namespace Mcp

section Members
variable {α : Type} [ToJson α] [FromJson α] {j : Json} {key : String}

/-- An optional member is read back from where it was written. -/
theorem takeOptional_of_find {value : Option α} (hf : j.find key = value.map Json.of)
    (h : ∀ a ∈ value, Restores a) : takeOptional α j key = .ok value := by
  rw [takeOptional, hf]
  exact engaged_map_of_restores h

end Members

/-- No raw optional member is an engaged null, here and in what is nested. -/
def Implementation.NullFree (i : Implementation) : Prop := i.meta ≠ some .null

structure TasksRequestsCapability.NullFree (c : TasksRequestsCapability) : Prop where
  tools : c.tools ≠ some .null
  sampling : c.sampling ≠ some .null
  elicitation : c.elicitation ≠ some .null

structure TasksCapability.NullFree (c : TasksCapability) : Prop where
  list : c.list ≠ some .null
  cancel : c.cancel ≠ some .null
  requests : ∀ r ∈ c.requests, r.NullFree

structure SamplingCapability.NullFree (c : SamplingCapability) : Prop where
  context : c.context ≠ some .null
  tools : c.tools ≠ some .null

structure ElicitationCapability.NullFree (c : ElicitationCapability) : Prop where
  form : c.form ≠ some .null
  url : c.url ≠ some .null

structure ClientCapabilities.NullFree (c : ClientCapabilities) : Prop where
  experimental : c.experimental ≠ some .null
  sampling : ∀ s ∈ c.sampling, s.NullFree
  elicitation : ∀ e ∈ c.elicitation, e.NullFree
  tasks : ∀ t ∈ c.tasks, t.NullFree

structure ServerCapabilities.NullFree (c : ServerCapabilities) : Prop where
  experimental : c.experimental ≠ some .null
  logging : c.logging ≠ some .null
  completions : c.completions ≠ some .null
  tasks : ∀ t ∈ c.tasks, t.NullFree

structure InitializeRequestParams.NullFree (p : InitializeRequestParams) : Prop where
  capabilities : p.capabilities.NullFree
  clientInfo : p.clientInfo.NullFree

structure InitializeResult.NullFree (r : InitializeResult) : Prop where
  capabilities : r.capabilities.NullFree
  serverInfo : r.serverInfo.NullFree
  «meta» : r.meta ≠ some .null

section Handshake

attribute [local simp] require getAt takeOptional find_putOptional Json.find_set bind Except.bind
  pure Except.pure

theorem restores_implementation {i : Implementation} (hi : i.NullFree) : Restores i := by
  constructor
  · change Implementation.fromJson i.toJson = _
    have hmeta : takeOptionalJson i.toJson "_meta" = i.meta :=
      takeOptionalJson_of_find (by simp [Implementation.toJson]) hi
    simp only [Implementation.fromJson, hmeta]
    simp [Implementation.toJson]
  · change i.toJson.isNull = false
    simp [Implementation.toJson]

theorem restores_tasksRequestsCapability {c : TasksRequestsCapability} (hc : c.NullFree) :
    Restores c := by
  constructor
  · change TasksRequestsCapability.fromJson c.toJson = _
    have htools : takeOptionalJson c.toJson "tools" = c.tools :=
      takeOptionalJson_of_find (by simp [TasksRequestsCapability.toJson]) hc.tools
    have hsampling : takeOptionalJson c.toJson "sampling" = c.sampling :=
      takeOptionalJson_of_find (by simp [TasksRequestsCapability.toJson]) hc.sampling
    have helicitation : takeOptionalJson c.toJson "elicitation" = c.elicitation :=
      takeOptionalJson_of_find (by simp [TasksRequestsCapability.toJson]) hc.elicitation
    simp only [TasksRequestsCapability.fromJson, htools, hsampling, helicitation]
  · change c.toJson.isNull = false
    simp [TasksRequestsCapability.toJson]

theorem restores_tasksCapability {c : TasksCapability} (hc : c.NullFree) : Restores c := by
  constructor
  · change TasksCapability.fromJson c.toJson = _
    have hlist : takeOptionalJson c.toJson "list" = c.list :=
      takeOptionalJson_of_find (by simp [TasksCapability.toJson]) hc.list
    have hcancel : takeOptionalJson c.toJson "cancel" = c.cancel :=
      takeOptionalJson_of_find (by simp [TasksCapability.toJson]) hc.cancel
    have hrequests : takeOptional _ c.toJson "requests" = .ok c.requests :=
      takeOptional_of_find (by simp [TasksCapability.toJson]) fun r hr =>
        restores_tasksRequestsCapability (hc.requests r hr)
    simp only [TasksCapability.fromJson, hlist, hcancel, hrequests]
    rfl
  · change c.toJson.isNull = false
    simp [TasksCapability.toJson]

instance : RoundTrips RootsCapability where
  restores c := by
    constructor
    · change RootsCapability.fromJson c.toJson = _
      simp [RootsCapability.fromJson, RootsCapability.toJson]
    · change c.toJson.isNull = false
      simp [RootsCapability.toJson]

theorem restores_samplingCapability {c : SamplingCapability} (hc : c.NullFree) : Restores c := by
  constructor
  · change SamplingCapability.fromJson c.toJson = _
    have hcontext : takeOptionalJson c.toJson "context" = c.context :=
      takeOptionalJson_of_find (by simp [SamplingCapability.toJson]) hc.context
    have htools : takeOptionalJson c.toJson "tools" = c.tools :=
      takeOptionalJson_of_find (by simp [SamplingCapability.toJson]) hc.tools
    simp only [SamplingCapability.fromJson, hcontext, htools]
  · change c.toJson.isNull = false
    simp [SamplingCapability.toJson]

theorem restores_elicitationCapability {c : ElicitationCapability} (hc : c.NullFree) :
    Restores c := by
  constructor
  · change ElicitationCapability.fromJson c.toJson = _
    have hform : takeOptionalJson c.toJson "form" = c.form :=
      takeOptionalJson_of_find (by simp [ElicitationCapability.toJson]) hc.form
    have hurl : takeOptionalJson c.toJson "url" = c.url :=
      takeOptionalJson_of_find (by simp [ElicitationCapability.toJson]) hc.url
    simp only [ElicitationCapability.fromJson, hform, hurl]
  · change c.toJson.isNull = false
    simp [ElicitationCapability.toJson]

theorem restores_clientCapabilities {c : ClientCapabilities} (hc : c.NullFree) : Restores c := by
  constructor
  · change ClientCapabilities.fromJson c.toJson = _
    have hexperimental : takeOptionalJson c.toJson "experimental" = c.experimental :=
      takeOptionalJson_of_find (by simp [ClientCapabilities.toJson]) hc.experimental
    have hroots : takeOptional _ c.toJson "roots" = .ok c.roots :=
      takeOptional_of_find (by simp [ClientCapabilities.toJson]) fun r _ => RoundTrips.restores r
    have hsampling : takeOptional _ c.toJson "sampling" = .ok c.sampling :=
      takeOptional_of_find (by simp [ClientCapabilities.toJson]) fun s hs =>
        restores_samplingCapability (hc.sampling s hs)
    have helicitation : takeOptional _ c.toJson "elicitation" = .ok c.elicitation :=
      takeOptional_of_find (by simp [ClientCapabilities.toJson]) fun e he =>
        restores_elicitationCapability (hc.elicitation e he)
    have htasks : takeOptional _ c.toJson "tasks" = .ok c.tasks :=
      takeOptional_of_find (by simp [ClientCapabilities.toJson]) fun t ht =>
        restores_tasksCapability (hc.tasks t ht)
    simp only [ClientCapabilities.fromJson, hexperimental, hroots, hsampling, helicitation, htasks]
    rfl
  · change c.toJson.isNull = false
    simp [ClientCapabilities.toJson]

instance : RoundTrips PromptsCapability where
  restores c := by
    constructor
    · change PromptsCapability.fromJson c.toJson = _
      simp [PromptsCapability.fromJson, PromptsCapability.toJson]
    · change c.toJson.isNull = false
      simp [PromptsCapability.toJson]

instance : RoundTrips ResourcesCapability where
  restores c := by
    constructor
    · change ResourcesCapability.fromJson c.toJson = _
      simp [ResourcesCapability.fromJson, ResourcesCapability.toJson]
    · change c.toJson.isNull = false
      simp [ResourcesCapability.toJson]

instance : RoundTrips ToolsCapability where
  restores c := by
    constructor
    · change ToolsCapability.fromJson c.toJson = _
      simp [ToolsCapability.fromJson, ToolsCapability.toJson]
    · change c.toJson.isNull = false
      simp [ToolsCapability.toJson]

theorem restores_serverCapabilities {c : ServerCapabilities} (hc : c.NullFree) : Restores c := by
  constructor
  · change ServerCapabilities.fromJson c.toJson = _
    have hexperimental : takeOptionalJson c.toJson "experimental" = c.experimental :=
      takeOptionalJson_of_find (by simp [ServerCapabilities.toJson]) hc.experimental
    have hlogging : takeOptionalJson c.toJson "logging" = c.logging :=
      takeOptionalJson_of_find (by simp [ServerCapabilities.toJson]) hc.logging
    have hcompletions : takeOptionalJson c.toJson "completions" = c.completions :=
      takeOptionalJson_of_find (by simp [ServerCapabilities.toJson]) hc.completions
    have htasks : takeOptional _ c.toJson "tasks" = .ok c.tasks :=
      takeOptional_of_find (by simp [ServerCapabilities.toJson]) fun t ht =>
        restores_tasksCapability (hc.tasks t ht)
    simp only [ServerCapabilities.fromJson, hexperimental, hlogging, hcompletions, htasks]
    simp [ServerCapabilities.toJson]
  · change c.toJson.isNull = false
    simp [ServerCapabilities.toJson]

theorem restores_initializeRequestParams {p : InitializeRequestParams} (hp : p.NullFree) :
    Restores p := by
  have hcapabilities := restores_clientCapabilities hp.capabilities
  have hclientInfo := restores_implementation hp.clientInfo
  constructor
  · change InitializeRequestParams.fromJson p.toJson = _
    simp [InitializeRequestParams.fromJson, InitializeRequestParams.toJson, hcapabilities.get_of,
      hclientInfo.get_of]
  · change p.toJson.isNull = false
    simp [InitializeRequestParams.toJson]

theorem restores_initializeResult {r : InitializeResult} (hr : r.NullFree) : Restores r := by
  have hcapabilities := restores_serverCapabilities hr.capabilities
  have hserverInfo := restores_implementation hr.serverInfo
  constructor
  · change InitializeResult.fromJson r.toJson = _
    have hmeta : takeOptionalJson r.toJson "_meta" = r.meta :=
      takeOptionalJson_of_find (by simp [InitializeResult.toJson]) hr.meta
    simp only [InitializeResult.fromJson, hmeta]
    simp [InitializeResult.toJson, hcapabilities.get_of, hserverInfo.get_of]
  · change r.toJson.isNull = false
    simp [InitializeResult.toJson]

end Handshake

end Mcp
