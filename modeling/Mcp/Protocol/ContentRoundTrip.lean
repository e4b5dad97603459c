import Mcp.Protocol.Content
import Mcp.Protocol.RoundTrip

/-! Content blocks and the results built from them decode to what was encoded. -/
namespace Mcp

/-- The value is read back as it was written, and is not written as null, which an optional
member would take for absent. -/
structure Restores {α : Type} [ToJson α] [FromJson α] (a : α) : Prop where
  get_of : (Json.of a).get α = .ok a
  isNull_of : (Json.of a).isNull = false

/-- A type all of whose values are read back. -/
class RoundTrips (α : Type) [ToJson α] [FromJson α] : Prop where
  restores (a : α) : Restores a

section Readers
variable {α : Type} [ToJson α] [FromJson α]

@[simp] theorem get_of [RoundTrips α] (a : α) : (Json.of a).get α = .ok a :=
  (RoundTrips.restores a).get_of

omit [ToJson α] in
theorem engaged_of_isNull {v : Json} (h : v.isNull = false) :
    engaged α (some v) = (v.get α).map some := by
  cases v with
  | null => cases h
  | _ => rfl

theorem engaged_map_of_restores {value : Option α} (h : ∀ a ∈ value, Restores a) :
    engaged α (value.map Json.of) = .ok value := by
  cases value with
  | none => rfl
  | some a =>
    obtain ⟨hget, hnull⟩ := h a rfl
    change engaged α (some (Json.of a)) = _
    rw [engaged_of_isNull hnull, hget]
    rfl

@[simp] theorem engaged_map [RoundTrips α] (value : Option α) :
    engaged α (value.map Json.of) = .ok value :=
  engaged_map_of_restores fun a _ => RoundTrips.restores a

/-- A list is read back when its elements are. -/
theorem mapM_get_of_restores {xs : List α} (h : ∀ a ∈ xs, Restores a) :
    (xs.map Json.of).mapM (Json.get α) = .ok xs := by
  induction xs with
  | nil => rfl
  | cons a xs ih =>
    have ha := (h a (by simp)).get_of
    have hs := ih fun b hb => h b (by simp [hb])
    simp [List.mapM_cons, ha, hs, bind, Except.bind, pure, Except.pure]

theorem restores_list {xs : List α} (h : ∀ a ∈ xs, Restores a) : Restores xs where
  get_of := mapM_get_of_restores h
  isNull_of := rfl

instance [RoundTrips α] : RoundTrips (List α) :=
  ⟨fun _ => restores_list fun a _ => RoundTrips.restores a⟩

@[simp] theorem mapM_get [RoundTrips α] (xs : List α) :
    xs.mapM (Json.get α ∘ Json.of) = .ok xs := by
  have h := mapM_get_of_restores fun (a : α) (_ : a ∈ xs) => RoundTrips.restores a
  simpa using h

end Readers

@[simp] theorem map_of_json (value : Option Json) : value.map Json.of = value := by
  cases value <;> rfl

instance : RoundTrips String := ⟨fun _ => ⟨rfl, rfl⟩⟩
instance : RoundTrips Bool := ⟨fun _ => ⟨rfl, rfl⟩⟩
instance : RoundTrips ℚ := ⟨fun _ => ⟨rfl, rfl⟩⟩
instance : RoundTrips Int64 := ⟨fun _ => ⟨rfl, rfl⟩⟩
instance : RoundTrips Role := ⟨fun r => by cases r <;> exact ⟨rfl, rfl⟩⟩

/-- No raw optional member is an engaged null, which the wire cannot tell from an absent one. -/
def ResourceLink.NullFree (r : ResourceLink) : Prop := r.meta ≠ some .null

def PlainContentBlock.NullFree : PlainContentBlock → Prop
  | .resourceLink r => r.NullFree
  | _ => True

def ContentBlock.NullFree : ContentBlock → Prop
  | .resourceLink r => r.NullFree
  | .toolResult c => ∀ b ∈ c.content, b.NullFree
  | _ => True

def SamplingMessage.NullFree (m : SamplingMessage) : Prop := ∀ b ∈ m.content, b.NullFree

def CreateMessageResult.NullFree (r : CreateMessageResult) : Prop :=
  (∀ b ∈ r.content, b.NullFree) ∧ r.meta ≠ some .null

def CallToolResult.NullFree (r : CallToolResult) : Prop :=
  (∀ b ∈ r.content, b.NullFree) ∧ r.structuredContent ≠ some .null ∧ r.meta ≠ some .null

def PromptMessage.NullFree (m : PromptMessage) : Prop := m.content.NullFree

def GetPromptResult.NullFree (r : GetPromptResult) : Prop :=
  (∀ m ∈ r.messages, m.NullFree) ∧ r.meta ≠ some .null

section Blocks

attribute [local simp] require getAt takeOptional find_putOptional Json.find_set bind Except.bind
  pure Except.pure

instance : RoundTrips Icon where
  restores c := by
    constructor
    · change Icon.fromJson c.toJson = _
      simp [Icon.fromJson, Icon.toJson]
    · change c.toJson.isNull = false
      simp [Icon.toJson]

instance : RoundTrips Annotations where
  restores a := by
    obtain ⟨audience, priority, lastModified⟩ := a
    constructor
    · change Annotations.fromJson (Annotations.toJson _) = _
      cases audience <;> simp [Annotations.fromJson, Annotations.toJson, Annotations.readAudience]
    · change (Annotations.toJson _).isNull = false
      cases audience <;> simp [Annotations.toJson]

instance : RoundTrips TextContent where
  restores c := by
    constructor
    · change TextContent.fromJson c.toJson = _
      simp [TextContent.fromJson, TextContent.toJson]
    · change c.toJson.isNull = false
      simp [TextContent.toJson]

instance : RoundTrips ImageContent where
  restores c := by
    constructor
    · change ImageContent.fromJson c.toJson = _
      simp [ImageContent.fromJson, ImageContent.toJson]
    · change c.toJson.isNull = false
      simp [ImageContent.toJson]

instance : RoundTrips AudioContent where
  restores c := by
    constructor
    · change AudioContent.fromJson c.toJson = _
      simp [AudioContent.fromJson, AudioContent.toJson]
    · change c.toJson.isNull = false
      simp [AudioContent.toJson]

instance : RoundTrips TextResourceContents where
  restores c := by
    constructor
    · change TextResourceContents.fromJson c.toJson = _
      simp [TextResourceContents.fromJson, TextResourceContents.toJson]
    · change c.toJson.isNull = false
      simp [TextResourceContents.toJson]

instance : RoundTrips BlobResourceContents where
  restores c := by
    constructor
    · change BlobResourceContents.fromJson c.toJson = _
      simp [BlobResourceContents.fromJson, BlobResourceContents.toJson]
    · change c.toJson.isNull = false
      simp [BlobResourceContents.toJson]

/-- The member that tells the kinds apart is there for the one kind only. -/
instance : RoundTrips ResourceContents where
  restores c := by
    cases c with
    | text c =>
      constructor
      · change ResourceContents.fromJson (.of c) = _
        have htext : (Json.of c).contains "text" = true := by
          change c.toJson.contains "text" = true
          simp [TextResourceContents.toJson, Json.contains]
        simp [ResourceContents.fromJson, htext]
      · exact (RoundTrips.restores c).isNull_of
    | blob c =>
      constructor
      · change ResourceContents.fromJson (.of c) = _
        have htext : (Json.of c).contains "text" = false := by
          change c.toJson.contains "text" = false
          simp [BlobResourceContents.toJson, Json.contains]
        have hblob : (Json.of c).contains "blob" = true := by
          change c.toJson.contains "blob" = true
          simp [BlobResourceContents.toJson, Json.contains]
        simp [ResourceContents.fromJson, htext, hblob]
      · exact (RoundTrips.restores c).isNull_of

instance : RoundTrips EmbeddedResource where
  restores c := by
    constructor
    · change EmbeddedResource.fromJson c.toJson = _
      simp [EmbeddedResource.fromJson, EmbeddedResource.toJson]
    · change c.toJson.isNull = false
      simp [EmbeddedResource.toJson]

instance : RoundTrips ToolUseContent where
  restores c := by
    constructor
    · change ToolUseContent.fromJson c.toJson = _
      simp [ToolUseContent.fromJson, ToolUseContent.toJson]
    · change c.toJson.isNull = false
      simp [ToolUseContent.toJson]

theorem restores_resourceLink {r : ResourceLink} (hr : r.NullFree) : Restores r := by
  constructor
  · change ResourceLink.fromJson r.toJson = _
    have hmeta : takeOptionalJson r.toJson "_meta" = r.meta :=
      takeOptionalJson_of_find (by simp [ResourceLink.toJson]) hr
    simp only [ResourceLink.fromJson, hmeta]
    simp [ResourceLink.toJson]
  · change r.toJson.isNull = false
    simp [ResourceLink.toJson]

@[simp] theorem find_type_textContent (c : TextContent) :
    (Json.of c).find "type" = some (.of "text") := by
  change c.toJson.find "type" = _
  simp [TextContent.toJson]

@[simp] theorem find_type_imageContent (c : ImageContent) :
    (Json.of c).find "type" = some (.of "image") := by
  change c.toJson.find "type" = _
  simp [ImageContent.toJson]

@[simp] theorem find_type_audioContent (c : AudioContent) :
    (Json.of c).find "type" = some (.of "audio") := by
  change c.toJson.find "type" = _
  simp [AudioContent.toJson]

@[simp] theorem find_type_resourceLink (c : ResourceLink) :
    (Json.of c).find "type" = some (.of "resource_link") := by
  change c.toJson.find "type" = _
  simp [ResourceLink.toJson]

@[simp] theorem find_type_embeddedResource (c : EmbeddedResource) :
    (Json.of c).find "type" = some (.of "resource") := by
  change c.toJson.find "type" = _
  simp [EmbeddedResource.toJson]

@[simp] theorem find_type_toolUseContent (c : ToolUseContent) :
    (Json.of c).find "type" = some (.of "tool_use") := by
  change c.toJson.find "type" = _
  simp [ToolUseContent.toJson]

@[simp] theorem find_type_toolResultContent (c : ToolResultContent) :
    (Json.of c).find "type" = some (.of "tool_result") := by
  change c.toJson.find "type" = _
  simp [ToolResultContent.toJson]

theorem restores_plainContentBlock {b : PlainContentBlock} (hb : b.NullFree) : Restores b := by
  cases b with
  | resourceLink r =>
    have hr := restores_resourceLink hb
    constructor
    · change PlainContentBlock.fromJson (.of r) = _
      simp [PlainContentBlock.fromJson, hr.get_of]
    · exact hr.isNull_of
  | _ c =>
    constructor
    · change PlainContentBlock.fromJson (.of c) = _
      simp [PlainContentBlock.fromJson]
    · exact (RoundTrips.restores c).isNull_of

theorem restores_toolResultContent {c : ToolResultContent} (hc : ∀ b ∈ c.content, b.NullFree) :
    Restores c := by
  have hcontent := restores_list fun b hb => restores_plainContentBlock (hc b hb)
  constructor
  · change ToolResultContent.fromJson c.toJson = _
    simp [ToolResultContent.fromJson, ToolResultContent.toJson, hcontent.get_of]
  · change c.toJson.isNull = false
    simp [ToolResultContent.toJson]

theorem restores_contentBlock {b : ContentBlock} (hb : b.NullFree) : Restores b := by
  cases b with
  | resourceLink r =>
    have hr := restores_resourceLink hb
    constructor
    · change ContentBlock.fromJson (.of r) = _
      simp [ContentBlock.fromJson, hr.get_of]
    · exact hr.isNull_of
  | toolResult c =>
    have hc := restores_toolResultContent hb
    constructor
    · change ContentBlock.fromJson (.of c) = _
      simp [ContentBlock.fromJson, hc.get_of]
    · exact hc.isNull_of
  | _ c =>
    constructor
    · change ContentBlock.fromJson (.of c) = _
      simp [ContentBlock.fromJson]
    · exact (RoundTrips.restores c).isNull_of

/-- A block is written as an object, so it cannot be taken for a list of blocks. -/
theorem isObject_of_contentBlock (b : ContentBlock) : (Json.of b).isObject = true := by
  have hfind : ((Json.of b).find "type").isSome = true := by
    cases b with
    | _ c =>
      change ((Json.of c).find "type").isSome = true
      simp
  cases hj : Json.of b <;> simp_all [Json.find, Json.isObject]

theorem samplingContentFromJson_of {j : Json} {content : List ContentBlock}
    (hj : j.find "content" = some (samplingContentToJson content))
    (h : ∀ b ∈ content, b.NullFree) : samplingContentFromJson j = .ok content := by
  have hb : ∀ b ∈ content, Restores b := fun b hb => restores_contentBlock (h b hb)
  unfold samplingContentFromJson
  match content with
  | [] => simp [hj, samplingContentToJson, Json.of, ToJson.toJson]
  | [b] =>
    have hget := (hb b (by simp)).get_of
    have hobject := isObject_of_contentBlock b
    simp only [getAt, hj, samplingContentToJson, get_json, bind, Except.bind]
    cases hj : Json.of b with
    | object kvs => simp [← hj, hget]
    | _ => simp [hj, Json.isObject] at hobject
  | b :: b' :: content =>
    have hmap := mapM_get_of_restores hb
    simpa [hj, samplingContentToJson, Json.of, ToJson.toJson] using hmap

theorem restores_samplingMessage {m : SamplingMessage} (hm : m.NullFree) : Restores m := by
  constructor
  · change SamplingMessage.fromJson m.toJson = _
    have hcontent : samplingContentFromJson m.toJson = .ok m.content :=
      samplingContentFromJson_of (by simp [SamplingMessage.toJson]) hm
    simp only [SamplingMessage.fromJson, hcontent]
    simp [SamplingMessage.toJson]
  · change m.toJson.isNull = false
    simp [SamplingMessage.toJson]

theorem restores_createMessageResult {r : CreateMessageResult} (hr : r.NullFree) :
    Restores r := by
  constructor
  · change CreateMessageResult.fromJson r.toJson = _
    have hcontent : samplingContentFromJson r.toJson = .ok r.content :=
      samplingContentFromJson_of (by simp [CreateMessageResult.toJson]) hr.1
    have hmeta : takeOptionalJson r.toJson "_meta" = r.meta :=
      takeOptionalJson_of_find (by simp [CreateMessageResult.toJson]) hr.2
    simp only [CreateMessageResult.fromJson, hcontent, hmeta]
    simp [CreateMessageResult.toJson]
  · change r.toJson.isNull = false
    simp [CreateMessageResult.toJson]

theorem restores_callToolResult {r : CallToolResult} (hr : r.NullFree) : Restores r := by
  obtain ⟨hblocks, hstructured, hm⟩ := hr
  have hcontent := restores_list fun b hb => restores_contentBlock (hblocks b hb)
  constructor
  · change CallToolResult.fromJson r.toJson = _
    have hsc : takeOptionalJson r.toJson "structuredContent" = r.structuredContent :=
      takeOptionalJson_of_find (by simp [CallToolResult.toJson]) hstructured
    have hmeta : takeOptionalJson r.toJson "_meta" = r.meta :=
      takeOptionalJson_of_find (by simp [CallToolResult.toJson]) hm
    simp only [CallToolResult.fromJson, hsc, hmeta]
    simp [CallToolResult.toJson, hcontent.get_of]
  · change r.toJson.isNull = false
    simp [CallToolResult.toJson]

theorem restores_promptMessage {m : PromptMessage} (hm : m.NullFree) : Restores m := by
  have hcontent := restores_contentBlock hm
  constructor
  · change PromptMessage.fromJson m.toJson = _
    simp [PromptMessage.fromJson, PromptMessage.toJson, hcontent.get_of]
  · change m.toJson.isNull = false
    simp [PromptMessage.toJson]

theorem restores_getPromptResult {r : GetPromptResult} (hr : r.NullFree) : Restores r := by
  have hmessages := restores_list fun m hm => restores_promptMessage (hr.1 m hm)
  constructor
  · change GetPromptResult.fromJson r.toJson = _
    have hmeta : takeOptionalJson r.toJson "_meta" = r.meta :=
      takeOptionalJson_of_find (by simp [GetPromptResult.toJson]) hr.2
    simp only [GetPromptResult.fromJson, hmeta]
    simp [GetPromptResult.toJson, hmessages.get_of]
  · change r.toJson.isNull = false
    simp [GetPromptResult.toJson]

end Blocks

/-- Decoding the encoding of a content value gives the value back, for a block of any kind and
for every message and result made of blocks. -/
theorem content_round_trip :
    (∀ b : ContentBlock, b.NullFree → (Json.of b).get ContentBlock = .ok b) ∧
    (∀ m : SamplingMessage, m.NullFree → (Json.of m).get SamplingMessage = .ok m) ∧
    (∀ r : CreateMessageResult, r.NullFree → (Json.of r).get CreateMessageResult = .ok r) ∧
    (∀ r : CallToolResult, r.NullFree → (Json.of r).get CallToolResult = .ok r) ∧
    (∀ m : PromptMessage, m.NullFree → (Json.of m).get PromptMessage = .ok m) ∧
    (∀ r : GetPromptResult, r.NullFree → (Json.of r).get GetPromptResult = .ok r) := by
  refine ⟨?_, ?_, ?_, ?_, ?_, ?_⟩
  · intro b hb
    exact (restores_contentBlock hb).get_of
  · intro m hm
    exact (restores_samplingMessage hm).get_of
  · intro r hr
    exact (restores_createMessageResult hr).get_of
  · intro r hr
    exact (restores_callToolResult hr).get_of
  · intro m hm
    exact (restores_promptMessage hm).get_of
  · intro r hr
    exact (restores_getPromptResult hr).get_of

/-- A tool result that links to a resource. -/
def linkedResult : ContentBlock :=
  .toolResult {
    toolUseId := "call-1"
    content := [
      .text { text := "see", annotations := none },
      .resourceLink {
        uri := "file:///log"
        name := "log"
        title := none
        description := none
        mimeType := some "text/plain"
        annotations := some { audience := some [.user], priority := some 1, lastModified := none }
        size := some 12
        icons := some [{ src := "data:,", mimeType := none, sizes := none, theme := none }]
        «meta» := some .emptyObject }]
    isError := some false
    annotations := none }

theorem nullFree_linkedResult : linkedResult.NullFree := by
  intro b hb
  simp only [List.mem_cons, List.not_mem_nil, or_false] at hb
  rcases hb with rfl | rfl
  · trivial
  · nofun

/-- The link comes back in a tool result, alone in a sampling message. -/
theorem linkedResult_read_back :
    (Json.of linkedResult).get ContentBlock = .ok linkedResult ∧
    (Json.of (SamplingMessage.mk .user [linkedResult])).get SamplingMessage =
      .ok ⟨.user, [linkedResult]⟩ := by
  constructor
  · exact content_round_trip.1 linkedResult nullFree_linkedResult
  · apply content_round_trip.2.1
    intro b hb
    obtain rfl : b = linkedResult := by simpa using hb
    exact nullFree_linkedResult

end Mcp
