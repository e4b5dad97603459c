import Mcp.Protocol.Capabilities
import Mcp.Protocol.Elicitation
import Mcp.Protocol.Sampling

/-! What the decoders of request params throw: a `std::exception`, always. -/
namespace Mcp

/-- Not thrown: anything that is no `std::exception`. -/
def Standard {α : Type} (r : Except Exception α) : Prop := r ≠ .error .other

/-- `get<T>()` throws nothing but `std::exception`s. -/
class StandardDecoder (α : Type) [FromJson α] : Prop where
  standard (j : Json) : Standard (j.get α)

section Readers

variable {α β : Type} {r : Except Exception α} {f : α → Except Exception β}

@[simp] theorem standard_ok (a : α) : Standard (.ok a : Except Exception α) := nofun

@[simp] theorem standard_pure (a : α) : Standard (pure a : Except Exception α) := nofun

@[simp] theorem standard_raise (code : Int32) (message : String) :
    Standard (raise code message : Except Exception α) := nofun

@[simp] theorem standard_json (e : JsonException) :
    Standard (.error (.json e) : Except Exception α) := nofun

@[simp] theorem standard_bind :
    Standard (r >>= f) ↔ Standard r ∧ ∀ a, r = .ok a → Standard (f a) := by
  cases r with
  | ok a => simp [bind, Except.bind]
  | error e => simp [Standard, bind, Except.bind]

@[simp] theorem standard_map {g : α → β} : Standard (g <$> r) ↔ Standard r := by
  cases r <;> simp [Standard, Functor.map, Except.map]

@[simp] theorem standard_ite {c : Prop} [Decidable c] {r' : Except Exception α} :
    Standard (if c then r else r') ↔ (c → Standard r) ∧ (¬c → Standard r') := by
  split <;> simp_all

variable [FromJson α] [StandardDecoder α]

@[simp] theorem standard_get (j : Json) : Standard (j.get α) := StandardDecoder.standard j

@[simp] theorem standard_require (j : Json) (key : String) : Standard (require α j key) := by
  unfold require
  split <;> simp

@[simp] theorem standard_getAt (j : Json) (key : String) : Standard (getAt α j key) := by
  unfold getAt
  split <;> simp

@[simp] theorem standard_takeOptional (j : Json) (key : String) :
    Standard (takeOptional α j key) := by
  unfold takeOptional engaged
  split <;> simp

@[simp] theorem standard_mapM (xs : List Json) : Standard (xs.mapM (Json.get α)) := by
  induction xs with
  | nil => simp
  | cons x xs ih => simp [List.mapM_cons, ih]

@[simp] theorem standard_takeArray (j : Json) (key : String) : Standard (takeArray α j key) := by
  unfold takeArray
  split <;> simp

end Readers

section Scalars

instance : StandardDecoder Json where
  standard _ := standard_ok _

instance : StandardDecoder String where
  standard j := by cases j <;> exact nofun

instance : StandardDecoder Bool where
  standard j := by cases j <;> exact nofun

instance : StandardDecoder Int64 where
  standard j := by cases j <;> exact nofun

instance : StandardDecoder ℚ where
  standard j := by cases j <;> exact nofun

instance {α : Type} [FromJson α] [StandardDecoder α] : StandardDecoder (List α) where
  standard j := by
    cases j with
    | array xs => exact standard_mapM xs
    | _ => exact nofun

end Scalars

section Content

instance : StandardDecoder Icon where
  standard j := by
    change Standard (Icon.fromJson j)
    simp [Icon.fromJson]

instance : StandardDecoder Role where
  standard j := by
    change Standard (j.get String >>= roleFromString)
    simp [roleFromString]

@[simp] theorem standard_readAudience (j : Json) : Standard (Annotations.readAudience j) := by
  unfold Annotations.readAudience
  split <;> simp

instance : StandardDecoder Annotations where
  standard j := by
    change Standard (Annotations.fromJson j)
    simp [Annotations.fromJson]

instance : StandardDecoder TextContent where
  standard j := by
    change Standard (TextContent.fromJson j)
    simp [TextContent.fromJson]

instance : StandardDecoder ImageContent where
  standard j := by
    change Standard (ImageContent.fromJson j)
    simp [ImageContent.fromJson]

instance : StandardDecoder AudioContent where
  standard j := by
    change Standard (AudioContent.fromJson j)
    simp [AudioContent.fromJson]

instance : StandardDecoder TextResourceContents where
  standard j := by
    change Standard (TextResourceContents.fromJson j)
    simp [TextResourceContents.fromJson]

instance : StandardDecoder BlobResourceContents where
  standard j := by
    change Standard (BlobResourceContents.fromJson j)
    simp [BlobResourceContents.fromJson]

instance : StandardDecoder ResourceContents where
  standard j := by
    change Standard (ResourceContents.fromJson j)
    simp [ResourceContents.fromJson]

instance : StandardDecoder ResourceLink where
  standard j := by
    change Standard (ResourceLink.fromJson j)
    simp [ResourceLink.fromJson]

instance : StandardDecoder EmbeddedResource where
  standard j := by
    change Standard (EmbeddedResource.fromJson j)
    simp [EmbeddedResource.fromJson]

instance : StandardDecoder ToolUseContent where
  standard j := by
    change Standard (ToolUseContent.fromJson j)
    simp [ToolUseContent.fromJson]

instance : StandardDecoder PlainContentBlock where
  standard j := by
    change Standard (PlainContentBlock.fromJson j)
    simp [PlainContentBlock.fromJson]

instance : StandardDecoder ToolResultContent where
  standard j := by
    change Standard (ToolResultContent.fromJson j)
    simp [ToolResultContent.fromJson]

instance : StandardDecoder ContentBlock where
  standard j := by
    change Standard (ContentBlock.fromJson j)
    simp [ContentBlock.fromJson]

@[simp] theorem standard_samplingContent (j : Json) : Standard (samplingContentFromJson j) := by
  refine standard_bind.mpr ⟨standard_getAt j _, fun c _ => ?_⟩
  cases c <;> simp

instance : StandardDecoder SamplingMessage where
  standard j := by
    change Standard (SamplingMessage.fromJson j)
    simp [SamplingMessage.fromJson]

end Content

section Catalogue

instance : StandardDecoder ToolAnnotations where
  standard j := by
    change Standard (ToolAnnotations.fromJson j)
    simp [ToolAnnotations.fromJson]

instance : StandardDecoder TaskSupport where
  standard j := by
    change Standard (j.get String >>= taskSupportFromString)
    simp [taskSupportFromString]

instance : StandardDecoder ToolExecution where
  standard j := by
    change Standard (ToolExecution.fromJson j)
    unfold ToolExecution.fromJson
    split <;> simp

instance : StandardDecoder Tool where
  standard j := by
    change Standard (Tool.fromJson j)
    simp [Tool.fromJson]

instance : StandardDecoder ListRequestParams where
  standard j := by
    change Standard (ListRequestParams.fromJson j)
    simp [ListRequestParams.fromJson]

instance : StandardDecoder TaskAugmentation where
  standard j := by
    change Standard (TaskAugmentation.fromJson j)
    simp [TaskAugmentation.fromJson]

instance : StandardDecoder CallToolRequestParams where
  standard j := by
    change Standard (CallToolRequestParams.fromJson j)
    simp [CallToolRequestParams.fromJson]

instance : StandardDecoder ReadResourceRequestParams where
  standard j := by
    change Standard (ReadResourceRequestParams.fromJson j)
    simp [ReadResourceRequestParams.fromJson]

instance : StandardDecoder GetPromptRequestParams where
  standard j := by
    change Standard (GetPromptRequestParams.fromJson j)
    simp [GetPromptRequestParams.fromJson]

instance : StandardDecoder LoggingLevel where
  standard j := by
    change Standard (j.get String >>= loggingLevelFromString)
    simp [loggingLevelFromString]

instance : StandardDecoder SetLevelRequestParams where
  standard j := by
    change Standard (SetLevelRequestParams.fromJson j)
    simp [SetLevelRequestParams.fromJson]

instance : StandardDecoder ResourceTemplateReference where
  standard j := by
    change Standard (ResourceTemplateReference.fromJson j)
    simp [ResourceTemplateReference.fromJson]

instance : StandardDecoder PromptReference where
  standard j := by
    change Standard (PromptReference.fromJson j)
    simp [PromptReference.fromJson]

instance : StandardDecoder CompletionReference where
  standard j := by
    change Standard (CompletionReference.fromJson j)
    simp [CompletionReference.fromJson]

instance : StandardDecoder CompleteArgument where
  standard j := by
    change Standard (CompleteArgument.fromJson j)
    simp [CompleteArgument.fromJson]

instance : StandardDecoder CompleteRequestParams where
  standard j := by
    change Standard (CompleteRequestParams.fromJson j)
    simp [CompleteRequestParams.fromJson]

instance : StandardDecoder TaskIdRequestParams where
  standard j := by
    change Standard (TaskIdRequestParams.fromJson j)
    simp [TaskIdRequestParams.fromJson]

end Catalogue

section Handshake

instance : StandardDecoder RootsCapability where
  standard j := by
    change Standard (RootsCapability.fromJson j)
    simp [RootsCapability.fromJson]

instance : StandardDecoder SamplingCapability where
  standard j := by
    change Standard (SamplingCapability.fromJson j)
    simp [SamplingCapability.fromJson]

instance : StandardDecoder ElicitationCapability where
  standard j := by
    change Standard (ElicitationCapability.fromJson j)
    simp [ElicitationCapability.fromJson]

instance : StandardDecoder TasksRequestsCapability where
  standard j := by
    change Standard (TasksRequestsCapability.fromJson j)
    simp [TasksRequestsCapability.fromJson]

instance : StandardDecoder TasksCapability where
  standard j := by
    change Standard (TasksCapability.fromJson j)
    simp [TasksCapability.fromJson]

instance : StandardDecoder ClientCapabilities where
  standard j := by
    change Standard (ClientCapabilities.fromJson j)
    simp [ClientCapabilities.fromJson]

instance : StandardDecoder Implementation where
  standard j := by
    change Standard (Implementation.fromJson j)
    simp [Implementation.fromJson]

instance : StandardDecoder InitializeRequestParams where
  standard j := by
    change Standard (InitializeRequestParams.fromJson j)
    simp [InitializeRequestParams.fromJson]

end Handshake

section Sampling

instance : StandardDecoder ModelHint where
  standard j := by
    change Standard (ModelHint.fromJson j)
    simp [ModelHint.fromJson]

instance : StandardDecoder ModelPreferences where
  standard j := by
    change Standard (ModelPreferences.fromJson j)
    simp [ModelPreferences.fromJson]

instance : StandardDecoder IncludeContext where
  standard j := by
    change Standard (j.get String >>= includeContextFromString)
    simp [includeContextFromString]

instance : StandardDecoder ToolChoiceMode where
  standard j := by
    change Standard (j.get String >>= toolChoiceModeFromString)
    simp [toolChoiceModeFromString]

instance : StandardDecoder ToolChoice where
  standard j := by
    change Standard (ToolChoice.fromJson j)
    unfold ToolChoice.fromJson
    split
    · simp
    · split <;> simp
    · simp

@[simp] theorem standard_maxTokens (mt : Json) : Standard (maxTokensFromJson mt) := by
  cases mt <;> simp [maxTokensFromJson]

instance : StandardDecoder CreateMessageRequestParams where
  standard j := by
    change Standard (CreateMessageRequestParams.fromJson j)
    simp [CreateMessageRequestParams.fromJson]

end Sampling

end Mcp
