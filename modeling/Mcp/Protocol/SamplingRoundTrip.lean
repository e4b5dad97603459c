import Mcp.Protocol.CatalogueRoundTrip
import Mcp.Protocol.Sampling

/-! A sampling request that was decoded can be sent on: what is decoded again is the same, but for
the name of a tool choice that no mode goes with. -/
namespace Mcp

structure CreateMessageRequestParams.NullFree (p : CreateMessageRequestParams) : Prop where
  messages : ∀ m ∈ p.messages, m.NullFree
  metadata : p.metadata ≠ some .null
  tools : ∀ tools ∈ p.tools, ∀ t ∈ tools, t.NullFree

/-- What is left of a choice once it has been written: only the tool mode is written with a
name. -/
def ToolChoice.forwarded (c : ToolChoice) : ToolChoice :=
  if c.mode = some .tool then c else { c with name := none }

/-- What is left of the params once they have been written. -/
def CreateMessageRequestParams.forwarded (p : CreateMessageRequestParams) :
    CreateMessageRequestParams := { p with toolChoice := p.toolChoice.map ToolChoice.forwarded }

section Decoded
variable {α : Type} [FromJson α] {j : Json} {key : String}

/-- What holds of whatever an element is read as holds of all that were read. -/
theorem forall_of_mapM {P : α → Prop} {xs : List Json} {as : List α}
    (h : xs.mapM (Json.get α) = .ok as) (hP : ∀ (x : Json) a, x.get α = .ok a → P a) :
    ∀ a ∈ as, P a := by
  induction xs generalizing as with
  | nil =>
    cases h
    simp
  | cons x xs ih =>
    rw [List.mapM_cons] at h
    obtain ⟨a, ha, h⟩ := bind_eq_ok h
    obtain ⟨bs, hbs, h⟩ := bind_eq_ok h
    cases h
    intro b hb
    rcases List.mem_cons.mp hb with rfl | hb
    · exact hP x b ha
    · exact ih hbs b hb

theorem forall_of_getArray {P : α → Prop} {v : Json} {as : List α} (h : v.get (List α) = .ok as)
    (hP : ∀ (x : Json) a, x.get α = .ok a → P a) : ∀ a ∈ as, P a := by
  cases v with
  | array xs => exact forall_of_mapM h hP
  | _ => cases h

theorem get_of_takeOptional {value : Option α} (h : takeOptional α j key = .ok value) :
    ∀ a ∈ value, ∃ v : Json, v.get α = .ok a := by
  rintro a rfl
  unfold takeOptional engaged at h
  split at h
  · cases h
  · cases h
  · next v _ _ =>
    obtain ⟨b, hb, h⟩ := bind_eq_ok h
    cases h
    exact ⟨v, hb⟩

end Decoded

section NullFree
variable {j : Json}

theorem nullFree_of_get_resourceLink {r : ResourceLink} (h : j.get ResourceLink = .ok r) :
    r.NullFree := by
  obtain ⟨uri, -, h⟩ := bind_eq_ok h
  obtain ⟨name, -, h⟩ := bind_eq_ok h
  obtain ⟨title, -, h⟩ := bind_eq_ok h
  obtain ⟨description, -, h⟩ := bind_eq_ok h
  obtain ⟨mimeType, -, h⟩ := bind_eq_ok h
  obtain ⟨annotations, -, h⟩ := bind_eq_ok h
  obtain ⟨size, -, h⟩ := bind_eq_ok h
  obtain ⟨icons, -, h⟩ := bind_eq_ok h
  cases h
  exact takeOptionalJson_ne_null j "_meta"

/-- One kind in a chain of them was decoded, or it was a later one. -/
theorem kind_eq_ok {β γ : Type} {c : Prop} [Decidable c] {x : Except Exception β} {f : β → γ}
    {y : Except Exception γ} {b : γ} (h : (if c then (do return f (← x)) else y) = .ok b) :
    (∃ a, x = .ok a ∧ f a = b) ∨ y = .ok b := by
  split at h
  · obtain ⟨a, ha, h⟩ := bind_eq_ok h
    cases h
    exact .inl ⟨a, ha, rfl⟩
  · exact .inr h

theorem nullFree_of_get_plainContentBlock {b : PlainContentBlock}
    (h : j.get PlainContentBlock = .ok b) : b.NullFree := by
  obtain ⟨t, -, h⟩ := bind_eq_ok h
  rcases kind_eq_ok h with ⟨c, -, rfl⟩ | h
  · trivial
  rcases kind_eq_ok h with ⟨c, -, rfl⟩ | h
  · trivial
  rcases kind_eq_ok h with ⟨c, -, rfl⟩ | h
  · trivial
  rcases kind_eq_ok h with ⟨r, hr, rfl⟩ | h
  · exact nullFree_of_get_resourceLink hr
  rcases kind_eq_ok h with ⟨r, -, rfl⟩ | h
  · trivial
  · cases h

theorem nullFree_of_get_toolResultContent {c : ToolResultContent}
    (h : j.get ToolResultContent = .ok c) : ∀ b ∈ c.content, b.NullFree := by
  obtain ⟨toolUseId, -, h⟩ := bind_eq_ok h
  obtain ⟨content, hcontent, h⟩ := bind_eq_ok h
  obtain ⟨isError, -, h⟩ := bind_eq_ok h
  obtain ⟨annotations, -, h⟩ := bind_eq_ok h
  cases h
  obtain ⟨v, -, hv⟩ := find_of_getAt hcontent
  exact forall_of_getArray hv fun _ _ => nullFree_of_get_plainContentBlock

theorem nullFree_of_get_contentBlock {b : ContentBlock} (h : j.get ContentBlock = .ok b) :
    b.NullFree := by
  obtain ⟨t, -, h⟩ := bind_eq_ok h
  rcases kind_eq_ok h with ⟨c, -, rfl⟩ | h
  · trivial
  rcases kind_eq_ok h with ⟨c, -, rfl⟩ | h
  · trivial
  rcases kind_eq_ok h with ⟨c, -, rfl⟩ | h
  · trivial
  rcases kind_eq_ok h with ⟨r, hr, rfl⟩ | h
  · exact nullFree_of_get_resourceLink hr
  rcases kind_eq_ok h with ⟨r, -, rfl⟩ | h
  · trivial
  rcases kind_eq_ok h with ⟨c, -, rfl⟩ | h
  · trivial
  rcases kind_eq_ok h with ⟨c, hc, rfl⟩ | h
  · exact nullFree_of_get_toolResultContent hc
  · cases h

theorem nullFree_of_get_samplingMessage {m : SamplingMessage}
    (h : j.get SamplingMessage = .ok m) : m.NullFree := by
  obtain ⟨role, -, h⟩ := bind_eq_ok h
  obtain ⟨content, hcontent, h⟩ := bind_eq_ok h
  cases h
  obtain ⟨c, -, hcontent⟩ := bind_eq_ok hcontent
  split at hcontent
  · exact forall_of_mapM hcontent fun _ _ => nullFree_of_get_contentBlock
  · obtain ⟨b, hb, hcontent⟩ := bind_eq_ok hcontent
    cases hcontent
    intro b' hb'
    obtain rfl := List.mem_singleton.mp hb'
    exact nullFree_of_get_contentBlock hb

theorem nullFree_of_get_tool {t : Tool} (h : j.get Tool = .ok t) : t.NullFree := by
  obtain ⟨name, -, h⟩ := bind_eq_ok h
  obtain ⟨inputSchema, -, h⟩ := bind_eq_ok h
  obtain ⟨title, -, h⟩ := bind_eq_ok h
  obtain ⟨description, -, h⟩ := bind_eq_ok h
  obtain ⟨annotations, -, h⟩ := bind_eq_ok h
  obtain ⟨icons, -, h⟩ := bind_eq_ok h
  obtain ⟨execution, -, h⟩ := bind_eq_ok h
  cases h
  exact ⟨takeOptionalJson_ne_null j "outputSchema", takeOptionalJson_ne_null j "_meta"⟩

theorem maxTokensFromJson_nonneg {mt : Json} {n : Int64} (h : maxTokensFromJson mt = .ok n) :
    ¬n < 0 := by
  unfold maxTokensFromJson at h
  split at h
  · split at h
    · cases h
    · next hn =>
      cases h
      exact hn
  · split at h
    · cases h
    · next hn =>
      split at h
      · cases h
      · cases h
        exact hn
  · cases h

/-- What was decoded holds no engaged null, and a number of tokens that is none below zero. -/
theorem nullFree_of_get_createMessageRequestParams {p : CreateMessageRequestParams}
    (h : j.get CreateMessageRequestParams = .ok p) : p.NullFree ∧ ¬p.maxTokens < 0 := by
  obtain ⟨messages, hmessages, h⟩ := bind_eq_ok h
  obtain ⟨mt, -, h⟩ := bind_eq_ok h
  obtain ⟨maxTokens, hmax, h⟩ := bind_eq_ok h
  obtain ⟨modelPreferences, -, h⟩ := bind_eq_ok h
  obtain ⟨systemPrompt, -, h⟩ := bind_eq_ok h
  obtain ⟨includeContext, -, h⟩ := bind_eq_ok h
  obtain ⟨temperature, -, h⟩ := bind_eq_ok h
  obtain ⟨stopSequences, -, h⟩ := bind_eq_ok h
  obtain ⟨tools, htools, h⟩ := bind_eq_ok h
  obtain ⟨toolChoice, -, h⟩ := bind_eq_ok h
  cases h
  refine ⟨⟨?_, takeOptionalJson_ne_null j "metadata", ?_⟩, maxTokensFromJson_nonneg hmax⟩
  · obtain ⟨v, -, hv⟩ := find_of_getAt hmessages
    exact forall_of_getArray hv fun _ _ => nullFree_of_get_samplingMessage
  · intro ts hts
    obtain ⟨v, hv⟩ := get_of_takeOptional htools ts hts
    exact forall_of_getArray hv fun _ _ => nullFree_of_get_tool

end NullFree

section Encoded

attribute [local simp] require getAt takeOptional find_putOptional Json.find_set bind Except.bind
  pure Except.pure

instance : RoundTrips ModelHint where
  restores h := by
    constructor
    · change ModelHint.fromJson h.toJson = _
      simp [ModelHint.fromJson, ModelHint.toJson]
    · change h.toJson.isNull = false
      simp [ModelHint.toJson]

/-- A list is written as an array, which is what is looked for. -/
theorem takeArray_of_find {α : Type} [ToJson α] [FromJson α] [RoundTrips α] {j : Json}
    {key : String} {value : Option (List α)} (h : j.find key = value.map Json.of) :
    takeArray α j key = .ok value := by
  unfold takeArray
  rw [h]
  cases value with
  | none => rfl
  | some items =>
    have hitems := mapM_get_of_restores fun a (_ : a ∈ items) => RoundTrips.restores a
    change ((items.map Json.of).mapM (Json.get α) >>= _) = _
    rw [hitems]
    rfl

instance : RoundTrips ModelPreferences where
  restores p := by
    constructor
    · change ModelPreferences.fromJson p.toJson = _
      have hhints : takeArray ModelHint p.toJson "hints" = .ok p.hints :=
        takeArray_of_find (by simp [ModelPreferences.toJson])
      simp only [ModelPreferences.fromJson, hhints]
      simp [ModelPreferences.toJson]
    · change p.toJson.isNull = false
      simp [ModelPreferences.toJson]

instance : RoundTrips IncludeContext := ⟨fun c => by cases c <;> exact ⟨rfl, rfl⟩⟩

/-- The name is read back with the tool mode only, with which alone it is written. -/
theorem get_of_toolChoice (c : ToolChoice) : (Json.of c).get ToolChoice = .ok c.forwarded := by
  obtain ⟨mode, name⟩ := c
  cases mode with
  | none => rfl
  | some mode =>
    cases mode with
    | tool => cases name <;> rfl
    | auto | any | none => rfl

theorem isNull_of_toolChoice (c : ToolChoice) : (Json.of c).isNull = false := by
  obtain ⟨mode, name⟩ := c
  cases mode with
  | none => rfl
  | some mode =>
    cases mode with
    | tool => cases name <;> rfl
    | auto | any | none => rfl

theorem maxTokensFromJson_of {n : Int64} (hn : ¬n < 0) : maxTokensFromJson (.of n) = .ok n := by
  change (if n < 0 then _ else _) = _
  rw [if_neg hn]

theorem get_of_createMessageRequestParams {p : CreateMessageRequestParams} (hp : p.NullFree)
    (hmax : ¬p.maxTokens < 0) : (Json.of p).get CreateMessageRequestParams = .ok p.forwarded := by
  change CreateMessageRequestParams.fromJson p.toJson = _
  have hmessages := restores_list fun m hm => restores_samplingMessage (hp.messages m hm)
  have hstop : takeArray String p.toJson "stopSequences" = .ok p.stopSequences :=
    takeArray_of_find (by simp [CreateMessageRequestParams.toJson])
  have hmetadata : takeOptionalJson p.toJson "metadata" = p.metadata :=
    takeOptionalJson_of_find (by simp [CreateMessageRequestParams.toJson]) hp.metadata
  have htools : takeOptional (List Tool) p.toJson "tools" = .ok p.tools :=
    takeOptional_of_find (by simp [CreateMessageRequestParams.toJson]) fun ts hts =>
      restores_list fun t ht => restores_tool (hp.tools ts hts t ht)
  have hchoice : takeOptional ToolChoice p.toJson "toolChoice" =
      .ok (p.toolChoice.map ToolChoice.forwarded) := by
    have hfind : p.toJson.find "toolChoice" = p.toolChoice.map Json.of := by
      simp [CreateMessageRequestParams.toJson]
    rw [takeOptional, hfind]
    cases p.toolChoice with
    | none => rfl
    | some c =>
      change engaged ToolChoice (some (.of c)) = _
      rw [engaged_of_isNull (isNull_of_toolChoice c), get_of_toolChoice]
      rfl
  simp only [CreateMessageRequestParams.fromJson, hstop, hmetadata, htools, hchoice]
  simp [CreateMessageRequestParams.toJson, hmessages.get_of, maxTokensFromJson_of hmax,
    CreateMessageRequestParams.forwarded]

end Encoded

theorem forwarded_eq_self {c : ToolChoice} :
    c.forwarded = c ↔ (c.name.isSome → c.mode = some .tool) := by
  obtain ⟨mode, name⟩ := c
  by_cases hmode : mode = some .tool
  · simp [ToolChoice.forwarded, hmode]
  · cases name <;> simp [ToolChoice.forwarded, hmode]

/-- Params that were decoded, encoded and decoded again are the same, but for the name of a tool
choice whose mode is not the tool mode: that is gone. -/
theorem sampling_forwarded {j : Json} {p : CreateMessageRequestParams}
    (h : j.get CreateMessageRequestParams = .ok p) :
    (Json.of p).get CreateMessageRequestParams = .ok p.forwarded ∧
      (p.forwarded = p ↔ ∀ c ∈ p.toolChoice, c.name.isSome → c.mode = some .tool) := by
  obtain ⟨hnull, hmax⟩ := nullFree_of_get_createMessageRequestParams h
  refine ⟨get_of_createMessageRequestParams hnull hmax, ?_⟩
  obtain ⟨messages, modelPreferences, systemPrompt, includeContext, temperature, maxTokens,
    stopSequences, metadata, tools, toolChoice⟩ := p
  cases toolChoice with
  | none => simp [CreateMessageRequestParams.forwarded]
  | some c => simp [CreateMessageRequestParams.forwarded, forwarded_eq_self]

/-- Params with a bare block, and the choice they give. -/
def askedWith (toolChoice : List (String × Json)) : Json :=
  .object [
    ("maxTokens", .unsigned 64),
    ("messages", .array [.object [
      ("content", .object [("text", .string "?"), ("type", .string "text")]),
      ("role", .string "user")]]),
    ("toolChoice", .object toolChoice)]

/-- What `askedWith` is decoded to. -/
def asked (toolChoice : ToolChoice) : CreateMessageRequestParams where
  messages := [⟨.user, [.text { text := "?", annotations := none }]⟩]
  modelPreferences := none
  systemPrompt := none
  includeContext := none
  temperature := none
  maxTokens := 64
  stopSequences := none
  metadata := none
  tools := none
  toolChoice := some toolChoice

/-- A name beside the automatic mode is understood, and not sent on. -/
theorem auto_name_not_forwarded :
    (askedWith [("mode", .string "auto"), ("name", .string "search")]).get
        CreateMessageRequestParams = .ok (asked ⟨some .auto, some "search"⟩) ∧
      (Json.of (asked ⟨some .auto, some "search"⟩)).get CreateMessageRequestParams ≠
        .ok (asked ⟨some .auto, some "search"⟩) := by
  refine ⟨rfl, ?_⟩
  have hget : (Json.of (asked ⟨some .auto, some "search"⟩)).get CreateMessageRequestParams =
      .ok (asked ⟨some .auto, none⟩) := rfl
  rw [hget]
  intro h
  cases h

/-- A name in the object form of the tool mode is sent on. -/
theorem tool_name_forwarded :
    (Json.of (asked ⟨some .tool, some "search"⟩)).get CreateMessageRequestParams =
      .ok (asked ⟨some .tool, some "search"⟩) :=
  (sampling_forwarded (j := askedWith [("name", .string "search"), ("type", .string "tool")])
    rfl).1

end Mcp
