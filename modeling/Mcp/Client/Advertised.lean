import Mathlib.Data.List.Induction
import Mcp.Client.Handlers

/-! Which of the features that initialize announces have a handler in the session. -/
namespace Mcp.Client

theorem method_injective : Function.Injective Feature.method := by
  intro k k' h
  cases k <;> cases k' <;> first | rfl | exact absurd h (by decide)

section Calls

variable {info : Implementation} {c : Client} {session : ClientSession} {k : Feature}
  {call : Call} {calls : List Call}

theorem after_append : after info (calls ++ [call]) = call.apply (after info calls) := by
  simp [after]

/-- The feature whose handler a call sets. -/
def Call.feature : Call → Option Feature
  | .setSamplingHandler _ => some .sampling
  | .setElicitationHandler _ => some .elicitation
  | .setRootsListHandler _ => some .roots
  | _ => none

/-- The call replaces the session. -/
def Call.Connects (call : Call) : Prop := ∃ transport, call = .connect (some transport)

@[simp] theorem handler_withHandler (h : Option RequestHandler) (k k' : Feature) :
    (c.withHandler h k).handler k' = if k' = k then h else c.handler k' := by
  cases k <;> cases k' <;> rfl

@[simp] theorem handler_disconnect : c.disconnect.handler k = c.handler k := by
  unfold disconnect
  split <;> cases k <;> rfl

/-- What is registered for a feature is the user's handler for it. -/
def Backed (c : Client) : Prop :=
  ∀ session, c.session = some session → ∀ k h, session.requestHandlers.lookup k.method = some h →
    c.handler k = some h

/-- The user has set a handler, and the session does not know it. -/
def Unbacked (c : Client) (k : Feature) : Prop :=
  ∃ session, c.session = some session ∧ (c.handler k).isSome = true ∧
    session.requestHandlers.lookup k.method = none

/-- What a setter does when there is a session. -/
theorem setHandler_eq (h : Option RequestHandler) (hs : c.session = some session) :
    c.orKeep (c.setHandler k h) = { c.withHandler h k with
      session := some (match h with
        | some h => session.setRequestHandler k.method h
        | none => session.clearRequestHandler k.method) } := by
  unfold setHandler
  rw [hs]
  rfl

theorem setHandler_none (h : Option RequestHandler) (hs : c.session = none) :
    c.orKeep (c.setHandler k h) = c := by
  unfold setHandler
  rw [hs]
  rfl

/-- A call replaces the session, sets a handler, or does no more than disconnect. -/
theorem call_cases (call : Call) : call.Connects ∨ ¬call.Connects ∧
    ((∃ k h, call.feature = some k ∧ ∀ c, call.apply c = c.orKeep (c.setHandler k h)) ∨
      (call.feature = none ∧ ∀ c, call.apply c = c ∨ call.apply c = c.disconnect)) := by
  cases call with
  | connect transport =>
    cases transport with
    | none => exact .inr ⟨by rintro ⟨_, ⟨⟩⟩, .inr ⟨rfl, fun _ => .inl rfl⟩⟩
    | some transport => exact .inl ⟨transport, rfl⟩
  | disconnect => exact .inr ⟨by rintro ⟨_, ⟨⟩⟩, .inr ⟨rfl, fun _ => .inr rfl⟩⟩
  | setSamplingHandler h | setElicitationHandler h | setRootsListHandler h =>
    exact .inr ⟨by rintro ⟨_, ⟨⟩⟩, .inl ⟨_, h, rfl, fun _ => rfl⟩⟩
  | sendInitialize => exact .inr ⟨by rintro ⟨_, ⟨⟩⟩, .inr ⟨rfl, fun _ => .inl rfl⟩⟩

theorem apply_connects (h : call.Connects) :
    (call.apply c).session = some ⟨∅⟩ ∧ ∀ k, (call.apply c).handler k = c.handler k := by
  obtain ⟨transport, rfl⟩ := h
  obtain ⟨_ | _⟩ := transport
  all_goals
    refine ⟨rfl, fun k => ?_⟩
    rw [← handler_disconnect (c := c)]
    cases k <;> rfl

/-- A disconnect that leaves a session leaves everything. -/
theorem apply_of_session {call : Call} (happly : call.apply c = c ∨ call.apply c = c.disconnect)
    (h : (call.apply c).session = some session) : call.apply c = c := by
  rcases happly with hsame | hdis
  · exact hsame
  · rw [hdis] at h ⊢
    unfold disconnect at h ⊢
    split
    · rfl
    · next hc =>
      rw [if_neg hc] at h
      cases h

theorem handler_mk (c c' : Client) (h : c'.samplingHandler = c.samplingHandler)
    (h' : c'.elicitationHandler = c.elicitationHandler) (h'' : c'.rootsHandler = c.rootsHandler) :
    c'.handler = c.handler := by
  funext k
  cases k <;> assumption

/-- A setter with a session: its own feature is in step, and the others are left alone. -/
theorem setHandler_session {s' : ClientSession} (h : Option RequestHandler)
    (hs : c.session = some session) (hs' : (c.orKeep (c.setHandler k h)).session = some s')
    (k' : Feature) :
    (c.orKeep (c.setHandler k h)).handler k' = (if k' = k then h else c.handler k') ∧
      s'.requestHandlers.lookup k'.method =
        if k' = k then h else session.requestHandlers.lookup k'.method := by
  rw [setHandler_eq h hs] at hs' ⊢
  obtain rfl := Option.some.inj hs'
  refine ⟨?_, ?_⟩
  · rw [← handler_withHandler h k k']
    exact congrFun (handler_mk _ _ rfl rfl rfl) k'
  · by_cases hk : k' = k
    · subst k'
      cases h <;> simp [ClientSession.setRequestHandler, ClientSession.clearRequestHandler]
    · have hne : k'.method ≠ k.method := method_injective.ne hk
      cases h <;> simp [ClientSession.setRequestHandler, ClientSession.clearRequestHandler, hk, hne]

theorem backed_apply (hc : Backed c) (call : Call) : Backed (call.apply c) := by
  intro s' hs' k' g hg
  rcases call_cases call with hconn | ⟨-, ⟨k, h, -, happly⟩ | ⟨-, happly⟩⟩
  · obtain ⟨hsession, -⟩ := apply_connects (c := c) hconn
    obtain rfl := Option.some.inj (hsession.symm.trans hs')
    simp at hg
  · rw [happly c] at hs' ⊢
    cases hs : c.session with
    | none =>
      rw [setHandler_none h hs, hs] at hs'
      cases hs'
    | some session =>
      obtain ⟨hhandler, hlookup⟩ := setHandler_session h hs hs' k'
      rw [hhandler]
      rw [hlookup] at hg
      by_cases hk : k' = k
      · rw [if_pos hk] at hg ⊢
        exact hg
      · rw [if_neg hk] at hg ⊢
        exact hc session hs k' g hg
  · have hsame := apply_of_session (happly c) hs'
    rw [hsame] at hs' ⊢
    exact hc s' hs' k' g hg

theorem backed_after (info : Implementation) (calls : List Call) : Backed (after info calls) := by
  induction calls using List.reverseRecOn with
  | nil => rintro session ⟨⟩
  | append_singleton calls call ih =>
    rw [after_append]
    exact backed_apply ih call

/-- What one call does to a handler that the session does not know, if there is a session then. -/
theorem unbacked_apply (hs' : (call.apply c).session = some session) (k' : Feature) :
    Unbacked (call.apply c) k' ↔ (call.Connects ∧ (c.handler k').isSome = true) ∨
      (¬call.Connects ∧ call.feature ≠ some k' ∧ Unbacked c k') := by
  rcases call_cases call with hconn | ⟨hnot, ⟨k, h, hfeature, happly⟩ | ⟨hfeature, happly⟩⟩
  · obtain ⟨hsession, hhandler⟩ := apply_connects (c := c) hconn
    simp [Unbacked, hsession, hhandler, hconn]
  · rw [happly c] at hs' ⊢
    cases hs : c.session with
    | none =>
      rw [setHandler_none h hs, hs] at hs'
      cases hs'
    | some s =>
      obtain ⟨hhandler, hlookup⟩ := setHandler_session h hs hs' k'
      by_cases hk : k' = k
      · subst k'
        cases h <;> simp_all [Unbacked]
      · have hne : k ≠ k' := fun he => hk he.symm
        simp [Unbacked, hs', hs, hhandler, hlookup, hk, hne, hnot, hfeature]
  · have hsame := apply_of_session (happly c) hs'
    rw [hsame]
    simp [hnot, hfeature]

/-- The last call that replaced the session came after the handler for `k` had been set, and that
handler has not been set again since. -/
def LeftOver (info : Implementation) (calls : List Call) (k : Feature) : Prop :=
  ∃ earlier connect later, calls = earlier ++ connect :: later ∧ connect.Connects ∧
    ((after info earlier).handler k).isSome = true ∧
    ∀ call ∈ later, ¬call.Connects ∧ call.feature ≠ some k

theorem leftOver_append : LeftOver info (calls ++ [call]) k ↔
    (call.Connects ∧ ((after info calls).handler k).isSome = true) ∨
      (¬call.Connects ∧ call.feature ≠ some k ∧ LeftOver info calls k) := by
  constructor
  · rintro ⟨earlier, connect, later, hcalls, hconn, hhandler, hlater⟩
    rcases List.eq_nil_or_concat' later with rfl | ⟨later, last, rfl⟩
    · obtain ⟨rfl, rfl⟩ : calls = earlier ∧ call = connect := by simpa using hcalls
      exact .inl ⟨hconn, hhandler⟩
    · rw [← List.cons_append, ← List.append_assoc] at hcalls
      obtain ⟨rfl, hlast⟩ := List.append_inj' hcalls rfl
      obtain rfl : call = last := by simpa using hlast
      obtain ⟨hnot, hfeature⟩ := hlater call (by simp)
      refine .inr ⟨hnot, hfeature, earlier, connect, later, rfl, hconn, hhandler, ?_⟩
      exact fun c hc => hlater c (by simp [hc])
  · rintro (⟨hconn, hhandler⟩ |
      ⟨hnot, hfeature, earlier, connect, later, rfl, hconn, hhandler, hlater⟩)
    · exact ⟨calls, call, [], rfl, hconn, hhandler, by simp⟩
    · refine ⟨earlier, connect, later ++ [call], by simp, hconn, hhandler, ?_⟩
      intro c hc
      rcases List.mem_append.mp hc with hc | hc
      · exact hlater c hc
      · obtain rfl : c = call := by simpa using hc
        exact ⟨hnot, hfeature⟩

theorem session_of_apply (hnot : ¬call.Connects) (h : (call.apply c).session = some session) :
    ∃ s, c.session = some s := by
  rcases call_cases call with hconn | ⟨-, ⟨k, g, -, happly⟩ | ⟨-, happly⟩⟩
  · exact absurd hconn hnot
  · cases hs : c.session with
    | none =>
      rw [happly c, setHandler_none g hs, hs] at h
      cases h
    | some s => exact ⟨s, rfl⟩
  · rw [apply_of_session (happly c) h] at h
    exact ⟨session, h⟩

theorem unbacked_iff (h : (after info calls).session = some session) :
    Unbacked (after info calls) k ↔ LeftOver info calls k := by
  induction calls using List.reverseRecOn generalizing session with
  | nil => cases h
  | append_singleton calls call ih =>
    rw [after_append] at h ⊢
    rw [unbacked_apply h, leftOver_append]
    by_cases hconn : call.Connects
    · simp [hconn]
    · obtain ⟨s, hs⟩ := session_of_apply hconn h
      rw [ih hs]

/-- The capabilities in the params of an initialize have the member of feature `k`. -/
def Advertises (params : Json) (k : Feature) : Prop :=
  ∃ capabilities, params.find "capabilities" = some capabilities ∧
    (capabilities.find k.member).isSome = true

theorem sendInitialize_eq {params : Json} (h : c.sendInitialize = .ok (session, params)) :
    c.session = some session ∧ params = .of ({
      protocolVersion := kLatestProtocolVersion
      capabilities := c.capabilities
      clientInfo := c.clientInfo } : InitializeRequestParams) := by
  unfold sendInitialize at h
  split at h
  · cases h
  · next s hs =>
    cases h
    exact ⟨hs, rfl⟩

theorem find_capabilities (p : InitializeRequestParams) :
    (Json.of p).find "capabilities" = some (.of p.capabilities) := by
  change p.toJson.find "capabilities" = _
  simp [InitializeRequestParams.toJson, Json.find_set]

theorem find_member (ho : c.capabilitiesOverride = none) (k : Feature) :
    ((Json.of c.capabilities).find k.member).isSome = (c.handler k).isSome := by
  change (c.capabilities.toJson.find k.member).isSome = _
  unfold capabilities
  rw [ho]
  cases k <;>
    simp [ClientCapabilities.toJson, find_putOptional, Feature.member, handler]

theorem advertises_iff {params : Json} (ho : c.capabilitiesOverride = none)
    (h : c.sendInitialize = .ok (session, params)) (k : Feature) :
    Advertises params k ↔ (c.handler k).isSome = true := by
  obtain ⟨-, rfl⟩ := sendInitialize_eq h
  rw [← find_member ho]
  unfold Advertises
  rw [find_capabilities]
  simp

theorem override_setHandler (h : Option RequestHandler) (k : Feature) :
    (c.orKeep (c.setHandler k h)).capabilitiesOverride = c.capabilitiesOverride := by
  cases hs : c.session with
  | none => rw [setHandler_none h hs]
  | some session =>
    rw [setHandler_eq h hs]
    cases k <;> rfl

theorem override_disconnect : c.disconnect.capabilitiesOverride = c.capabilitiesOverride := by
  unfold disconnect
  split <;> rfl

theorem override_apply : (call.apply c).capabilitiesOverride = c.capabilitiesOverride := by
  rcases call_cases call with ⟨⟨_ | _⟩, rfl⟩ | ⟨-, ⟨k, h, -, happly⟩ | ⟨-, happly⟩⟩
  · exact override_disconnect
  · exact override_disconnect
  · rw [happly c, override_setHandler]
  · rcases happly c with hsame | hdis
    · rw [hsame]
    · rw [hdis, override_disconnect]

theorem override_after (info : Implementation) (calls : List Call) :
    (after info calls).capabilitiesOverride = none := by
  induction calls using List.reverseRecOn with
  | nil => rfl
  | append_singleton calls call ih => rw [after_append, override_apply, ih]

theorem unbacked_eq (hs : c.session = some session) (k : Feature) : Unbacked c k ↔
    (c.handler k).isSome = true ∧ session.requestHandlers.lookup k.method = none := by
  simp [Unbacked, hs]

/-- A handler that the session knows is the user's, so the two differ only one way round. -/
theorem registered_iff (hc : Backed c) (hs : c.session = some session) (k : Feature) :
    ((c.handler k).isSome = true ↔ (session.requestHandlers.lookup k.method).isSome = true) ↔
      ¬Unbacked c k := by
  rw [unbacked_eq hs]
  cases hl : session.requestHandlers.lookup k.method with
  | none => simp
  | some h => simp [hc session hs k h hl]

/-- An initialize announces a feature just when the session it goes out on has a handler for it, if
and only if no reconnect has left the user's handler behind. -/
theorem advertised_iff_registered (info : Implementation) (calls : List Call)
    (session : ClientSession) (params : Json)
    (h : (after info calls).sendInitialize = .ok (session, params)) (k : Feature) :
    (Advertises params k ↔ (session.requestHandlers.lookup k.method).isSome = true) ↔
      ¬LeftOver info calls k := by
  obtain ⟨hs, -⟩ := sendInitialize_eq h
  rw [advertises_iff (override_after info calls) h, ← unbacked_iff hs]
  exact registered_iff (backed_after info calls) hs k

end Calls

def someone : Implementation where
  name := "client"
  title := none
  version := "1"
  description := none
  websiteUrl := none
  icons := none
  «meta» := none

def connectOk : Call := .connect (some ⟨.ok ()⟩)

def setSampling : Call := .setSamplingHandler (some fun _ => .ok .null)

/-- A handler that is set after the connect is announced and registered. -/
theorem sampling_backed : ∃ session params,
    (after someone [connectOk, setSampling]).sendInitialize = .ok (session, params) ∧
      (Advertises params .sampling ↔
        (session.requestHandlers.lookup Feature.sampling.method).isSome = true) := by
  refine ⟨_, _, rfl, ?_⟩
  refine (advertised_iff_registered someone [connectOk, setSampling] _ _ rfl _).mpr ?_
  rw [← unbacked_iff rfl]
  rintro ⟨_, ⟨⟩, -, h⟩
  cases h

/-- After a reconnect it is announced, and the new session does not have it. -/
theorem sampling_not_backed : ∃ session params,
    (after someone [connectOk, setSampling, connectOk]).sendInitialize = .ok (session, params) ∧
      Advertises params .sampling ∧
      session.requestHandlers.lookup Feature.sampling.method = none :=
  ⟨_, _, rfl, (advertises_iff (c := after someone [connectOk, setSampling, connectOk]) rfl rfl
    _).mpr rfl, rfl⟩

end Mcp.Client
