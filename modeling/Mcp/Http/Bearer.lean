import Mathlib.Data.List.TakeWhile
import Mcp.Http.Gates
import Mcp.Library.Program

/-! The requests that the bearer check lets through. -/
namespace Mcp.Http

open Threads

variable {opts : Options} {req : Request} {s t rest : List Char} {value token : String}

/-- The values of the Authorization headers. -/
def Request.authorizations (req : Request) : List String :=
  (req.headers.filter fun h => sameName h.1 "Authorization").map Prod.snd

/-- Neither begins nor ends with a space or a tab. -/
def Bare (t : List Char) : Prop :=
  (∀ c ∈ t.head?, isOws c = false) ∧ ∀ c ∈ t.getLast?, isOws c = false

/-- `t` is what spaces and tabs surround in `s`. -/
def Trims (s t : List Char) : Prop :=
  (∃ before after, s = before ++ t ++ after ∧ (∀ c ∈ before, isOws c = true) ∧
    ∀ c ∈ after, isOws c = true) ∧ Bare t

/-- The scheme in any case, a space or a tab, and a token that is not empty once it is trimmed. -/
def Bears (value token : String) : Prop :=
  ∃ scheme sep rest, value.toList = scheme ++ sep :: rest ∧
    scheme.map toLower = "bearer".toList ∧ isOws sep = true ∧
    Trims rest token.toList ∧ token.toList ≠ []

/-- There is one Authorization header, and the validator says this of its token. -/
def Judged (opts : Options) (req : Request) (status : BearerStatus) : Prop :=
  ∃ validate value token, opts.bearerValidator = some validate ∧ req.authorizations = [value] ∧
    Bears value token ∧ (validate token).status = status

/-- What is done with the answer of the validator. -/
def Options.verdict (opts : Options) (outcome : BearerOutcome) : Option Response :=
  match outcome.status with
  | .allow => none
  | .invalidToken => some (opts.challenge 401 "invalid_token" "" "invalid bearer token")
  | .insufficientScope =>
    let scopes := outcome.requiredScopes
    some (opts.challenge 403 "insufficient_scope" (if validQuotedParam scopes then scopes else "")
      "insufficient scope")

/-- `authorize` as a program that calls the validator. -/
def authorizing (opts : Options) (req : Request) :
    Program String (fun _ => BearerOutcome) (Option Response) :=
  if opts.bearerValidator.isNone then .done none
  else
    match req.header "Authorization" with
    | none => .done (some (opts.challenge 401 "invalid_request" "" "missing Authorization header"))
    | some hdr =>
      if 1 < req.countHeader "Authorization" then
        .done (some { status := 400, content := "multiple Authorization headers" })
      else if !startsWithBearerCi hdr then
        .done (some (opts.challenge 401 "invalid_request" "" "expected Bearer scheme"))
      else
        let token := trimOws (String.ofList (hdr.toList.drop 7))
        if token.isEmpty then
          .done (some (opts.challenge 401 "invalid_request" "" "empty bearer token"))
        else
          .perform token fun outcome => .done (opts.verdict outcome)

/-- With a validator whose answer depends on the token alone, the program comes to what `authorize`
says. -/
theorem eval_authorizing (opts : Options) (req : Request) :
    (authorizing opts req).eval (fun token => opts.bearerValidator.map (· token)) =
      some (authorize opts req) := by
  unfold authorizing authorize
  cases opts.bearerValidator with
  | none => rfl
  | some validate =>
    simp only [Option.isNone_some, Bool.false_eq_true, if_false]
    cases req.header "Authorization" with
    | none => rfl
    | some hdr =>
      dsimp only
      split
      · rfl
      · split
        · rfl
        · split
          · rfl
          · rfl

section Trim

theorem dropWhile_of_head (h : ∀ c ∈ t.head?, isOws c = false) : t.dropWhile isOws = t := by
  cases t with
  | nil => rfl
  | cons c cs => simp [h c rfl]

theorem rdropWhile_of_last (h : ∀ c ∈ t.getLast?, isOws c = false) :
    t.rdropWhile isOws = t := by
  rw [List.rdropWhile, dropWhile_of_head (by simpa using h), List.reverse_reverse]

theorem trims_iff : Trims s t ↔ t = (s.dropWhile isOws).rdropWhile isOws := by
  constructor
  · rintro ⟨⟨before, after, rfl, hbefore, hafter⟩, hhead, hlast⟩
    have hend : after.rdropWhile isOws = [] := List.rdropWhile_eq_nil_iff.mpr hafter
    rw [List.append_assoc, List.dropWhile_append_of_pos hbefore]
    cases t with
    | nil =>
      have hnil : after.dropWhile isOws = [] := List.dropWhile_eq_nil_iff.mpr hafter
      rw [List.nil_append, hnil]
      rfl
    | cons c cs =>
      have hkeep : (c :: cs ++ after).dropWhile isOws = c :: cs ++ after :=
        dropWhile_of_head (by simpa using hhead)
      rw [hkeep, List.rdropWhile, List.reverse_append,
        List.dropWhile_append_of_pos (by simpa using hafter)]
      exact (rdropWhile_of_last hlast).symm
  · rintro rfl
    have hhead : ∀ c ∈ (s.dropWhile isOws).head?, isOws c = false := by
      intro c hc
      have hnot := List.head?_dropWhile_not isOws s
      rw [Option.mem_def.mp hc] at hnot
      exact hnot
    refine ⟨⟨s.takeWhile isOws, (s.dropWhile isOws).rtakeWhile isOws, ?_, ?_, ?_⟩, ?_, ?_⟩
    · rw [List.append_assoc, List.rdropWhile_append_rtakeWhile, List.takeWhile_append_dropWhile]
    · exact fun c hc => List.mem_takeWhile_imp hc
    · exact fun c hc => List.mem_rtakeWhile_imp hc
    · intro c hc
      obtain ⟨rest, hrest⟩ := List.rdropWhile_prefix isOws (l := s.dropWhile isOws)
      apply hhead
      rw [← hrest, List.head?_append, Option.mem_def.mp hc]
      rfl
    · intro c hc
      have hne : (s.dropWhile isOws).rdropWhile isOws ≠ [] := by
        intro hnil
        simp [hnil] at hc
      have hlast := List.rdropWhile_last_not isOws _ hne
      rw [Option.mem_def, List.getLast?_eq_some_getLast hne, Option.some.injEq] at hc
      rwa [hc, Bool.not_eq_true] at hlast

end Trim

section Scheme

/-- Where a value is split that has the scheme and the separator. -/
theorem startsWithBearerCi_append {scheme : List Char} {sep : Char}
    (hvalue : value.toList = scheme ++ sep :: rest) (hscheme : scheme.length = 6) :
    startsWithBearerCi value = true ↔
      scheme.map toLower = "bearer".toList ∧ isOws sep = true := by
  have htake : value.toList.take 6 = scheme := by rw [hvalue, ← hscheme, List.take_left]
  have hget : value.toList[6]? = some sep := by
    rw [hvalue, ← hscheme, List.getElem?_append_right le_rfl, Nat.sub_self]
    rfl
  rw [startsWithBearerCi, htake, hget, Option.any_some, Bool.and_eq_true_iff, beq_iff_eq]

theorem split_of_startsWithBearerCi (h : startsWithBearerCi value = true) :
    ∃ scheme sep, value.toList = scheme ++ sep :: value.toList.drop 7 ∧ scheme.length = 6 := by
  obtain ⟨-, hsep⟩ := Bool.and_eq_true_iff.mp h
  cases hat : value.toList[6]? with
  | none => simp [hat] at hsep
  | some sep =>
    obtain ⟨hlt, hget⟩ := List.getElem?_eq_some_iff.mp hat
    refine ⟨value.toList.take 6, sep, ?_, List.length_take_of_le hlt.le⟩
    rw [← hget, ← List.drop_eq_getElem_cons hlt, List.take_append_drop]

/-- The three helpers of `authorize` together check the grammar. -/
theorem bears_iff : Bears value token ↔ startsWithBearerCi value = true ∧
    token = trimOws (String.ofList (value.toList.drop 7)) ∧ token.isEmpty = false := by
  have htoken : ∀ rest, Trims rest token.toList ↔ token = trimOws (String.ofList rest) := by
    intro rest
    rw [trims_iff, trimOws, String.toList_ofList, ← String.toList_inj, String.toList_ofList]
  have hempty : token.toList ≠ [] ↔ token.isEmpty = false := by
    rw [← Bool.not_eq_true, String.isEmpty_iff, ← String.toList_eq_nil_iff]
  constructor
  · rintro ⟨scheme, sep, rest, hvalue, hscheme, hsep, htrim, hne⟩
    have hlength : scheme.length = 6 := by
      rw [← List.length_map toLower, hscheme]
      rfl
    have hrest : value.toList.drop 7 = rest := by
      rw [hvalue, List.drop_append, List.drop_eq_nil_of_le (by omega), hlength]
      rfl
    rw [hrest]
    exact ⟨(startsWithBearerCi_append hvalue hlength).mpr ⟨hscheme, hsep⟩, (htoken rest).mp htrim,
      hempty.mp hne⟩
  · rintro ⟨hstarts, htrim, hne⟩
    obtain ⟨scheme, sep, hvalue, hlength⟩ := split_of_startsWithBearerCi hstarts
    obtain ⟨hscheme, hsep⟩ := (startsWithBearerCi_append hvalue hlength).mp hstarts
    exact ⟨scheme, sep, _, hvalue, hscheme, hsep, (htoken _).mpr htrim, hempty.mpr hne⟩

example : Bears "BeArEr\t tok " "tok" := bears_iff.mpr (by decide)

theorem header_authorization (req : Request) :
    req.header "Authorization" = req.authorizations.head? := by
  rw [Request.header, Request.authorizations, List.head?_map, List.head?_filter]

theorem count_authorization (req : Request) :
    req.countHeader "Authorization" = req.authorizations.length := by
  rw [Request.countHeader, Request.authorizations, List.length_map, List.countP_eq_length_filter]

end Scheme

theorem bears_unique {token' : String} (h : Bears value token) (h' : Bears value token') :
    token = token' := by
  obtain ⟨-, htoken, -⟩ := bears_iff.mp h
  obtain ⟨-, htoken', -⟩ := bears_iff.mp h'
  rw [htoken, htoken']

/-- The request has no token to ask the validator about. -/
def Tokenless (req : Request) : Prop :=
  ∀ value token, req.authorizations = [value] → ¬Bears value token

/-- What the check does with a validator: it refuses by itself, or asks about a token. -/
inductive Checks (opts : Options) (req : Request) :
    Program String (fun _ => BearerOutcome) (Option Response) → Prop where
  | refuses (res : Response) : Tokenless req →
      (res.status = if 1 < req.authorizations.length then 400 else 401) →
      (∀ h ∈ res.headers, h = ("WWW-Authenticate", buildBearerChallenge opts.authRealm
        opts.resourceMetadataUrl "invalid_request" "")) → Checks opts req (.done (some res))
  | asks (value token : String) : req.authorizations = [value] → Bears value token →
      Checks opts req (.perform token fun outcome => .done (opts.verdict outcome))

theorem tokenless_of_length (h : req.authorizations.length ≠ 1) : Tokenless req := by
  intro value token hsingle
  rw [hsingle] at h
  exact absurd rfl h

theorem tokenless_of_single (h : req.authorizations = [value])
    (hbad : ∀ token, ¬Bears value token) :
    Tokenless req := by
  intro value' token hsingle
  cases h.symm.trans hsingle
  exact hbad token

theorem checks_authorizing (opts : Options) (h : opts.bearerValidator.isNone = false)
    (req : Request) :
    Checks opts req (authorizing opts req) := by
  rw [authorizing, if_neg (by simp [h]), header_authorization, count_authorization]
  cases hauth : req.authorizations with
  | nil =>
    exact .refuses _ (tokenless_of_length (by simp [hauth])) (by rw [hauth]; rfl)
      (by simp [Options.challenge])
  | cons value rest =>
    dsimp only [List.head?_cons]
    by_cases hseveral : 1 < (value :: rest).length
    · rw [if_pos hseveral]
      refine .refuses _ (tokenless_of_length ?_) ?_ (by simp)
      · rw [hauth]
        exact hseveral.ne'
      · rw [hauth, if_pos hseveral]
    · rw [if_neg hseveral]
      have hsingle : req.authorizations = [value] := by
        rw [hauth, List.cons.injEq, ← List.length_eq_zero_iff]
        simp only [List.length_cons] at hseveral
        exact ⟨rfl, by omega⟩
      cases hstarts : startsWithBearerCi value with
      | false =>
        refine .refuses _ (tokenless_of_single hsingle fun token hbears => ?_) ?_
          (by simp [Options.challenge])
        · rw [(bears_iff.mp hbears).1] at hstarts
          cases hstarts
        · rw [hsingle]
          rfl
      | true =>
        rw [Bool.not_true, if_neg (by simp)]
        cases hempty : (trimOws (String.ofList (value.toList.drop 7))).isEmpty with
        | true =>
          refine .refuses _ (tokenless_of_single hsingle fun token hbears => ?_) ?_
            (by simp [Options.challenge])
          · obtain ⟨-, htoken, hne⟩ := bears_iff.mp hbears
            rw [htoken, hempty] at hne
            cases hne
          · rw [hsingle]
            rfl
        | false => exact .asks value _ hsingle (bears_iff.mpr ⟨hstarts, rfl, hempty⟩)

theorem not_judged_of_tokenless (opts : Options) (h : Tokenless req) (status : BearerStatus) :
    ¬Judged opts req status := by
  rintro ⟨-, value, token, -, hsingle, hbears, -⟩
  exact h value token hsingle hbears

/-- What `authorize` does with a validator. -/
theorem authorize_checks {validate : String → BearerOutcome}
    (hvalidator : opts.bearerValidator = some validate) (req : Request) :
    (∃ res, authorize opts req = some res ∧ Tokenless req ∧
      (res.status = if 1 < req.authorizations.length then 400 else 401) ∧
      ∀ h ∈ res.headers, h = ("WWW-Authenticate", buildBearerChallenge opts.authRealm
        opts.resourceMetadataUrl "invalid_request" "")) ∨
    ∃ value token, req.authorizations = [value] ∧ Bears value token ∧
      authorize opts req = opts.verdict (validate token) := by
  have heval := eval_authorizing opts req
  have hchecks := checks_authorizing opts (by simp [hvalidator]) req
  rw [hvalidator] at heval
  generalize authorizing opts req = p at *
  cases hchecks with
  | refuses res htokenless hstatus hheaders =>
    exact .inl ⟨res, (Option.some.inj heval).symm, htokenless, hstatus, hheaders⟩
  | asks value token hsingle hbears =>
    exact .inr ⟨value, token, hsingle, hbears, (Option.some.inj heval).symm⟩

theorem verdict_status {outcome : BearerOutcome} {res : Response}
    (h : opts.verdict outcome = some res) :
    outcome.status = .invalidToken ∧ res.status = 401 ∨
      outcome.status = .insufficientScope ∧ res.status = 403 := by
  unfold Options.verdict at h
  split at h
  · cases h
  · next hstatus =>
    cases h
    exact .inl ⟨hstatus, rfl⟩
  · next hstatus =>
    cases h
    exact .inr ⟨hstatus, rfl⟩

theorem verdict_eq_none {outcome : BearerOutcome} :
    opts.verdict outcome = none ↔ outcome.status = .allow := by
  unfold Options.verdict
  cases outcome.status <;> simp

/-- Only several Authorization headers are answered 400. -/
theorem authorize_bad_request {res : Response} (h : authorize opts req = some res) :
    res.status = 400 ↔ 1 < req.authorizations.length := by
  cases hvalidator : opts.bearerValidator with
  | none =>
    rw [authorize, hvalidator] at h
    cases h
  | some validate =>
    rcases authorize_checks hvalidator req with ⟨res', hres, -, hstatus, -⟩ |
      ⟨value, token, hsingle, -, hverdict⟩
    · cases h.symm.trans hres
      rw [hstatus]
      split <;> simp_all
    · rw [h] at hverdict
      rcases verdict_status hverdict.symm with ⟨-, hstatus⟩ | ⟨-, hstatus⟩ <;>
        simp [hstatus, hsingle]

/-- With a single header that has a token, the validator's word on it decides. -/
theorem judged_iff {validate : String → BearerOutcome}
    (hvalidator : opts.bearerValidator = some validate) (hsingle : req.authorizations = [value])
    (hbears : Bears value token) (status : BearerStatus) :
    Judged opts req status ↔ (validate token).status = status := by
  constructor
  · rintro ⟨validate', value', token', hvalidator', hsingle', hbears', hstatus⟩
    cases hvalidator.symm.trans hvalidator'
    cases hsingle.symm.trans hsingle'
    rwa [bears_unique hbears hbears']
  · intro hstatus
    exact ⟨validate, value, token, hvalidator, hsingle, hbears, hstatus⟩

theorem authorizing_always (opts : Options) (req : Request) :
    (authorizing opts req).Always fun token next =>
      token ≠ "" ∧ Bare token.toList ∧ ∀ outcome, ∃ r, next outcome = .done r := by
  cases hvalidator : opts.bearerValidator.isNone with
  | true =>
    rw [authorizing, hvalidator, if_pos rfl]
    trivial
  | false =>
    have hchecks := checks_authorizing opts hvalidator req
    generalize authorizing opts req = p at *
    cases hchecks with
    | refuses => trivial
    | asks value token _ hbears =>
      obtain ⟨-, -, -, -, -, -, ⟨-, hbare⟩, hne⟩ := hbears
      refine ⟨⟨?_, hbare, fun outcome => ⟨_, rfl⟩⟩, fun _ => trivial⟩
      rintro rfl
      exact hne rfl

/-- The bearer check lets a request through exactly if there is no validator, or a single
Authorization header that bears a token which the validator allows; it asks at most once, about a
token that is neither empty nor padded; and its refusals have these statuses. -/
theorem bearer_grammar (opts : Options) (req : Request) :
    (authorize opts req = none ↔ opts.bearerValidator = none ∨ Judged opts req .allow) ∧
    (∀ res, authorize opts req = some res →
      (res.status = 400 ∧ 1 < req.authorizations.length) ∨
      (res.status = 403 ∧ Judged opts req .insufficientScope) ∨
      (res.status = 401 ∧ ¬1 < req.authorizations.length ∧
        ¬Judged opts req .insufficientScope)) ∧
    (authorizing opts req).Always fun token next =>
      token ≠ "" ∧ Bare token.toList ∧ ∀ outcome, ∃ r, next outcome = .done r := by
  rw [← and_assoc]
  refine ⟨?_, authorizing_always opts req⟩
  cases hvalidator : opts.bearerValidator with
  | none =>
    have hauth : authorize opts req = none := by simp [authorize, hvalidator]
    simp [hauth]
  | some validate =>
    rcases authorize_checks hvalidator req with ⟨res, hauth, htokenless, hstatus, -⟩ |
      ⟨value, token, hsingle, hbears, hauth⟩
    · have hnot := not_judged_of_tokenless opts htokenless
      rw [hauth]
      refine ⟨by simp [hnot], ?_⟩
      rintro _ ⟨⟩
      by_cases hseveral : 1 < req.authorizations.length
      · rw [if_pos hseveral] at hstatus
        exact .inl ⟨hstatus, hseveral⟩
      · rw [if_neg hseveral] at hstatus
        exact .inr (.inr ⟨hstatus, hseveral, hnot _⟩)
    · have hjudged := judged_iff hvalidator hsingle hbears
      rw [hauth]
      refine ⟨by simp [hjudged, verdict_eq_none], ?_⟩
      intro res hres
      rcases verdict_status hres with ⟨houtcome, hstatus⟩ | ⟨houtcome, hstatus⟩
      · exact .inr (.inr ⟨hstatus, by simp [hsingle], by simp [hjudged, houtcome]⟩)
      · exact .inr (.inl ⟨hstatus, (hjudged _).mpr houtcome⟩)

end Mcp.Http
