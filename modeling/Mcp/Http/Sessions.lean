import Mcp.Http.Host
import Mcp.Protocol.Envelope

/-! Which POSTs open a session, and under which id. -/
namespace Mcp.Http

open Transition

variable {opts : Options} {s s' : State} {a : Action} {t u k : ℕ} {req : Request} {sid : String}

/-- However the section of the POST ends, its answer is 404 and nothing else has happened. -/
def Refused (opts : Options) (s : State) (t : ℕ) : Prop :=
  ∀ a s', (a = .resolve t ∨ a = .resolveThrow t) → Step opts s a s' →
    s' = s.setPC t (.responding unknownSession)

theorem resolve_unknown (hne : sid.isEmpty = false) (hl : s.sessions.lookup sid = none)
    (hb : req.isInitializeBody = false) : s.resolve req sid = .unknown := by
  simp [State.resolve, hne, hl, hb]

theorem refused_iff (hpc : s.pc t = .resolving req sid) (hne : sid.isEmpty = false)
    (hl : s.sessions.lookup sid = none) : Refused opts s t ↔ req.isInitializeBody = false := by
  constructor
  · intro h
    by_contra hb
    have hcreate : s.resolve req sid = .create :=
      resolve_eq_create.mpr ⟨hne, hl, Bool.eq_true_of_not_eq_false hb⟩
    have he := h _ _ (.inl rfl) (resolve_create hpc hcreate)
    have hservers := congrArg State.servers he
    simp [State.insert, State.setPC] at hservers
  · rintro hb a s' (rfl | rfl) hs
    · cases hs with
      | resolve hpc' =>
        cases hpc.symm.trans hpc'
        rw [resolve_unknown hne hl hb]
    · cases hs with
      | resolveThrow hpc' hcreate =>
        cases hpc.symm.trans hpc'
        simp [resolve_unknown hne hl hb] at hcreate

/-- No POST whose id is unknown carries a body that looks like an initialize request. -/
def Unforged (s : State) : Action → Prop
  | .resolve t => ∀ req sid, s.pc t = .resolving req sid → req.sessionId = sid →
      sid.isEmpty = false → s.sessions.lookup sid = none → req.isInitializeBody = false
  | _ => True

/-- A POST has minted `sid` and not yet used it. -/
def Pending (s : State) (t : ℕ) (sid : String) : Prop :=
  ∃ req, s.pc t = .resolving req sid ∧ sid ≠ req.sessionId

/-- Every session has the id that was minted for it. -/
structure Minted (s : State) : Prop where
  ids : ∀ sid ∈ s.ids, sid ∈ s.minted
  keys : ∀ sid k, s.sessions.lookup sid = some k → sid ∈ s.ids
  pending : ∀ t sid, Pending s t sid → sid ∈ s.minted ∧ sid ∉ s.ids
  unique : ∀ t u sid, Pending s t sid → Pending s u sid → t = u

theorem pending_update {pc : PC} (hpc : s'.pc = Function.update s.pc t pc)
    (hp : ∀ req sid, pc = .resolving req sid → sid = req.sessionId) (h : Pending s' u sid) :
    u ≠ t ∧ Pending s u sid := by
  obtain ⟨req, hu, hne⟩ := h
  rw [hpc] at hu
  rcases update_cases hu with ⟨-, hmine⟩ | ⟨he, hu⟩
  · exact absurd (hp req sid hmine) hne
  · exact ⟨he, req, hu, hne⟩

/-- A step that mints no id and inserts no session. -/
theorem minted_same (h : Minted s) (hi : s'.ids = s.ids) (hm : s'.minted = s.minted)
    (hk : ∀ sid k, s'.sessions.lookup sid = some k → s.sessions.lookup sid = some k)
    (hpend : ∀ u sid, Pending s' u sid → Pending s u sid) : Minted s' := by
  constructor
  · rw [hi, hm]
    exact h.ids
  · intro sid k hl
    rw [hi]
    exact h.keys sid k (hk sid k hl)
  · intro u sid hu
    rw [hi, hm]
    exact h.pending u sid (hpend u sid hu)
  · intro u v sid hu hv
    exact h.unique u v sid (hpend u sid hu) (hpend v sid hv)

/-- A handler that moves on without an id of its own. -/
theorem minted_pc {pc : PC} (h : Minted s) (hi : s'.ids = s.ids) (hm : s'.minted = s.minted)
    (hk : ∀ sid k, s'.sessions.lookup sid = some k → s.sessions.lookup sid = some k)
    (hpc : s'.pc = Function.update s.pc t pc)
    (hp : ∀ req sid, pc = .resolving req sid → sid = req.sessionId) : Minted s' :=
  minted_same h hi hm hk (fun _ _ hu => (pending_update hpc hp hu).2)

theorem minted_mint (h : Minted s) (hfresh : sid ∉ s.minted) :
    Minted ({ s with minted := s.minted ++ [sid] }.setPC t (.resolving req sid)) := by
  have hids : ∀ i ∈ s.ids, i ∈ s.minted ++ [sid] :=
    fun i hi => List.mem_append_left _ (h.ids i hi)
  have hpend : ∀ u i,
      Pending ({ s with minted := s.minted ++ [sid] }.setPC t (.resolving req sid)) u i →
      (u = t ∧ i = sid) ∨ (u ≠ t ∧ Pending s u i) := by
    rintro u i ⟨r, hu, hne⟩
    rcases update_cases hu with ⟨rfl, hmine⟩ | ⟨he, hu⟩
    · cases hmine
      exact .inl ⟨rfl, rfl⟩
    · exact .inr ⟨he, r, hu, hne⟩
  constructor
  · exact hids
  · exact h.keys
  · intro u i hu
    rcases hpend u i hu with ⟨-, rfl⟩ | ⟨-, hu'⟩
    · exact ⟨List.mem_append_right _ (by simp), fun hi => hfresh (h.ids _ hi)⟩
    · exact ⟨List.mem_append_left _ (h.pending u i hu').1, (h.pending u i hu').2⟩
  · intro u v i hu hv
    rcases hpend u i hu with ⟨rfl, rfl⟩ | ⟨-, hu'⟩
    · rcases hpend v i hv with ⟨rfl, -⟩ | ⟨-, hv'⟩
      · rfl
      · exact absurd (h.pending v i hv').1 hfresh
    · rcases hpend v i hv with ⟨-, rfl⟩ | ⟨-, hv'⟩
      · exact absurd (h.pending u i hu').1 hfresh
      · exact h.unique u v i hu' hv'

/-- The minted id becomes the id of a session, and no other POST has it. -/
theorem minted_insert (h : Minted s) (hpc : s.pc t = .resolving req sid)
    (hne : sid ≠ req.sessionId) :
    Minted ((s.insert sid).setPC t (.delivering s.ids.length)) := by
  have ht : Pending s t sid := ⟨req, hpc, hne⟩
  have hpend : ∀ u i, Pending ((s.insert sid).setPC t (.delivering s.ids.length)) u i →
      u ≠ t ∧ Pending s u i := by
    intro u i hu
    refine pending_update rfl ?_ hu
    nofun
  constructor
  · intro i hi
    rcases List.mem_append.mp hi with hi | hi
    · exact h.ids i hi
    · rw [List.mem_singleton.mp hi]
      exact (h.pending t sid ht).1
  · intro i k hl
    rcases Dict.lookup_of_lookup_insert hl with ⟨rfl, -⟩ | ⟨-, hl⟩
    · exact List.mem_append_right _ (by simp)
    · exact List.mem_append_left _ (h.keys i k hl)
  · intro u i hu
    obtain ⟨hut, hu⟩ := hpend u i hu
    refine ⟨(h.pending u i hu).1, ?_⟩
    intro hi
    rcases List.mem_append.mp hi with hi | hi
    · exact (h.pending u i hu).2 hi
    · rw [List.mem_singleton.mp hi] at hu
      exact hut (h.unique u t sid hu ht)
  · intro u v i hu hv
    exact h.unique u v i (hpend u i hu).2 (hpend v i hv).2

/-- A session that a POST makes has an id of the host's own, not one the client sent. -/
theorem minted_of_create (hok : Unforged s (.resolve t)) (hpc : s.pc t = .resolving req sid)
    (hr : s.resolve req sid = .create) : sid ≠ req.sessionId := by
  intro he
  obtain ⟨hne, hl, hb⟩ := resolve_eq_create.mp hr
  have hplain := hok req sid hpc he.symm hne hl
  simp [hb] at hplain

theorem minted_step (hs : Step opts s a s') (hok : Unforged s a) (h : Minted s) : Minted s' := by
  have hsame : ∀ sid k, s.sessions.lookup sid = some k → s.sessions.lookup sid = some k :=
    fun _ _ hl => hl
  cases hs with
  | refuse _ _ _ | resolveThrow _ _ | reply _ | get _ _ _ | leave _ | delete _ _ _ | hook _
  | hookThrow _ | close _ | join _ | respond _ =>
    exact minted_pc h rfl rfl hsame rfl nofun
  | post _ _ _ _ =>
    refine minted_pc h rfl rfl hsame rfl ?_
    rintro req sid he
    cases he
    rfl
  | postMint _ _ _ _ _ _ hfresh => exact minted_mint h hfresh
  | @resolve t req sid hpc =>
    cases hr : s.resolve req sid with
    | found _ | unknown | missing => exact minted_pc h rfl rfl hsame rfl nofun
    | create => exact minted_insert h hpc (minted_of_create hok hpc hr)
  | «open» _ =>
    split <;> exact minted_pc h rfl rfl hsame rfl nofun
  | erase _ =>
    split
    · exact minted_pc h rfl rfl (fun _ _ => Dict.lookup_of_lookup_erase) rfl nofun
    · exact minted_pc h rfl rfl hsame rfl nofun
  | stop _ | stopAgain _ | stopHook _ | stopHookThrow _ | stopHooked _ | stopClose _
  | stopClosed _ | stopHttp _ | stopListener _ _ | stopJoin _ | stopReturn _ =>
    exact minted_same h rfl rfl hsame (fun _ _ hu => hu)
  | stopSwap _ => exact minted_same h rfl rfl nofun (fun _ _ hu => hu)

theorem minted_reachable (h : (machine opts).Reachable Unforged s) : Minted s := by
  refine h.invariant (P := Minted) ?_ (fun _ _ _ _ hm hok hst => minted_step hst hok hm)
  rintro s rfl
  refine ⟨nofun, nofun, ?_, ?_⟩
  · rintro t sid ⟨req, ht, -⟩
    cases ht
  · rintro t u sid ⟨req, ht, -⟩
    cases ht

/-- The id of a session that has been and gone. -/
def Gone (s : State) (sid : String) : Prop := sid ∈ s.ids ∧ s.sessions.lookup sid = none

theorem gone_step (hs : Step opts s a s') (hok : Unforged s a) (hm : Minted s) (hg : Gone s sid) :
    Gone s' sid := by
  cases hs with
  | @resolve t req i hpc =>
    cases hr : s.resolve req i with
    | found _ | unknown | missing => exact hg
    | create =>
      have hpend : Pending s t i := ⟨req, hpc, minted_of_create hok hpc hr⟩
      have hne : sid ≠ i := by
        rintro rfl
        exact (hm.pending t sid hpend).2 hg.1
      refine ⟨List.mem_append_left _ hg.1, ?_⟩
      exact (AList.lookup_insert_ne hne).trans hg.2
  | «open» _ => split <;> exact hg
  | erase _ =>
    split
    · refine ⟨hg.1, ?_⟩
      cases hl : AList.lookup sid (s.sessions.erase _) with
      | none => exact hl
      | some k =>
        have hl' := Dict.lookup_of_lookup_erase hl
        simp [hg.2] at hl'
    · exact hg
  | stopSwap _ => exact ⟨hg.1, rfl⟩
  | _ => exact hg

/-- A POST with an unknown session id is refused exactly when its body does not look like an
initialize request. While that holds of every POST, sessions have the ids the host has minted for
them, and the id of a session that is gone never comes back. -/
theorem unknown_session_refused (opts : Options) :
    (∀ s t req sid, (machine opts).Reachable Free s → s.pc t = .resolving req sid →
      req.sessionId = sid → sid.isEmpty = false → s.sessions.lookup sid = none →
      (Refused opts s t ↔ req.isInitializeBody = false)) ∧
    (∀ s s', (machine opts).Reachable Unforged s → (machine opts).Run Unforged s s' →
      (∀ sid k, s'.sessions.lookup sid = some k → sid ∈ s'.minted) ∧
      (∀ sid ∈ s.ids, s.sessions.lookup sid = none → s'.sessions.lookup sid = none)) := by
  constructor
  · intro s t req sid _ hpc _ hne hl
    exact refused_iff hpc hne hl
  · intro s s' h hrun
    have hm := minted_reachable (h.run hrun)
    refine ⟨fun sid k hl => hm.ids sid (hm.keys sid k hl), ?_⟩
    intro sid hid hl
    have hgone : Minted s' ∧ Gone s' sid := by
      refine hrun.invariant (P := fun s => Minted s ∧ Gone s sid) ?_ ⟨minted_reachable h, hid, hl⟩
      rintro s a s' ⟨hm, hg⟩ hok hst
      exact ⟨minted_step hst hok hm, gone_step hst hok hm hg⟩
    exact hgone.2.2

/-- A ping on the session "a". -/
def pingOnA : Request where
  headers := [("Mcp-Session-Id", "a")]
  body := "\x7b\"jsonrpc\":\"2.0\",\"id\":2,\"method\":\"ping\"\x7d"

/-- A POST to a session that a DELETE has ended is refused. -/
theorem terminated_session_refused : ∃ s : State, s.ids = ["a"] ∧ s.pc 2 = .resolving pingOnA "a" ∧
    Refused {} s 2 ∧ s.sessions.lookup "a" = none := by
  have h₀ : (machine {}).Reachable Unforged fresh := .initial rfl
  have h₁ := reachable_step (a := .postMint 0 hello "a") h₀ trivial
    (.postMint rfl rfl rfl rfl hello_isInitializeBody rfl (by decide))
  have h₂ := reachable_step (a := .resolve 0) h₁
    (by
      rintro req sid hpc hid hne -
      cases hpc
      exact absurd hid (by decide))
    (resolve_create rfl (resolve_hello rfl rfl))
  have h₃ := reachable_step (a := .delete 1 pingOnA) h₂ trivial (.delete rfl rfl (by decide))
  have h₄ := reachable_step (a := .erase 1) h₃ trivial (.erase rfl)
  have h₅ := reachable_step (a := .post 2 pingOnA) h₄ trivial
    (.post rfl rfl (by decide) (by decide))
  have hspec := unknown_session_refused {}
  exact ⟨_, rfl, rfl, (hspec.1 _ _ _ _ h₅.free rfl rfl rfl rfl).mpr (by decide),
    (hspec.2 _ _ h₅ .refl).2 "a" (by decide) rfl⟩

/-- An initialize request that carries an id of the client's choice. -/
def forged : Request where
  headers := [("Mcp-Session-Id", "mine")]
  body := hello.body

/-- It makes a session under that id, which the host never minted. -/
theorem client_chooses_id : ∃ s s' : State, (machine {}).Reachable Free s ∧
    s.pc 0 = .resolving forged "mine" ∧ s.sessions.lookup "mine" = none ∧
    Step {} s (.resolve 0) s' ∧ s'.pc 0 = .delivering 0 ∧ s'.sessions.lookup "mine" = some 0 ∧
    s'.servers = 1 ∧ s'.minted = [] := by
  have h₀ : (machine {}).Reachable Free fresh := .initial rfl
  have h₁ := reachable_step (a := .post 0 forged) h₀ trivial
    (.post rfl rfl (by decide) (by decide))
  refine ⟨_, _, h₁, rfl, rfl, resolve_create rfl ?_, rfl, rfl, rfl, rfl⟩
  exact resolve_eq_create.mpr ⟨by decide, rfl, hello_isInitializeBody⟩

/-- What the section of the POST is asked for: the id it looks up is its own, or minted for an
initialize body that brought none. -/
def Asked (req : Request) (sid : String) : Prop :=
  sid = req.sessionId ∧ ¬ (req.sessionId.isEmpty = true ∧ req.isInitializeBody = true) ∨
    sid.isEmpty = false ∧ req.isInitializeBody = true

theorem asked_pc {pc : PC} (h : ∀ u req sid, s.pc u = .resolving req sid → Asked req sid)
    (hpc : s'.pc = Function.update s.pc t pc)
    (hp : ∀ req sid, pc = .resolving req sid → Asked req sid) :
    ∀ u req sid, s'.pc u = .resolving req sid → Asked req sid := by
  intro u req sid hu
  rw [hpc] at hu
  rcases update_cases hu with ⟨-, hmine⟩ | ⟨-, hu⟩
  · exact hp req sid hmine
  · exact h u req sid hu

theorem asked_reachable {ok : State → Action → Prop} (h : (machine opts).Reachable ok s) :
    ∀ u req sid, s.pc u = .resolving req sid → Asked req sid := by
  refine h.invariant
    (P := fun s => ∀ u req sid, s.pc u = .resolving req sid → Asked req sid) ?_ ?_
  · rintro s rfl
    nofun
  · intro s a s' _ hasked _ hs
    cases hs with
    | post _ _ _ hplain =>
      refine asked_pc hasked rfl ?_
      rintro _ _ ⟨⟩
      exact .inl ⟨rfl, hplain⟩
    | postMint _ _ _ _ hinit hsid _ =>
      refine asked_pc hasked rfl ?_
      rintro _ _ ⟨⟩
      exact .inr ⟨hsid, hinit⟩
    | @resolve t req sid _ =>
      cases s.resolve req sid <;> exact asked_pc hasked rfl nofun
    | «open» _ | erase _ => split <;> exact asked_pc hasked rfl nofun
    | stop _ | stopAgain _ | stopHook _ | stopHookThrow _ | stopHooked _ | stopClose _
    | stopClosed _ | stopHttp _ | stopListener _ _ | stopJoin _ | stopReturn _ | stopSwap _ =>
      exact hasked
    | _ => exact asked_pc hasked rfl nofun

/-- The frame that is to open a session. -/
def IsInitialize (codec : Codec) (body : String) : Prop :=
  ∃ j r, codec.parse body = some j ∧ parseMessage j = .ok (.request r) ∧ r.method = "initialize"

/-- The section of the POST puts a new session into the table. -/
def Creates (opts : Options) (s : State) (t : ℕ) : Prop :=
  ∃ s' sid, Step opts s (.resolve t) s' ∧ s.sessions.lookup sid = none ∧
    s'.sessions.lookup sid = some s.ids.length

/-- However the section of the POST ends, its answer is 400 and nothing else has happened. -/
def Rejected (opts : Options) (s : State) (t : ℕ) : Prop :=
  ∀ a s', (a = .resolve t ∨ a = .resolveThrow t) → Step opts s a s' →
    s' = s.setPC t (.responding missingSession)

theorem creates_iff (hpc : s.pc t = .resolving req sid) :
    Creates opts s t ↔ s.resolve req sid = .create := by
  constructor
  · rintro ⟨s', i, hs, hnone, hsome⟩
    cases hs with
    | resolve hpc' =>
      cases hpc.symm.trans hpc'
      cases hr : s.resolve req sid with
      | create => rfl
      | found _ | unknown | missing =>
        rw [hr] at hsome
        exact absurd (hnone.symm.trans hsome) nofun
  · intro hr
    exact ⟨_, sid, resolve_create hpc hr, (resolve_eq_create.mp hr).2.1, AList.lookup_insert _⟩

theorem rejected_iff (hpc : s.pc t = .resolving req sid) :
    Rejected opts s t ↔ s.resolve req sid = .missing := by
  constructor
  · intro h
    have hs := h _ _ (.inl rfl) (.resolve hpc)
    have ht := congrFun (congrArg State.pc hs) t
    cases hr : s.resolve req sid with
    | missing => rfl
    | found _ | create | unknown =>
      rw [hr] at ht
      simp [missingSession, unknownSession] at ht
  · rintro hr a s' (rfl | rfl) hs
    · cases hs with
      | resolve hpc' =>
        cases hpc.symm.trans hpc'
        rw [hr]
    · cases hs with
      | resolveThrow hpc' hcreate =>
        cases hpc.symm.trans hpc'
        exact absurd (hr.symm.trans hcreate) nofun

/-- A POST that brought no id is rejected, or makes a session unless its minted id is taken. -/
theorem resolve_of_no_id (hasked : Asked req sid) (hno : req.sessionId.isEmpty = true) :
    (s.resolve req sid = .missing ↔ req.isInitializeBody = false) ∧
      (s.resolve req sid = .create ↔
        req.isInitializeBody = true ∧ s.sessions.lookup sid = none) := by
  rcases hasked with ⟨rfl, hplain⟩ | ⟨hsid, hinit⟩
  · have hb : req.isInitializeBody = false := by
      by_contra hb
      exact hplain ⟨hno, Bool.eq_true_of_not_eq_false hb⟩
    simp [State.resolve, hno, hb]
  · constructor
    · have hne : s.resolve req sid ≠ .missing := by
        unfold State.resolve
        cases s.sessions.lookup sid <;> simp [hsid, hinit]
      simp [hne, hinit]
    · simp [resolve_eq_create, hsid, hinit]

/-- A POST that brings no id opens a session exactly when its body is an initialize request, and is
rejected otherwise, if and only if its text looks like such a request exactly when it is one, and
the id that is minted for it is not that of a session already. -/
theorem session_iff_initialize (opts : Options) (codec : Codec) (s : State) (t : ℕ)
    (req : Request) (sid : String) (h : (machine opts).Reachable Free s)
    (hpc : s.pc t = .resolving req sid) (hno : req.header "Mcp-Session-Id" = none) :
    ((Creates opts s t ↔ IsInitialize codec req.body) ∧
      (¬ IsInitialize codec req.body → Rejected opts s t)) ↔
    (req.isInitializeBody = true ↔ IsInitialize codec req.body) ∧
      (req.isInitializeBody = true → s.sessions.lookup sid = none) := by
  have hempty : req.sessionId.isEmpty = true := by
    unfold Request.sessionId
    rw [hno]
    rfl
  obtain ⟨hmissing, hcreate⟩ := resolve_of_no_id (s := s) (asked_reachable h t req sid hpc) hempty
  rw [creates_iff hpc, rejected_iff hpc, hmissing, hcreate]
  by_cases hinit : IsInitialize codec req.body <;> cases req.isInitializeBody <;> simp [hinit]

/-- A ping that brings no session id. -/
def barePing : Request where
  headers := []
  body := "\x7b\"jsonrpc\":\"2.0\",\"id\":1,\"method\":\"ping\"\x7d"

/-- A tool call that mentions initialize among its arguments. -/
def mention : Request where
  headers := []
  body := "\x7b\"jsonrpc\":\"2.0\",\"id\":1,\"method\":\"tools/call\"," ++
    "\"params\":\x7b\"name\":\"initialize\"\x7d\x7d"

def mentionJson : Json :=
  .object [("id", .unsigned 1), ("jsonrpc", .string "2.0"), ("method", .string "tools/call"),
    ("params", .object [("name", .string "initialize")])]

def barePingJson : Json :=
  .object [("id", .unsigned 1), ("jsonrpc", .string "2.0"), ("method", .string "ping")]

/-- The codec on the texts of that call and of the ping. -/
def mentionCodec : Codec where
  parse text :=
    if text = mention.body then some mentionJson
    else if text = barePing.body then some barePingJson
    else none
  dump _ := none

def mentioned : JsonRpcRequest where
  id := .integer 1
  method := "tools/call"
  params := some (.object [("name", .string "initialize")])

theorem parse_mentionJson : parseMessage mentionJson = .ok (.request mentioned) := rfl

theorem mention_isInitializeBody : mention.isInitializeBody = true :=
  decide_eq_true ⟨("\x7b\"jsonrpc\":\"2.0\",\"id\":1,\"method\":\"tools/call\"," ++
    "\"params\":\x7b\"name\":").toList, "\x7d\x7d".toList, rfl⟩

theorem not_isInitialize_mention : ¬ IsInitialize mentionCodec mention.body := by
  rintro ⟨j, r, hj, hr, hm⟩
  obtain rfl : mentionJson = j := by simpa [mentionCodec] using hj
  cases parse_mentionJson.symm.trans hr
  simp [mentioned] at hm

def barePinged : JsonRpcRequest where
  id := .integer 1
  method := "ping"
  params := none

theorem parse_barePingJson : parseMessage barePingJson = .ok (.request barePinged) := rfl

theorem not_isInitialize_barePing : ¬ IsInitialize mentionCodec barePing.body := by
  rintro ⟨j, r, hj, hr, hm⟩
  have hping : mentionCodec.parse barePing.body = some barePingJson := rfl
  cases hping.symm.trans hj
  cases parse_barePingJson.symm.trans hr
  simp [barePinged] at hm

/-- The ping opens no session and is answered 400. -/
theorem bare_ping_rejected : ∃ s : State, (machine {}).Reachable Free s ∧
    s.pc 0 = .resolving barePing "" ∧ ¬ Creates {} s 0 ∧ Rejected {} s 0 := by
  have h₀ : (machine {}).Reachable Free fresh := .initial rfl
  have h₁ := reachable_step (a := .post 0 barePing) h₀ trivial
    (.post rfl rfl (by decide) (by decide))
  have hplain : barePing.isInitializeBody = false := by decide
  have hiff := session_iff_initialize {} mentionCodec _ 0 barePing "" h₁ rfl rfl
  obtain ⟨hcreates, hrejected⟩ :=
    hiff.mpr ⟨by simp [hplain, not_isInitialize_barePing], by simp [hplain]⟩
  exact ⟨_, h₁, rfl, fun hc => not_isInitialize_barePing (hcreates.mp hc),
    hrejected not_isInitialize_barePing⟩

/-- The tool call opens one. -/
theorem tool_call_opens_session : ∃ s : State, (machine {}).Reachable Free s ∧
    s.pc 0 = .resolving mention "a" ∧ mention.header "Mcp-Session-Id" = none ∧
    parseMessage mentionJson = .ok (.request mentioned) ∧
    ¬ IsInitialize mentionCodec mention.body ∧ Creates {} s 0 ∧ ¬ Rejected {} s 0 := by
  have h₀ : (machine {}).Reachable Free fresh := .initial rfl
  have h₁ := reachable_step (a := .postMint 0 mention "a") h₀ trivial
    (.postMint rfl rfl (by decide) rfl mention_isInitializeBody rfl (by decide))
  refine ⟨_, h₁, rfl, rfl, parse_mentionJson, not_isInitialize_mention, ?_, ?_⟩
  · exact (creates_iff rfl).mpr (resolve_eq_create.mpr ⟨rfl, rfl, mention_isInitializeBody⟩)
  · intro hr
    have hmissing := (resolve_of_no_id (.inr ⟨rfl, mention_isInitializeBody⟩) rfl).1.mp
      ((rejected_iff rfl).mp hr)
    exact absurd (mention_isInitializeBody.symm.trans hmissing) nofun

end Mcp.Http
