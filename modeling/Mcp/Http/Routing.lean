import Mathlib
import Mcp.Http.SessionTransport
import Mcp.Protocol.RoundTrip

/-! The answer to a POST reaches the promise of that POST, except for an id stored as a float and
for a slot left behind under the same key. -/
namespace Mcp

theorem RequestId.canonical_injective {id id' : RequestId} (h : id.canonical = id'.canonical) :
    id = id' := by
  cases id with
  | string s =>
    cases id' with
    | string s' => simpa [RequestId.canonical] using h
    | integer i' =>
      have hl := congrArg String.toList h
      simp [RequestId.canonical] at hl
  | integer i =>
    cases id' with
    | string s' =>
      have hl := congrArg String.toList h
      simp [RequestId.canonical] at hl
    | integer i' =>
      have hi : toString i.toInt = toString i'.toInt := by simpa [RequestId.canonical] using h
      rw [Int64.toInt_inj.mp (Int.repr_injective hi)]

theorem RequestId.canonical_ne_empty (id : RequestId) : id.canonical ≠ "" := by
  intro h
  have hl := congrArg String.toList h
  cases id <;> simp [RequestId.canonical] at hl

/-- How a dumped value is read back, as far as ids go: a non-negative integer may come back as an
unsigned one. -/
def ReadBack : Json → Json → Prop
  | .null, v => v = .null
  | .string s, v => v = .string s
  | .integer i, v => v = .integer i ∨ (0 ≤ i.toInt ∧ v = .unsigned i.toUInt64)
  | _, _ => True

/-- What was dumped can be parsed, and has the same members. -/
def Codec.Faithful (codec : Codec) : Prop :=
  ∀ j text, codec.dump j = some text →
    ∃ j', codec.parse text = some j' ∧ ∀ key, Option.Rel ReadBack (j.find key) (j'.find key)

namespace Http.SessionTransport

open Transition

variable {codec : Codec} {s s' : State codec} {a : Action codec} {t p : ℕ} {id : RequestId}
  {raw key : String} {j : Json} {req : JsonRpcRequest}

/-- The two canonicalisations agree, except on a float. -/
theorem canonicalId_of_fromJson {v : Json} (h : RequestId.fromJson v = .ok id) :
    canonicalId v = if v.isNumberFloat then "" else id.canonical := by
  cases v with
  | string s =>
    cases h
    rfl
  | integer i =>
    cases h
    rfl
  | unsigned u =>
    cases h
    rfl
  | float q => rfl
  | null | boolean _ | array _ | object _ => cases h

@[simp] theorem canonicalId_of (id : RequestId) : canonicalId (Json.of id) = id.canonical := by
  cases id <;> rfl

theorem canonicalId_readBack {v : Json} (h : ReadBack (Json.of id) v) :
    v.isNull = false ∧ canonicalId v = id.canonical := by
  cases id with
  | string s =>
    cases h
    exact ⟨rfl, rfl⟩
  | integer i =>
    rcases h with rfl | ⟨-, rfl⟩
    · exact ⟨rfl, rfl⟩
    · refine ⟨rfl, ?_⟩
      simp [canonicalId, RequestId.canonical]

/-- The id of an accepted request is read from the member the router reads. -/
theorem id_of_parseMessage (h : parseMessage j = .ok (.request req)) :
    j.contains "method" = true ∧ ∃ v, j.find "id" = some v ∧ RequestId.fromJson v = .ok req.id := by
  obtain ⟨hm, hget⟩ := request_of_parseMessage h
  exact ⟨hm, (members_of_get_request hget).1⟩

/-- What an accepted request does when it is posted. -/
theorem deliver_request (hraw : codec.parse raw = some j)
    (hreq : parseMessage j = .ok (.request req)) :
    s.deliver t raw =
      (s.register (keyOf j)).setPC t (.handing { raw, reply := some s.promises }) := by
  obtain ⟨hm, v, hv, hid⟩ := id_of_parseMessage hreq
  have hnull : v.isNull = false := by
    cases v with
    | null => cases hid
    | _ => rfl
  have hhas : hasId j = true := by simp [hasId, hv, hnull]
  simp [State.deliver, hraw, hhas, hm]

/-- Once started, the Session takes it on at once. -/
theorem handOver_request (hraw : codec.parse raw = some j)
    (hreq : parseMessage j = .ok (.request req)) (hs : (s.started && s.listening) = true) :
    s.handOver { raw, reply := some p } =
      { s with owed := Function.update s.owed p (some req.id) } := by
  simp [State.handOver, State.take, hs, hraw, hreq]

/-- The answer to `id` is routed by the key of `id`. -/
theorem send_answer (hcodec : codec.Faithful) (m : Outgoing codec (some id)) :
    s.send m.frame = match s.pending.lookup id.canonical with
      | none => s
      | some p => { s with
        pending := s.pending.erase id.canonical
        settled := s.settled ++ [(p, .ok m.frame)] } := by
  obtain ⟨msg, frame, hd, ha⟩ := m
  obtain ⟨j, hj, hrel⟩ := hcodec _ _ hd
  cases msg with
  | request r => cases ha
  | notification n => cases ha
  | response r =>
    have hrid : r.id = some id := ha
    have hfid : (Json.of r).find "id" = some (Json.of id) := by
      cases ho : r.outcome <;> simp [find_response, ho, hrid]
    have hfm : (Json.of r).find "method" = none := by
      cases ho : r.outcome <;> simp [find_response, ho]
    have hi := hrel "id"
    have hm := hrel "method"
    simp only [serializeMessage, hfid, hfm] at hi hm
    cases hv : j.find "id" with
    | none =>
      rw [hv] at hi
      cases hi
    | some v =>
      rw [hv] at hi
      cases hi with
      | some hrb =>
        obtain ⟨hnull, hkey⟩ := canonicalId_readBack hrb
        have hnone : j.find "method" = none := by
          cases hmv : j.find "method" with
          | none => rfl
          | some w =>
            rw [hmv] at hm
            cases hm
        have hrouted : (hasId j && !j.contains "method") = true := by
          simp [hasId, Json.contains, hv, hnull, hnone]
        have hk : keyOf j = id.canonical := by simp [keyOf, hv, hkey]
        rw [← hk]
        cases hl : s.pending.lookup (keyOf j) <;>
          simp only [State.send, hj, hrouted, hl, if_true]

/-- Every other message goes to the GET stream. -/
theorem send_other (hcodec : codec.Faithful) (m : Outgoing codec none) :
    s.send m.frame = { s with getQueue := s.getQueue ++ [m.frame] } := by
  obtain ⟨msg, frame, hd, ha⟩ := m
  obtain ⟨j, hj, hrel⟩ := hcodec _ _ hd
  have hunrouted : (hasId j && !j.contains "method") = false := by
    cases msg with
    | request r =>
      have hm := hrel "method"
      simp only [serializeMessage, find_request] at hm
      cases hv : j.find "method" with
      | none =>
        rw [hv] at hm
        cases hm
      | some v => simp [Json.contains, hv]
    | notification n =>
      have hi := hrel "id"
      simp only [serializeMessage, find_notification] at hi
      cases hv : j.find "id" with
      | none => simp [hasId, hv]
      | some v =>
        rw [hv] at hi
        cases hi
    | response r =>
      have hrid : r.id = none := ha
      have hfid : (Json.of r).find "id" = some .null := by
        cases ho : r.outcome <;> simp [find_response, ho, hrid]
      have hi := hrel "id"
      simp only [serializeMessage, hfid] at hi
      cases hv : j.find "id" with
      | none => simp [hasId, hv]
      | some v =>
        rw [hv] at hi
        cases hi with
        | some hrb =>
          have hnull : v = .null := hrb
          simp [hasId, hv, hnull, Json.isNull]
  simp [State.send, hj, hunrouted]

/-- The Session only takes on a debt. -/
theorem take_frame (s : State codec) (f : Frame) : ∃ owed, s.take f = { s with owed := owed } := by
  unfold State.take
  split
  · exact ⟨_, rfl⟩
  · exact ⟨s.owed, rfl⟩

theorem handOver_frame (s : State codec) (f : Frame) :
    ∃ owed buffered, s.handOver f = { s with owed := owed, buffered := buffered } := by
  unfold State.handOver
  split
  · obtain ⟨owed, he⟩ := take_frame s f
    exact ⟨owed, s.buffered, he⟩
  · exact ⟨s.owed, _, rfl⟩

/-- Sending touches the slots, the promises and the queue of the GET stream. -/
theorem send_frame (s : State codec) (frame : String) : ∃ pending settled getQueue,
    s.send frame = { s with pending := pending, settled := settled, getQueue := getQueue } := by
  unfold State.send
  split
  · exact ⟨_, _, _, rfl⟩
  · split
    · split <;> exact ⟨_, _, _, rfl⟩
    · exact ⟨_, _, _, rfl⟩

/-- What a step does to the slots and to the promises. -/
inductive Change (s : State codec) : Action codec → State codec → Prop where
  | same {b : Action codec} {s' : State codec} : s'.pending = s.pending →
      s'.promises = s.promises → Change s b s'
  | register {u : ℕ} {body k : String} {s' : State codec} :
      s'.pending = Dict.tryEmplace k s.promises s.pending →
      s'.promises = s.promises + 1 → Change s (.post u body) s'
  | route {u q : ℕ} {i : RequestId} {m} {s' : State codec} : s.pc u = .answering q i m →
      s'.pending = s.pending.erase i.canonical → s'.promises = s.promises → Change s (.route u) s'
  | drain {s' : State codec} : s.draining = true → s'.pending = ∅ →
      s'.promises = s.promises → Change s .drain s'

theorem step_change (hcodec : codec.Faithful) (hs : Step codec s a s') : Change s a s' := by
  cases hs with
  | @post t raw _ =>
    unfold State.deliver
    split
    · exact .same rfl rfl
    · split
      · exact .register rfl rfl
      · exact .same rfl rfl
  | @startHand f fs _ =>
    obtain ⟨owed, he⟩ := take_frame { s with starting := fs } f
    rw [he]
    exact .same rfl rfl
  | @handOver t f _ =>
    obtain ⟨owed, buffered, he⟩ := handOver_frame s f
    rw [he]
    exact .same rfl rfl
  | @route t p id m hpc =>
    rw [send_answer hcodec]
    split
    · exact .same rfl rfl
    · exact .route hpc rfl rfl
  | push _ =>
    rw [send_other hcodec]
    exact .same rfl rfl
  | drain hd => exact .drain hd rfl rfl
  | _ => exact .same rfl rfl

theorem promises_le (hcodec : codec.Faithful) (hs : Step codec s a s') :
    s.promises ≤ s'.promises := by
  cases step_change hcodec hs with
  | same _ hn | register _ hn | route _ _ hn | drain _ _ hn => omega

/-- A slot was there before, or holds the promise that has just been made. -/
theorem slot_cases (hcodec : codec.Faithful) (hs : Step codec s a s')
    (hl : s'.pending.lookup key = some p) :
    s.pending.lookup key = some p ∨ (p = s.promises ∧ s'.promises = s.promises + 1) := by
  cases step_change hcodec hs with
  | same hp _ =>
    rw [hp] at hl
    exact .inl hl
  | register hp hn =>
    rw [hp] at hl
    rcases Dict.lookup_of_lookup_tryEmplace hl with ⟨-, he, -⟩ | hl
    · exact .inr ⟨he, hn⟩
    · exact .inl hl
  | route _ hp _ =>
    rw [hp] at hl
    exact .inl (Dict.lookup_of_lookup_erase hl)
  | drain _ hp _ =>
    rw [hp] at hl
    cases hl

/-- close() has not begun. -/
def Open (s : State codec) : Prop := s.closed = false ∧ s.draining = false

theorem open_send (s : State codec) (frame : String) :
    (s.send frame).closed = s.closed ∧ (s.send frame).draining = s.draining := by
  unfold State.send
  split
  · exact ⟨rfl, rfl⟩
  · split
    · split <;> exact ⟨rfl, rfl⟩
    · exact ⟨rfl, rfl⟩

theorem flags_step (hs : Step codec s a s') :
    (s'.closed = s.closed ∧ s'.draining = s.draining) ∨ (a = .close ∧ s'.closed = true) ∨
      (a = .drain ∧ s.draining = true ∧ s'.closed = s.closed ∧ s'.draining = false) := by
  cases hs with
  | @post t raw _ =>
    left
    unfold State.deliver
    split
    · exact ⟨rfl, rfl⟩
    · split <;> exact ⟨rfl, rfl⟩
  | @startHand f fs _ =>
    obtain ⟨owed, he⟩ := take_frame { s with starting := fs } f
    rw [he]
    exact .inl ⟨rfl, rfl⟩
  | @handOver t f _ =>
    obtain ⟨owed, buffered, he⟩ := handOver_frame s f
    rw [he]
    exact .inl ⟨rfl, rfl⟩
  | route _ | push _ => exact .inl (open_send s _)
  | close _ => exact .inr (.inl ⟨rfl, rfl⟩)
  | drain hd => exact .inr (.inr ⟨rfl, hd, rfl, rfl⟩)
  | _ => exact .inl ⟨rfl, rfl⟩

theorem open_step (hs : Step codec s a s') (ha : a ≠ .close) (h : Open s) : Open s' := by
  obtain ⟨hc, hd⟩ := h
  rcases flags_step hs with ⟨hc', hd'⟩ | ⟨rfl, -⟩ | ⟨-, hd', -⟩
  · exact ⟨hc'.trans hc, hd'.trans hd⟩
  · exact absurd rfl ha
  · simp [hd] at hd'

/-- Only a closed transport is drained. -/
theorem open_of_closed (h : (machine codec).Reachable Free s) (hc : s.closed = false) : Open s := by
  have hinv : s.draining = true → s.closed = true := by
    refine h.invariant (P := fun s => s.draining = true → s.closed = true) ?_ ?_
    · rintro s rfl hd
      cases hd
    · intro s a s' _ hi _ hst hd
      rcases flags_step hst with ⟨hc', hd'⟩ | ⟨-, hc'⟩ | ⟨-, -, -, hd'⟩
      · exact hc'.trans (hi (hd' ▸ hd))
      · exact hc'
      · simp [hd'] at hd
  refine ⟨hc, ?_⟩
  by_contra hd
  simp [hc] at hinv
  exact hd hinv

/-- A promise that has been made is held by no slot but those in `Q`. -/
def Held (p : ℕ) (Q : String → Prop) (s : State codec) : Prop :=
  p < s.promises ∧ ∀ key, s.pending.lookup key = some p → Q key

theorem held_step {Q : String → Prop} (hcodec : codec.Faithful) (hs : Step codec s a s')
    (h : Held p Q s) : Held p Q s' := by
  obtain ⟨hlt, hq⟩ := h
  have hle := promises_le hcodec hs
  refine ⟨by omega, ?_⟩
  intro key hl
  rcases slot_cases hcodec hs hl with hl | ⟨he, -⟩
  · exact hq key hl
  · omega

theorem lt_promises (hcodec : codec.Faithful) (h : (machine codec).Reachable Free s)
    (hl : s.pending.lookup key = some p) : p < s.promises := by
  have hinv : ∀ key p, s.pending.lookup key = some p → p < s.promises := by
    refine h.invariant (P := fun s => ∀ key p, s.pending.lookup key = some p → p < s.promises) ?_ ?_
    · rintro s rfl
      nofun
    · intro s a s' _ hi _ hst key p hl
      have hle := promises_le hcodec hst
      rcases slot_cases hcodec hst hl with hl | ⟨he, hn⟩
      · have hlt := hi key p hl
        omega
      · omega
  exact hinv key p hl

/-- The Session owes `p` an answer to `id`, or is about to route it. -/
def InFlight (s : State codec) (p : ℕ) (id : RequestId) : Prop :=
  s.owed p = some id ∨ ∃ t m, s.pc t = .answering p id m

/-- Up to the answer of `p`: the session is not closed, and no other request with the id of `p` is
in flight. -/
def Alone (p : ℕ) (id : RequestId) (s : State codec) (a : Action codec) : Prop :=
  a ≠ .close ∧ (∀ q, InFlight s q id → q = p) ∧ ∀ t m, s.pc t = .answering p id m → a ≠ .route t

/-- Only its own answer takes the slot of `p`. -/
theorem slot_step (hcodec : codec.Faithful) (hs : Step codec s a s') (hok : Alone p id s a)
    (ho : Open s) (hl : s.pending.lookup id.canonical = some p) :
    s'.pending.lookup id.canonical = some p := by
  obtain ⟨-, halone, hfirst⟩ := hok
  cases step_change hcodec hs with
  | same hp _ => rw [hp, hl]
  | register hp _ =>
    rw [hp]
    exact Dict.lookup_tryEmplace_of_lookup hl
  | @route u q i m _ hpc hp _ =>
    have hne : i ≠ id := by
      rintro rfl
      have hq := halone q (.inr ⟨u, m, hpc⟩)
      subst q
      exact hfirst u m hpc rfl
    rw [hp, AList.lookup_erase_ne (fun he => hne (RequestId.canonical_injective he).symm), hl]
  | drain hd _ _ => simp [ho.2] at hd

theorem slot_run (hcodec : codec.Faithful) (hr : (machine codec).Run (Alone p id) s s')
    (ho : Open s) (hl : s.pending.lookup id.canonical = some p) :
    s'.pending.lookup id.canonical = some p := by
  have hinv : Open s' ∧ s'.pending.lookup id.canonical = some p := by
    refine hr.invariant (P := fun s => Open s ∧ s.pending.lookup id.canonical = some p) ?_ ⟨ho, hl⟩
    rintro s a s' ⟨ho, hl⟩ hok hst
    exact ⟨open_step hst hok.1 ho, slot_step hcodec hst hok ho hl⟩
  exact hinv.2

theorem settled_send (hcodec : codec.Faithful) (m : Outgoing codec (some id)) :
    (s.send m.frame).settled = s.settled ++ [(p, .ok m.frame)] ↔
      s.pending.lookup id.canonical = some p := by
  rw [send_answer hcodec]
  cases s.pending.lookup id.canonical <;> simp

/-- The slot of a POST is there when its answer comes exactly when it was filed, and under the key
that the answer has. -/
theorem slot_iff {pc : PC codec} (hcodec : codec.Faithful) (h : (machine codec).Reachable Free s)
    (hopen : s.closed = false) (hr : (machine codec).Run (Alone s.promises id)
      ((s.register key).setPC t pc) s') :
    s'.pending.lookup id.canonical = some s.promises ↔
      key = id.canonical ∧ s.pending.lookup key = none := by
  constructor
  · intro hl
    have hheld : Held s.promises (fun k => k = key ∧ s.pending.lookup key = none) s' := by
      refine hr.invariant (P := Held s.promises _)
        (fun _ _ _ hh _ hst => held_step hcodec hst hh) ⟨Nat.lt_succ_self _, ?_⟩
      intro k hk
      rcases Dict.lookup_of_lookup_tryEmplace hk with ⟨rfl, -, hnone⟩ | hk
      · exact ⟨rfl, hnone⟩
      · exact absurd (lt_promises hcodec h hk) (Nat.lt_irrefl _)
    obtain ⟨hk, hnone⟩ := hheld.2 _ hl
    exact ⟨hk.symm, hnone⟩
  · rintro ⟨rfl, hnone⟩
    have ho : Open s := open_of_closed h hopen
    refine slot_run hcodec hr ho ?_
    exact Dict.lookup_tryEmplace_self (AList.lookup_eq_none.mp hnone)

/-- The answer to an accepted request settles the promise of its POST exactly when the id is not
stored as a float and no slot was left under its key; and the key of the id as it was sent is the
key of the id as it is sent back exactly when the id is not stored as a float. -/
theorem answer_reaches_its_post (hcodec : codec.Faithful) {s s₁ s₂ s₃ : State codec} {t u : ℕ}
    {raw : String} {j : Json} {req : JsonRpcRequest} {m : Outgoing codec (some req.id)}
    (h : (machine codec).Reachable Free s) (hopen : s.closed = false)
    (hraw : codec.parse raw = some j) (hreq : parseMessage j = .ok (.request req))
    (hpost : Step codec s (.post t raw) s₁)
    (hrun : (machine codec).Run (Alone s.promises req.id) s₁ s₂)
    (hanswer : s₂.pc u = .answering s.promises req.id m) (hroute : Step codec s₂ (.route u) s₃) :
    ∃ id, j.find "id" = some id ∧
      (s₃.settled = s₂.settled ++ [(s.promises, .ok m.frame)] ↔
        id.isNumberFloat = false ∧ s.pending.lookup (canonicalId id) = none) ∧
      (canonicalId id = canonicalId (Json.of req.id) ↔ id.isNumberFloat = false) := by
  obtain ⟨-, v, hv, hid⟩ := id_of_parseMessage hreq
  have hkey : canonicalId v = req.id.canonical ↔ v.isNumberFloat = false := by
    rw [canonicalId_of_fromJson hid]
    cases v.isNumberFloat with
    | false => simp
    | true => simpa using (RequestId.canonical_ne_empty req.id).symm
  refine ⟨v, hv, ?_, by rw [canonicalId_of, hkey]⟩
  cases hpost with
  | post _ =>
    rw [deliver_request hraw hreq] at hrun
    have hslot := slot_iff hcodec h hopen hrun
    have hk : keyOf j = canonicalId v := by simp [keyOf, hv]
    cases hroute with
    | route hpc =>
      cases hanswer.symm.trans hpc
      rw [← hkey, ← hk, ← hslot]
      exact settled_send hcodec m

/-- A ping, by the id it carries. -/
def pingWith (id : Json) : Json :=
  .object [("id", id), ("jsonrpc", .string "2.0"), ("method", .string "ping")]

def pingText : String := "\x7b\"jsonrpc\":\"2.0\",\"id\":1,\"method\":\"ping\"\x7d"
def floatPingText : String := "\x7b\"jsonrpc\":\"2.0\",\"id\":1.0,\"method\":\"ping\"\x7d"
def pongText : String := "\x7b\"id\":1,\"jsonrpc\":\"2.0\",\"result\":\x7b\x7d\x7d"

def pongWith (id : Json) : Json :=
  .object [("id", id), ("jsonrpc", .string "2.0"), ("result", .object [])]

/-- The text codec on the frames of one ping. -/
def pingCodec : Codec where
  parse text :=
    if text = pingText then some (pingWith (.unsigned 1))
    else if text = floatPingText then some (pingWith (.float 1))
    else if text = pongText then some (pongWith (.unsigned 1))
    else none
  dump
    | .object [(k₁, .integer i), (k₂, .string v), (k₃, .object [])] =>
      if k₁ = "id" ∧ i = 1 ∧ k₂ = "jsonrpc" ∧ v = "2.0" ∧ k₃ = "result" then some pongText else none
    | _ => none

/-- The id of a pong, dumped as a signed integer, is read back as an unsigned one. -/
theorem readBack_pong {i : Int64} (hi : 0 ≤ i.toInt) (key : String) :
    Option.Rel ReadBack ((pongWith (.integer i)).find key)
      ((pongWith (.unsigned i.toUInt64)).find key) := by
  simp only [pongWith, Json.find, Json.lookup_cons, List.lookup_nil]
  split
  · exact .some (.inr ⟨hi, rfl⟩)
  · split
    · exact .some rfl
    · split
      · exact .some trivial
      · exact .none

theorem pingCodec_faithful : pingCodec.Faithful := by
  intro j text h
  simp only [pingCodec] at h
  split at h
  · split at h
    · rename_i hj
      obtain ⟨rfl, rfl, rfl, rfl, rfl⟩ := hj
      cases h
      exact ⟨pongWith (.unsigned 1), rfl, readBack_pong (by decide)⟩
    · cases h
  · cases h

def ping : JsonRpcRequest where
  id := .integer 1
  method := "ping"
  params := none

def pong : Outgoing pingCodec (some ping.id) where
  msg := .response { id := some (.integer 1), outcome := .result (.object []) }
  frame := pongText
  dumped := by decide
  answers := rfl

theorem parse_pingWith {v : Json} (h : RequestId.fromJson v = .ok id) :
    parseMessage (pingWith v) = .ok (.request { ping with id := id }) := by
  have hget : (pingWith v).get JsonRpcRequest = .ok { ping with id := id } := by
    change JsonRpcRequest.fromJson (pingWith v) = _
    have hv : checkJsonrpc (pingWith v) = .ok () := checkJsonrpc_of_find rfl
    have hi : getAt RequestId (pingWith v) "id" = .ok id := h
    have hm : require String (pingWith v) "method" = .ok "ping" := rfl
    have ht : takeOptionalJson (pingWith v) "params" = none := rfl
    simp [JsonRpcRequest.fromJson, hv, hi, hm, ht, bind, Except.bind, pure, Except.pure, ping]
  have ho : (pingWith v).isObject = true := rfl
  have hc : (pingWith v).contains "id" = true ∧ (pingWith v).contains "method" = true := ⟨rfl, rfl⟩
  simp [parseMessage, ho, hc, hget, bind, Except.bind, pure, Except.pure]

theorem parse_ping : parseMessage (pingWith (.unsigned 1)) = .ok (.request ping) :=
  parse_pingWith rfl

theorem parse_float_ping : parseMessage (pingWith (.float 1)) = .ok (.request ping) := by
  have hc : castInt64 1 = 1 := by decide
  exact parse_pingWith (by simp [RequestId.fromJson, hc])

/-- A transport that has been wired and started. -/
def ready : State pingCodec := { fresh with listening := true, started := true }

theorem ready_reachable : (machine pingCodec).Reachable Free ready := by
  have h₀ : (machine pingCodec).Reachable Free fresh := .initial rfl
  have h₁ := reachable_step (a := .onMessage) h₀ trivial .onMessage
  exact reachable_step (a := .start) h₁ trivial .start

/-- The ping `raw` has been posted. -/
def posted (raw : String) (j : Json) : State pingCodec :=
  (ready.register (keyOf j)).setPC 0 (.handing { raw, reply := some 0 })

/-- The Session has taken it. -/
def taken (raw : String) (j : Json) : State pingCodec :=
  { posted raw j with owed := Function.update (posted raw j).owed 0 (some ping.id) }.setPC 0
    (.waiting 0)

/-- The Session is about to route its answer. -/
def answered (raw : String) (j : Json) : State pingCodec :=
  { taken raw j with owed := Function.update (taken raw j).owed 0 none }.setPC 1
    (.answering 0 ping.id pong)

/-- However a ping writes its id, it is posted, handed over and answered. -/
theorem ping_run (raw : String) {j : Json} (hraw : pingCodec.parse raw = some j)
    (hreq : parseMessage j = .ok (.request ping)) :
    Step pingCodec ready (.post 0 raw) (posted raw j) ∧
      (machine pingCodec).Run (Alone 0 ping.id) (posted raw j) (answered raw j) := by
  have hpost : Step pingCodec ready (.post 0 raw) (ready.deliver 0 raw) := .post rfl
  rw [deliver_request hraw hreq] at hpost
  have hhand : Step pingCodec (posted raw j) (.handOver 0) (taken raw j) := by
    have h := @Step.handOver pingCodec (posted raw j) 0 _ rfl
    rwa [handOver_request hraw hreq rfl] at h
  have hanswer : Step pingCodec (taken raw j) (.answer 1 0 ping.id pong) (answered raw j) :=
    .answer rfl rfl
  have hrun : (machine pingCodec).Run (Alone 0 ping.id) (posted raw j) (taken raw j) := by
    refine System.Run.refl.step (a := .handOver 0) ⟨nofun, ?_, nofun⟩ hhand
    rintro q (ho | ⟨t, m, ht⟩)
    · cases ho
    · by_cases h0 : t = 0
      · subst t
        cases ht
      · simp [posted, State.setPC, State.register, ready, fresh, h0] at ht
  refine ⟨hpost, hrun.step (a := .answer 1 0 ping.id pong) ⟨nofun, ?_, nofun⟩ hanswer⟩
  rintro q (ho | ⟨t, m, ht⟩)
  · by_contra hq
    simp [taken, posted, State.setPC, State.register, ready, fresh, hq] at ho
  · by_cases h0 : t = 0
    · subst t
      cases ht
    · simp [taken, posted, State.setPC, State.register, ready, fresh, h0] at ht

/-- A ping gets its answer. -/
theorem ping_answered : ∃ s : State pingCodec, (machine pingCodec).Reachable Free s ∧
    s.settled = [(0, .ok pongText)] := by
  obtain ⟨hpost, hrun⟩ := ping_run pingText rfl parse_ping
  have hroute : Step pingCodec (answered pingText (pingWith (.unsigned 1))) (.route 1) _ :=
    .route rfl
  obtain ⟨id, hid, hanswer, -⟩ := answer_reaches_its_post pingCodec_faithful ready_reachable rfl rfl
    parse_ping hpost hrun rfl hroute
  cases hid
  have hposted := reachable_step ready_reachable trivial hpost
  have hreach := hposted.run (hrun.mono (fun _ _ _ => trivial))
  exact ⟨_, reachable_step hreach trivial hroute, hanswer.mpr ⟨rfl, rfl⟩⟩

/-- The ping whose id is written `1.0` is accepted as well, and its answer finds no slot: the POST
goes on waiting. -/
theorem float_ping_unanswered : ∃ s₁ s₂ s₃ : State pingCodec,
    (machine pingCodec).Reachable Free ready ∧ ready.closed = false ∧
    pingCodec.parse floatPingText = some (pingWith (.float 1)) ∧
    parseMessage (pingWith (.float 1)) = .ok (.request ping) ∧
    Step pingCodec ready (.post 0 floatPingText) s₁ ∧
    (machine pingCodec).Run (Alone 0 ping.id) s₁ s₂ ∧ s₂.pc 1 = .answering 0 ping.id pong ∧
    Step pingCodec s₂ (.route 1) s₃ ∧ s₃.settled = [] ∧ s₃.pc 0 = .waiting 0 := by
  obtain ⟨hpost, hrun⟩ := ping_run floatPingText rfl parse_float_ping
  exact ⟨_, _, _, ready_reachable, rfl, rfl, parse_float_ping, hpost, hrun, rfl, .route rfl, rfl,
    rfl⟩

end Http.SessionTransport

end Mcp
