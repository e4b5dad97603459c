import Mcp.Session.Correlation
import Mcp.Session.Timeouts

/-! When a request times out: its deadline is a sum in 64 bits of nanoseconds. -/
namespace Mcp.Session

open Transition Transition.System

variable {V : Type} {opts : Options} {calls : ℕ → Call V} {s s' : State V} {a : Action}
  {t : Thread} {k : ℕ} {d now now' timeout : Int64}

/-- Milliseconds until a request with this timeout is due. -/
def effectiveTimeout (opts : Options) (timeout : Int64) : Int64 :=
  if timeout = 0 then opts.defaultRequestTimeout else timeout

/-- The nanosecond at which it is due, on a clock that never wraps. -/
def dueAt (opts : Options) (now timeout : Int64) : ℤ :=
  now.toInt + (effectiveTimeout opts timeout).toInt * 1000000

/-- In some run a request with this timeout is registered at `now`, and a sweep at `now'`
rejects it. -/
def TimesOut (V : Type) (opts : Options) (now timeout now' : Int64) : Prop :=
  ∃ (calls : ℕ → Call V) (s s₁ s₂ s₃ : State V) (t : Thread) (ks : List ℕ),
    (machine opts calls).Reachable Free s ∧ (calls s.issued).timeout = timeout ∧
    Step opts calls s (.nextId t now) s₁ ∧ (machine opts calls).Run Free s₁ s₂ ∧
    Step opts calls s₂ (.timerExpire now') s₃ ∧
    s₃.pc .timer = .rejecting ks timedOut .locking ∧ s.issued ∈ ks

/-- The clock does not run backwards, and no run rejects such a request before it is due. -/
def NeverEarly (V : Type) (opts : Options) (now timeout : Int64) : Prop :=
  ∀ now', now ≤ now' → TimesOut V opts now timeout now' → dueAt opts now timeout ≤ now'.toInt

/-- The deadline is the due moment, wrapped. -/
theorem toInt_deadlineOf (opts : Options) (now timeout : Int64) :
    (deadlineOf opts now timeout).toInt = (dueAt opts now timeout).bmod (2 ^ 64) := by
  have hmillion : (1000000 : Int64).toInt = 1000000 := rfl
  unfold deadlineOf
  rw [Int64.toInt_add, Int64.toInt_mul, Int.add_bmod_bmod, hmillion]
  rfl

theorem exact_iff : (deadlineOf opts now timeout).toInt = dueAt opts now timeout ↔
    -2 ^ 63 ≤ dueAt opts now timeout ∧ dueAt opts now timeout < 2 ^ 63 := by
  constructor
  · intro h
    rw [← h]
    exact ⟨Int64.le_toInt _, Int64.toInt_lt _⟩
  · rintro ⟨hle, hlt⟩
    rw [toInt_deadlineOf]
    exact Int.bmod_eq_of_le (by norm_num; omega) (by norm_num; omega)

theorem issued_step (hs : Step opts calls s a s') : s.issued ≤ s'.issued := by
  cases hs with
  | park _ => exact (park_untouched ..).issued.ge
  | pull _ => exact (pull_untouched ..).issued.ge
  | response _ => exact (takeResponse_untouched ..).issued.ge
  | timerSection _ | timerWake _ => exact (timeoutSection_untouched s).issued.ge
  | nextId _ => exact Nat.le_succ _
  | _ => exact le_refl _

/-- A thread comes to register a request only as it numbers it. -/
theorem registering_step (hs : Step opts calls s a s') (hr : s'.pc t = .registering k d) :
    s.pc t = .registering k d ∨ k = s.issued := by
  rcases pc_enter (P := (· = .registering k d)) hs hr with hr' | hf
  · exact .inl hr'
  · rw [hr] at hf
    generalize s.pc t = pc at hf
    generalize hpc' : PC.registering k d = pc' at hf
    cases hf with
    | nextId =>
      right
      cases hs
      simp only [setPC_pc, Function.update_self, PC.registering.injEq] at hr
      exact hr.1.symm
    | @rejected _ _ next => cases next <;> cases hpc'
    | _ => cases hpc'

/-- An entry comes into the map from a thread that was registering it. -/
theorem parked_step (hs : Step opts calls s a s') {id : RequestId} {p : Pending}
    (hl : s'.pending.lookup id = some p) :
    s.pending.lookup id = some p ∨ ∃ t, s.pc t = .registering p.promise p.deadline := by
  cases hs with
  | @park t k d hpc =>
    unfold State.park at hl
    split at hl
    · exact .inl hl
    · split at hl
      · exact .inl hl
      · rcases Dict.lookup_of_lookup_insert hl with ⟨-, rfl⟩ | ⟨-, hl⟩
        · exact .inr ⟨t, hpc⟩
        · exact .inl hl
  | pull _ =>
    unfold State.pull at hl
    split at hl
    · exact .inl hl
    · exact .inl (Dict.lookup_of_lookup_erase hl)
  | response _ =>
    unfold State.takeResponse at hl
    dsimp only at hl
    split at hl
    · exact .inl hl
    · split at hl
      · exact .inl hl
      · exact .inl (Dict.lookup_of_lookup_erase hl)
  | timerSection _ | timerWake _ =>
    unfold State.timeoutSection at hl
    split at hl <;> try split at hl
    all_goals exact .inl hl
  | timerExpire _ _ => exact .inl (Dict.lookup_of_lookup_filter hl).1
  | onClose _ | closeCancel _ => cases hl
  | _ => exact .inl hl

/-- Request `k` has been numbered, and has deadline `d` as long as it waits. -/
structure Timed (k : ℕ) (d : Int64) (s : State V) : Prop where
  issued : k < s.issued
  registering : ∀ t d', s.pc t = .registering k d' → d' = d
  parked : ∀ id p, s.pending.lookup id = some p → p.promise = k → p.deadline = d

theorem timed_step (hs : Step opts calls s a s') (h : Timed k d s) : Timed k d s' := by
  refine ⟨h.issued.trans_le (issued_step hs), ?_, ?_⟩
  · intro t d' hr
    rcases registering_step hs hr with hr | hk
    · exact h.registering t d' hr
    · exact absurd hk h.issued.ne
  · intro id p hl hp
    rcases parked_step hs hl with hl | ⟨t, hr⟩
    · exact h.parked id p hl hp
    · subst hp
      exact h.registering t _ hr

/-- What waits has been numbered before. -/
theorem waits_numbered (h : (machine opts calls).Reachable Free s) :
    (∀ t k d, s.pc t = .registering k d → k < s.issued) ∧
    ∀ id p, s.pending.lookup id = some p → p.promise < s.issued := by
  have hx := exclusive_reachable h
  constructor
  · intro t k d hr
    exact hx.live_of_mem (p := .caller t) (by simp [hold, hr, PC.unparked])
  · intro id p hl
    have hm : p.promise ∈ hold s .parked :=
      Multiset.mem_map_of_mem Pending.promise (Dict.mem_values_of_lookup hl)
    exact hx.live_of_mem hm

/-- A request that has just been numbered waits nowhere else. -/
theorem timed_nextId (h : (machine opts calls).Reachable Free s)
    (hs : Step opts calls s (.nextId t now) s') :
    Timed s.issued (deadlineOf opts now (calls s.issued).timeout) s' := by
  obtain ⟨hreg, hpark⟩ := waits_numbered h
  cases hs with
  | nextId _ =>
    refine ⟨Nat.lt_succ_self _, ?_, ?_⟩
    · intro u d' hr
      rcases update_cases hr with ⟨-, hmine⟩ | ⟨-, hr⟩
      · cases hmine
        rfl
      · exact absurd (hreg u _ _ hr) (lt_irrefl _)
    · intro id p hl hp
      exact absurd (hpark id p hl) (by omega)

theorem deadline_le_of_timesOut (h : TimesOut V opts now timeout now') :
    deadlineOf opts now timeout ≤ now' := by
  obtain ⟨calls, s, s₁, s₂, s₃, t, ks, hreach, rfl, hnext, hrun, hexpire, hpc, hk⟩ := h
  have htimed : Timed s.issued (deadlineOf opts now (calls s.issued).timeout) s₂ :=
    hrun.invariant (P := Timed _ _) (fun _ _ _ h _ hst => timed_step hst h)
      (timed_nextId hreach hnext)
  obtain ⟨-, ks', hpc', hks⟩ := sweep_exact hexpire
  rw [hpc] at hpc'
  cases hpc'
  obtain ⟨id, p, hl, hp, hle⟩ := (hks s.issued).mp hk
  rwa [htimed.parked id p hl hp] at hle

/-- A session has been started, and no request has been made. -/
structure Opened (s : State V) : Prop where
  issued : s.issued = 0
  closed : s.closed = false
  pending : s.pending = ∅
  timer : s.pc .timer = .locking
  idle : s.pc (.app 1) = .idle

theorem exists_opened (opts : Options) (calls : ℕ → Call V) :
    ∃ s, (machine opts calls).Reachable Free s ∧ Opened s := by
  have h₀ : (machine opts calls).Reachable Free (fresh V) := .initial rfl
  have h₁ := reachable_step (a := .startClaim (.app 0)) h₀ trivial (.startClaim rfl rfl)
  have h₂ := reachable_step (a := .startClear (.app 0)) h₁ trivial (.startClear rfl)
  have h₃ := reachable_step (a := .startTimer (.app 0)) h₂ trivial (.startTimer rfl rfl)
  have h₄ := reachable_step (a := .startTransport (.app 0)) h₃ trivial (.startTransport rfl)
  exact ⟨_, h₄, rfl, rfl, rfl, rfl, rfl⟩

section Opening

variable (opts : Options) (calls : ℕ → Call V)

theorem registers (now : Int64) (h : Opened s) :
    ∃ s', Step opts calls s (.nextId (.app 1) now) s' ∧
      s'.pc (.app 1) = .registering 0 (deadlineOf opts now (calls 0).timeout) ∧
      s'.closed = false ∧ s'.pending = ∅ ∧ s'.pc .timer = .locking := by
  refine ⟨_, .nextId h.idle, ?_, h.closed, h.pending, ?_⟩
  · simp [h.issued]
  · simp [h.timer]

theorem parks (hpc : s.pc (.app 1) = .registering k d) (hopen : s.closed = false)
    (hempty : s.pending = ∅) (htimer : s.pc .timer = .locking) :
    ∃ s', Step opts calls s (.park (.app 1)) s' ∧
      s'.pending.lookup (requestId k) = some ⟨k, d⟩ ∧ s'.closed = false ∧
      s'.pc .timer = .locking := by
  refine ⟨_, .park hpc, ?_⟩
  have hnew : requestId k ∉ s.pending := by simp [hempty]
  simp [State.park, State.setPC, State.notifyTimer, hopen, hnew, htimer]

theorem sleeps {id : RequestId} {p : Pending} (hl : s.pending.lookup id = some p)
    (hopen : s.closed = false) (htimer : s.pc .timer = .locking) :
    ∃ s', Step opts calls s .timerSection s' ∧ s'.pending.lookup id = some p ∧
      s'.pc .timer = .waiting (some (soonest s'.pending)) := by
  have hsection : s.timeoutSection =
      { s with notified := false }.setPC .timer (.waiting (some (soonest s.pending))) := by
    have hne : s.pending.entries ≠ [] := List.ne_nil_of_mem (AList.mem_lookup_iff.mp hl)
    simp [State.timeoutSection, hopen, hne]
  have hs : Step opts calls s .timerSection s.timeoutSection := .timerSection htimer
  rw [hsection] at hs
  exact ⟨_, hs, hl, by simp [State.setPC]⟩

end Opening

/-- The first request of a session that has just been started is swept at its deadline. -/
theorem timesOut_of_deadline_le (h : deadlineOf opts now timeout ≤ now') :
    TimesOut V opts now timeout now' := by
  obtain ⟨calls, rfl⟩ : ∃ calls : ℕ → Call V, (calls 0).timeout = timeout :=
    ⟨fun _ => { method := "ping", params := .null, convert := fun _ => .error .other, timeout },
      rfl⟩
  obtain ⟨s, hreach, hopened⟩ := exists_opened opts calls
  obtain ⟨s₁, hnext, hpc, hopen, hempty, htimer⟩ := registers opts calls now hopened
  obtain ⟨s', hpark, hl, hopen, htimer⟩ := parks opts calls hpc hopen hempty htimer
  obtain ⟨s₂, hsleep, hl, hpc⟩ := sleeps opts calls hl hopen htimer
  have hexpire : Step opts calls s₂ (.timerExpire now') (s₂.sweep now') :=
    .timerExpire hpc (Int64.le_trans (soonest_le hl) h)
  obtain ⟨-, ks, hpc', hks⟩ := sweep_exact hexpire
  have hk : s.issued ∈ ks := by
    rw [hopened.issued]
    exact (hks 0).mpr ⟨_, _, hl, rfl, h⟩
  refine ⟨calls, s, s₁, s₂, _, .app 1, ks, hreach, ?_, hnext, ?_, hexpire, hpc', hk⟩
  · rw [hopened.issued]
  · exact (Run.refl.step trivial hpark).step trivial hsleep

/-- The sweep that rejects a request is any that comes at its deadline or later. -/
theorem timesOut_iff : TimesOut V opts now timeout now' ↔ deadlineOf opts now timeout ≤ now' :=
  ⟨deadline_le_of_timesOut, timesOut_of_deadline_le⟩

/-- A wrapped deadline lies before the due moment, and a sweep can come between them. -/
theorem neverEarly_iff : NeverEarly V opts now timeout ↔ dueAt opts now timeout < 2 ^ 63 := by
  simp only [NeverEarly, timesOut_iff, Int64.le_iff_toInt_le]
  constructor
  · intro h
    by_contra hlate
    -- the later of registering and the wrapped deadline
    rcases le_total now.toInt (deadlineOf opts now timeout).toInt with hle | hle
    · have := h (deadlineOf opts now timeout) hle le_rfl
      have := Int64.toInt_lt (deadlineOf opts now timeout)
      omega
    · have := h now le_rfl hle
      have := Int64.toInt_lt now
      omega
  · intro hlt now' _ hdeadline
    by_cases hlow : -2 ^ 63 ≤ dueAt opts now timeout
    · rwa [exact_iff.mpr ⟨hlow, hlt⟩] at hdeadline
    · have := Int64.le_toInt now'
      omega

/-- A request whose timeout is positive is filed under the exact sum of the time and its timeout,
and no sweep rejects it before that moment, if and only if the sum fits the clock. -/
theorem times_out_on_time_iff (V : Type) (opts : Options) (now timeout : Int64)
    (hpos : 0 < effectiveTimeout opts timeout) :
    ((deadlineOf opts now timeout).toInt = dueAt opts now timeout ↔
      dueAt opts now timeout < 2 ^ 63) ∧
    (NeverEarly V opts now timeout ↔ dueAt opts now timeout < 2 ^ 63) := by
  refine ⟨?_, neverEarly_iff⟩
  have hlow : -2 ^ 63 ≤ dueAt opts now timeout := by
    have hnow := Int64.le_toInt now
    have hpos := Int64.lt_iff_toInt_lt.mp hpos
    simp only [Int64.toInt_zero] at hpos
    unfold dueAt
    omega
  rw [exact_iff]
  exact and_iff_right hlow

/-- With the default options a ping never times out early. -/
theorem ping_on_time : NeverEarly Json {} 0 ping.timeout :=
  (times_out_on_time_iff Json {} 0 ping.timeout (by decide)).2.mpr (by decide)

/-- The longest timeout is a multiple of 2^64 nanoseconds less one millisecond. A request that asks
for it at zero is filed under the millisecond before zero, and may be rejected there and then. -/
theorem longest_timeout_is_early :
    (deadlineOf {} 0 Int64.maxValue).toInt = -1000000 ∧ ¬ NeverEarly Json {} 0 Int64.maxValue := by
  refine ⟨by decide, ?_⟩
  intro h
  have hswept : TimesOut Json {} 0 Int64.maxValue 0 := timesOut_iff.mpr (by decide)
  exact absurd (h 0 (by decide) hswept) (by decide)

end Mcp.Session
