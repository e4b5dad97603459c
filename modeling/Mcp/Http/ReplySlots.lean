import Mcp.Http.CrossTalk

/-! Whose the slots in `pending_` are. -/
namespace Mcp.Http.SessionTransport

open Transition

variable {codec : Codec} {s s' : State codec} {a : Action codec} {t p : ℕ} {key raw : String}
  {pc : PC codec} {id : RequestId}

/-- The future of `p` is in the hands of a POST that has not ended. -/
def PC.Holds (p : ℕ) : PC codec → Prop
  | .handing f => f.reply = some p
  | .waiting q => q = p
  | _ => False

/-- No POST gives up while its promise is in a slot. -/
def Patient (s : State codec) : Action codec → Prop
  | .timeOut t => ∀ p key, s.pc t = .waiting p → s.pending.lookup key ≠ some p
  | _ => True

/-- A promise in a slot has been made, is in no other slot, and has not been settled. -/
structure Filed (s : State codec) : Prop where
  made : ∀ key p, s.pending.lookup key = some p → p < s.promises
  done : ∀ p r, (p, r) ∈ s.settled → p < s.promises
  apart : ∀ key key' p, s.pending.lookup key = some p → s.pending.lookup key' = some p → key = key'
  unsettled : ∀ key p r, s.pending.lookup key = some p → (p, r) ∉ s.settled

/-- Every slot belongs to a POST that has not ended. -/
def Waited (s : State codec) : Prop :=
  ∀ key p, s.pending.lookup key = some p → ∃ t, (s.pc t).Holds p

theorem Filed.congr (h : Filed s) (hp : s'.pending = s.pending) (hn : s'.promises = s.promises)
    (hs : s'.settled = s.settled) : Filed s' := by
  refine ⟨?_, ?_, ?_, ?_⟩
  · rw [hp, hn]
    exact h.made
  · rw [hs, hn]
    exact h.done
  · rw [hp]
    exact h.apart
  · rw [hp, hs]
    exact h.unsettled

theorem filed_register (h : Filed s) : Filed (s.register key) := by
  have hslot : ∀ k p, (s.register key).pending.lookup k = some p →
      (k = key ∧ p = s.promises ∧ s.pending.lookup key = none) ∨ s.pending.lookup k = some p :=
    fun k p hk => Dict.lookup_of_lookup_tryEmplace hk
  have hdone : ∀ p r, (p, r) ∈ (s.register key).settled →
      (p, r) ∈ s.settled ∨ (p = s.promises ∧ key ∈ s.pending) := by
    intro p r hm
    simp only [State.register] at hm
    split at hm
    · rcases List.mem_append.mp hm with hm | hm
      · exact .inl hm
      · cases List.mem_singleton.mp hm
        exact .inr ⟨rfl, ‹_›⟩
    · exact .inl hm
  refine ⟨?_, ?_, ?_, ?_⟩
  · intro k p hk
    change p < s.promises + 1
    rcases hslot k p hk with ⟨-, rfl, -⟩ | hk
    · omega
    · have := h.made k p hk
      omega
  · intro p r hm
    change p < s.promises + 1
    rcases hdone p r hm with hm | ⟨rfl, -⟩
    · have := h.done p r hm
      omega
    · omega
  · intro k k' p hk hk'
    rcases hslot k p hk with ⟨rfl, rfl, -⟩ | hk
    · rcases hslot k' _ hk' with ⟨rfl, -, -⟩ | hk'
      · rfl
      · exact absurd (h.made k' _ hk') (Nat.lt_irrefl _)
    · rcases hslot k' p hk' with ⟨-, rfl, -⟩ | hk'
      · exact absurd (h.made k _ hk) (Nat.lt_irrefl _)
      · exact h.apart k k' p hk hk'
  · intro k p r hk hm
    rcases hslot k p hk with ⟨rfl, rfl, hnone⟩ | hk
    · rcases hdone _ r hm with hm | ⟨-, hmem⟩
      · exact absurd (h.done _ r hm) (Nat.lt_irrefl _)
      · exact AList.lookup_eq_none.mp hnone hmem
    · rcases hdone p r hm with hm | ⟨rfl, -⟩
      · exact h.unsettled k p r hk hm
      · exact absurd (h.made k _ hk) (Nat.lt_irrefl _)

/-- Sending leaves the slots alone, or takes one out and settles its promise. -/
theorem send_slots (s : State codec) (frame : String) :
    ((s.send frame).pending = s.pending ∧ (s.send frame).settled = s.settled) ∨
      ∃ key p r, s.pending.lookup key = some p ∧
        (s.send frame).pending = s.pending.erase key ∧
        (s.send frame).settled = s.settled ++ [(p, r)] := by
  unfold State.send
  split
  · exact .inl ⟨rfl, rfl⟩
  · split
    · split
      · exact .inl ⟨rfl, rfl⟩
      · exact .inr ⟨_, _, _, ‹_›, rfl, rfl⟩
    · exact .inl ⟨rfl, rfl⟩

theorem send_rest (s : State codec) (frame : String) :
    (s.send frame).promises = s.promises ∧ (s.send frame).pc = s.pc := by
  obtain ⟨pending, settled, getQueue, he⟩ := send_frame s frame
  rw [he]
  exact ⟨rfl, rfl⟩

theorem filed_send (h : Filed s) (frame : String) : Filed (s.send frame) := by
  have hn := (send_rest s frame).1
  rcases send_slots s frame with ⟨hp, hs⟩ | ⟨key, p, r, hl, hp, hs⟩
  · exact h.congr hp hn hs
  · have hold : ∀ k q, (s.send frame).pending.lookup k = some q → s.pending.lookup k = some q := by
      intro k q hk
      rw [hp] at hk
      exact Dict.lookup_of_lookup_erase hk
    refine ⟨?_, ?_, ?_, ?_⟩
    · rw [hn]
      exact fun k q hk => h.made k q (hold k q hk)
    · rw [hn, hs]
      intro q r' hm
      rcases List.mem_append.mp hm with hm | hm
      · exact h.done q r' hm
      · cases List.mem_singleton.mp hm
        exact h.made key p hl
    · exact fun k k' q hk hk' => h.apart k k' q (hold k q hk) (hold k' q hk')
    · rw [hs]
      intro k q r' hk hm
      rcases List.mem_append.mp hm with hm | hm
      · exact h.unsettled k q r' (hold k q hk) hm
      · -- the promise that was settled has left its only slot
        cases List.mem_singleton.mp hm
        cases h.apart k key p (hold k p hk) hl
        rw [hp, AList.lookup_erase] at hk
        cases hk

theorem filed_drain (h : Filed s) (hp : s'.pending = ∅) (hn : s'.promises = s.promises)
    (hs : s'.settled = s.settled ++
      (Dict.list s.pending).map (fun p => (p, .error sessionClosed))) : Filed s' := by
  refine ⟨?_, ?_, ?_, ?_⟩
  · rw [hp]
    nofun
  · rw [hn, hs]
    intro p r hm
    rcases List.mem_append.mp hm with hm | hm
    · exact h.done p r hm
    · obtain ⟨q, hq, he⟩ := List.mem_map.mp hm
      cases he
      obtain ⟨⟨key, q'⟩, hentry, rfl⟩ := List.mem_map.mp hq
      exact h.made key _ (AList.mem_lookup_iff.mpr hentry)
  · rw [hp]
    nofun
  · rw [hp]
    nofun

theorem filed_step (hst : Step codec s a s') (h : Filed s) : Filed s' := by
  cases hst with
  | @startHand f fs _ =>
    obtain ⟨owed, he⟩ := take_frame { s with starting := fs } f
    rw [he]
    exact h.congr rfl rfl rfl
  | @post t raw _ =>
    unfold State.deliver
    split
    · exact h.congr rfl rfl rfl
    · split
      · exact (filed_register h).congr rfl rfl rfl
      · exact h.congr rfl rfl rfl
  | @handOver t f _ =>
    obtain ⟨owed, buffered, he⟩ := handOver_frame s f
    rw [he]
    exact h.congr rfl rfl rfl
  | @route t p id m _ | @push t m _ => exact (filed_send h m.frame).congr rfl rfl rfl
  | drain _ => exact filed_drain h rfl rfl rfl
  | _ => exact h.congr rfl rfl rfl

theorem filed_reachable {ok : State codec → Action codec → Prop}
    (h : (machine codec).Reachable ok s) : Filed s := by
  refine h.invariant (P := Filed) ?_ fun _ _ _ _ hf _ hst => filed_step hst hf
  rintro s rfl
  exact ⟨nofun, nofun, nofun, nofun⟩

theorem holds_update {u : ℕ} (h : (s.pc t).Holds p) (hkeep : (s.pc u).Holds p → pc.Holds p) :
    (Function.update s.pc u pc t).Holds p := by
  by_cases ht : t = u
  · subst t
    rw [Function.update_self]
    exact hkeep h
  · rwa [Function.update_of_ne ht]

/-- A patient POST keeps its future as long as the promise is in a slot. -/
theorem holds_step (hst : Step codec s a s') (hok : Patient s a) (hf : Filed s)
    (hl : s.pending.lookup key = some p) (h : (s.pc t).Holds p) : (s'.pc t).Holds p := by
  cases hst with
  | @startHand f fs _ =>
    obtain ⟨owed, he⟩ := take_frame { s with starting := fs } f
    rw [he]
    exact h
  | @post u raw hpc =>
    have hidle : ¬(s.pc u).Holds p := by
      rw [hpc]
      exact False.elim
    unfold State.deliver
    split <;> try split
    all_goals exact holds_update h fun hh => absurd hh hidle
  | @handOver u f hpc =>
    obtain ⟨owed, buffered, he⟩ := handOver_frame s f
    rw [he]
    refine holds_update h ?_
    intro hh
    rw [hpc] at hh
    have hreply : f.reply = some p := hh
    rw [hreply]
    rfl
  | @reply u q r hpc hm =>
    refine holds_update h ?_
    intro hh
    rw [hpc] at hh
    cases hh
    exact absurd hm (hf.unsettled key p r hl)
  | @timeOut u q hpc =>
    refine holds_update h ?_
    intro hh
    rw [hpc] at hh
    cases hh
    exact absurd hl (hok p key hpc)
  | respond hpc | answer hpc _ | emit hpc => exact holds_update h (by simp [hpc, PC.Holds])
  | @route u q id m hpc | @push u m hpc =>
    obtain ⟨pending, settled, getQueue, he⟩ := send_frame s m.frame
    rw [he]
    exact holds_update h (by simp [hpc, PC.Holds])
  | _ => exact h

/-- A slot was there before, or belongs to the POST that has just come. -/
theorem slot_before (hst : Step codec s a s') (hl : s'.pending.lookup key = some p) :
    s.pending.lookup key = some p ∨ ∃ t, (s'.pc t).Holds p := by
  cases hst with
  | @startHand f fs _ =>
    obtain ⟨owed, he⟩ := take_frame { s with starting := fs } f
    rw [he] at hl
    exact .inl hl
  | @post t raw _ =>
    unfold State.deliver at hl ⊢
    split at hl
    · exact .inl hl
    · next j hj =>
      split at hl
      · next hreq =>
        rcases Dict.lookup_of_lookup_tryEmplace hl with ⟨-, rfl, -⟩ | hl
        · exact .inr ⟨t, by simp [hreq, State.setPC, PC.Holds]⟩
        · exact .inl hl
      · exact .inl hl
  | @handOver t f _ =>
    obtain ⟨owed, buffered, he⟩ := handOver_frame s f
    rw [he] at hl
    exact .inl hl
  | @route t q id m _ | @push t m _ =>
    left
    rcases send_slots s m.frame with ⟨hp, -⟩ | ⟨k, q, r, -, hp, -⟩
    · exact hp ▸ hl
    · have hl' : (s.send m.frame).pending.lookup key = some p := hl
      rw [hp] at hl'
      exact Dict.lookup_of_lookup_erase hl'
  | drain _ => cases hl
  | _ => exact .inl hl

theorem waited_step (hst : Step codec s a s') (hok : Patient s a) (hf : Filed s)
    (h : Waited s) : Waited s' := by
  intro key p hl
  rcases slot_before hst hl with hl | hnew
  · obtain ⟨t, ht⟩ := h key p hl
    exact ⟨t, holds_step hst hok hf hl ht⟩
  · exact hnew

theorem waited_reachable (h : (machine codec).Reachable Patient s) : Waited s := by
  refine h.invariant (P := Waited) ?_ ?_
  · rintro s rfl
    nofun
  · intro s a s' hr hw hok hst
    exact waited_step hst hok (filed_reachable hr) hw

/-- The thread hands over a frame for the promise `p`. -/
def PC.Hands (p : ℕ) (pc : PC codec) : Prop := ∃ f, pc = .handing f ∧ f.reply = some p

/-- The frame for `p` has been handed over: it is buffered, or with the Session. -/
def Ahead (s : State codec) (p : ℕ) : Prop :=
  (∃ f ∈ s.buffered ++ s.starting, f.reply = some p) ∨ (∃ id, s.owed p = some id) ∨
    ∃ t id m, s.pc t = .answering p id m

theorem hands_update {u : ℕ} (h : (Function.update s.pc u pc t).Hands p) :
    (s.pc t).Hands p ∨ t = u ∧ pc.Hands p := by
  by_cases ht : t = u
  · subst t
    rw [Function.update_self] at h
    exact .inr ⟨rfl, h⟩
  · rw [Function.update_of_ne ht] at h
    exact .inl h

theorem hands_keep {u : ℕ} (h : (Function.update s.pc u pc t).Hands p) (hpc : ¬pc.Hands p) :
    (s.pc t).Hands p :=
  (hands_update h).resolve_right fun h => hpc h.2

theorem hands_step (hs : Step codec s a s') (h : (s'.pc t).Hands p) :
    (s.pc t).Hands p ∨ p = s.promises ∧ s'.promises = s.promises + 1 := by
  cases hs with
  | @startHand f fs _ =>
    obtain ⟨owed, he⟩ := take_frame { s with starting := fs } f
    rw [he] at h
    exact .inl h
  | @post u raw _ =>
    unfold State.deliver at h ⊢
    split
    · next hraw =>
      simp only [hraw] at h
      exact .inl (hands_keep h nofun)
    · next j hj =>
      simp only [hj] at h
      split
      · next hreq =>
        rw [if_pos hreq] at h
        rcases hands_update h with h | ⟨-, f, he, hf⟩
        · exact .inl h
        · cases he
          exact .inr ⟨(Option.some.inj hf).symm, rfl⟩
      · next hreq =>
        rw [if_neg hreq] at h
        refine .inl (hands_keep h ?_)
        rintro ⟨f, he, hf⟩
        cases he
        cases hf
  | @handOver u f _ =>
    obtain ⟨owed, buffered, he⟩ := handOver_frame s f
    rw [he] at h
    refine .inl (hands_keep h ?_)
    split <;> nofun
  | reply _ _ | timeOut _ | respond _ => exact .inl (hands_keep h nofun)
  | answer _ _ | emit _ =>
    refine .inl (hands_keep h ?_)
    split <;> nofun
  | @route u q id m _ | @push u m _ =>
    obtain ⟨pending, settled, getQueue, he⟩ := send_frame s m.frame
    rw [he] at h
    exact .inl (hands_keep h nofun)
  | _ => exact .inl h

theorem ahead_setPC (h : Ahead (s.setPC t pc) p) :
    Ahead s p ∨ ∃ id m, pc = .answering p id m := by
  rcases h with hqueued | howed | ⟨u, id, m, hu⟩
  · exact .inl (.inl hqueued)
  · exact .inl (.inr (.inl howed))
  · rcases update_cases hu with ⟨-, he⟩ | ⟨-, hu⟩
    · exact .inr ⟨id, m, he⟩
    · exact .inl (.inr (.inr ⟨u, id, m, hu⟩))

theorem ahead_take (h : Ahead (s.take f) p) : Ahead s p ∨ f.reply = some p := by
  unfold State.take at h
  split at h
  · next q req hreply _ =>
    rcases h with hqueued | ⟨id, howed⟩ | hpc
    · exact .inl (.inl hqueued)
    · rcases update_cases howed with ⟨rfl, -⟩ | ⟨-, howed⟩
      · exact .inr hreply
      · exact .inl (.inr (.inl ⟨id, howed⟩))
    · exact .inl (.inr (.inr hpc))
  · exact .inl h

theorem ahead_handOver (h : Ahead (s.handOver f) p) : Ahead s p ∨ f.reply = some p := by
  unfold State.handOver at h
  split at h
  · exact ahead_take h
  · rcases h with ⟨g, hg, hreply⟩ | hrest
    · simp only [List.mem_append, List.mem_singleton] at hg
      rcases hg with (hg | rfl) | hg
      · exact .inl (.inl ⟨g, List.mem_append_left _ hg, hreply⟩)
      · exact .inr hreply
      · exact .inl (.inl ⟨g, List.mem_append_right _ hg, hreply⟩)
    · exact .inl (.inr hrest)

theorem ahead_owed {q : ℕ} (h : Ahead { s with owed := Function.update s.owed q none } p) :
    Ahead s p := by
  rcases h with hqueued | ⟨id, howed⟩ | hpc
  · exact .inl hqueued
  · rcases update_cases howed with ⟨-, he⟩ | ⟨-, howed⟩
    · cases he
    · exact .inr (.inl ⟨id, howed⟩)
  · exact .inr (.inr hpc)

/-- Only the hand-over puts a promise ahead. -/
theorem ahead_step (hs : Step codec s a s') (h : Ahead s' p) :
    Ahead s p ∨ ∃ t, a = .handOver t ∧ (s.pc t).Hands p := by
  cases hs with
  | start =>
    rcases h with ⟨f, hf, hreply⟩ | hrest
    · refine .inl (.inl ⟨f, ?_, hreply⟩)
      split at hf <;> simp_all [or_comm]
    · exact .inl (.inr hrest)
  | @startHand f fs hstarting =>
    left
    rcases ahead_take h with (⟨g, hg, hreply⟩ | hrest) | hreply
    · refine .inl ⟨g, ?_, hreply⟩
      rcases List.mem_append.mp hg with hg | hg <;> simp_all
    · exact .inr hrest
    · exact .inl ⟨f, by simp [hstarting], hreply⟩
  | post _ =>
    left
    unfold State.deliver at h
    split at h <;> try split at h
    all_goals exact (ahead_setPC h).resolve_right nofun
  | @handOver t f hpc =>
    rcases ahead_setPC h with h | ⟨id, m, he⟩
    · exact (ahead_handOver h).imp_right fun hreply => ⟨t, rfl, f, hpc, hreply⟩
    · split at he <;> cases he
  | reply _ _ | timeOut _ | respond _ => exact .inl ((ahead_setPC h).resolve_right nofun)
  | @answer t q id m _ howed =>
    rcases ahead_setPC h with h | ⟨id', m', he⟩
    · exact .inl (ahead_owed h)
    · split at he
      · cases he
      · cases he
        exact .inl (.inr (.inl ⟨id, howed⟩))
  | drop => exact .inl (ahead_owed h)
  | emit _ =>
    refine .inl ((ahead_setPC h).resolve_right ?_)
    split <;> nofun
  | @route t q id m _ | @push t m _ =>
    obtain ⟨pending, settled, getQueue, he⟩ := send_frame s m.frame
    rw [he] at h
    exact .inl ((ahead_setPC h).resolve_right nofun)
  | _ => exact .inl h

theorem made_reachable {ok : State codec → Action codec → Prop} (hcodec : codec.Faithful)
    (h : (machine codec).Reachable ok s) :
    (∀ t p, (s.pc t).Hands p → p < s.promises) ∧ ∀ p, Ahead s p → p < s.promises := by
  refine h.invariant (P := fun s =>
    (∀ t p, (s.pc t).Hands p → p < s.promises) ∧ ∀ p, Ahead s p → p < s.promises) ?_ ?_
  · rintro s rfl
    refine ⟨nofun, ?_⟩
    rintro p (⟨f, hf, -⟩ | ⟨id, howed⟩ | ⟨t, id, m, hpc⟩)
    · cases hf
    · cases howed
    · cases hpc
  · rintro s a s' - ⟨hhands, hahead⟩ - hst
    have hle := promises_le hcodec hst
    constructor
    · intro t p h
      rcases hands_step hst h with h | ⟨rfl, hn⟩
      · exact (hhands t p h).trans_le hle
      · omega
    · intro p h
      rcases ahead_step hst h with h | ⟨t, -, h⟩
      · exact (hahead p h).trans_le hle
      · exact (hhands t p h).trans_le hle

/-- The POST of thread `t` waits for `p`, or is the only one that hands a frame over for it. -/
structure Own (t p : ℕ) (s : State codec) : Prop where
  made : p < s.promises
  holds : (s.pc t).Holds p
  lone : ∀ u, (s.pc u).Hands p → u = t
  early : (s.pc t).Hands p → ¬Ahead s p

theorem own_register {ok : State codec → Action codec → Prop} (hcodec : codec.Faithful)
    (h : (machine codec).Reachable ok s) : Own t s.promises
      ((s.register key).setPC t (.handing { raw, reply := some s.promises })) := by
  obtain ⟨hhands, hahead⟩ := made_reachable hcodec h
  refine ⟨Nat.lt_succ_self _, by simp [State.setPC, PC.Holds], ?_, ?_⟩
  · intro u hu
    rcases hands_update hu with hu | ⟨he, -⟩
    · exact absurd (hhands u _ hu) (Nat.lt_irrefl _)
    · exact he
  · intro _ ha
    rcases ahead_setPC ha with ha | ⟨id, m, he⟩
    · exact absurd (hahead _ ha) (Nat.lt_irrefl _)
    · cases he

theorem own_step (hcodec : codec.Faithful) (hst : Step codec s a s') (hok : Patient s a)
    (hf : Filed s) (hl : s.pending.lookup key = some p) (h : Own t p s) : Own t p s' := by
  have hhands : ∀ u, (s'.pc u).Hands p → (s.pc u).Hands p := by
    intro u hu
    refine (hands_step hst hu).resolve_right ?_
    rintro ⟨rfl, -⟩
    exact Nat.lt_irrefl _ h.made
  refine ⟨h.made.trans_le (promises_le hcodec hst), holds_step hst hok hf hl h.holds,
    fun u hu => h.lone u (hhands u hu), ?_⟩
  intro ht ha
  rcases ahead_step hst ha with ha | ⟨u, rfl, hu⟩
  · exact h.early (hhands t ht) ha
  · -- a thread that has handed its frame over waits
    obtain rfl := h.lone u hu
    cases hst with
    | @handOver _ f _ =>
      obtain ⟨g, he, -⟩ := ht
      simp only [State.setPC, Function.update_self] at he
      split at he <;> cases he

/-- A POST with a slot of its own keeps waiting until its answer is routed. -/
theorem own_run (hcodec : codec.Faithful)
    (hr : (machine codec).Run (fun s a => Patient s a ∧ Alone p id s a) s s') (ho : Open s)
    (hf : Filed s) (hl : s.pending.lookup id.canonical = some p) (h : Own t p s) :
    Filed s' ∧ s'.pending.lookup id.canonical = some p ∧ Own t p s' := by
  have hinv : Open s' ∧ Filed s' ∧ s'.pending.lookup id.canonical = some p ∧ Own t p s' := by
    refine hr.invariant (P := fun s => Open s ∧ Filed s ∧
      s.pending.lookup id.canonical = some p ∧ Own t p s) ?_ ⟨ho, hf, hl, h⟩
    rintro s a s' ⟨ho, hf, hl, h⟩ ⟨hok, halone⟩ hst
    exact ⟨open_step hst halone.1 ho, filed_step hst hf, slot_step hcodec hst halone ho hl,
      own_step hcodec hst hok hf hl h⟩
  exact hinv.2

/-- Its answer settles its promise, once and for all, and clears its slot. -/
theorem own_route (hcodec : codec.Faithful) {u : ℕ} {m : Outgoing codec (some id)}
    (hpc : s.pc u = .answering p id m) (hst : Step codec s (.route u) s') (hf : Filed s)
    (hl : s.pending.lookup id.canonical = some p) (h : Own t p s) :
    s'.pc t = .waiting p ∧ s'.pending.lookup id.canonical = none ∧
      ∀ r, (p, r) ∈ s'.settled ↔ r = .ok m.frame := by
  have hwaiting : s.pc t = .waiting p := by
    have hholds := h.holds
    have hearly := h.early
    cases ht : s.pc t with
    | handing f =>
      rw [ht] at hholds hearly
      exact absurd (.inr (.inr ⟨u, id, m, hpc⟩)) (hearly ⟨f, rfl, hholds⟩)
    | waiting q =>
      rw [ht] at hholds
      exact congrArg _ hholds
    | _ =>
      rw [ht] at hholds
      exact hholds.elim
  have hne : t ≠ u := by
    rintro rfl
    cases hwaiting.symm.trans hpc
  cases hst with
  | route hpc' =>
    cases hpc.symm.trans hpc'
    rw [send_answer hcodec, hl]
    refine ⟨by simpa [State.setPC, hne] using hwaiting, AList.lookup_erase _ _, ?_⟩
    intro r
    have hnot := hf.unsettled _ p r hl
    simp [State.setPC, hnot]

/-- While no POST gives up on a promise that is in a slot, every slot belongs to a POST that has not
ended. A POST with a request whose id is not stored as a float, and is not used by another request
that is under way, waits until its answer is routed, leaves nothing in `pending_`, and is given that
answer. -/
theorem slots_belong_to_posts (codec : Codec) (s : State codec)
    (h : (machine codec).Reachable Patient s) :
    (∀ key p, s.pending.lookup key = some p → ∃ t, (s.pc t).Holds p) ∧
    (codec.Faithful → ∀ (t u : ℕ) (raw : String) (j v : Json) (req : JsonRpcRequest)
      (m : Outgoing codec (some req.id)) (s₁ s₂ s₃ : State codec),
      s.closed = false → codec.parse raw = some j → parseMessage j = .ok (.request req) →
      j.find "id" = some v → v.isNumberFloat = false →
      (∀ w p, (s.pc w).Holds p → s.pending.lookup req.id.canonical ≠ some p) →
      Step codec s (.post t raw) s₁ →
      (machine codec).Run (fun s' a => Patient s' a ∧ Alone s.promises req.id s' a) s₁ s₂ →
      s₂.pc u = .answering s.promises req.id m → Step codec s₂ (.route u) s₃ →
      s₃.pc t = .waiting s.promises ∧ s₃.pending.lookup req.id.canonical = none ∧
        (∀ r, (s.promises, r) ∈ s₃.settled ↔ r = .ok m.frame) ∧
        ∀ s₄, Step codec s₃ (.reply t) s₄ ↔
          s₄ = s₃.setPC t (.responding { status := 200, content := m.frame })) := by
  have hwaited := waited_reachable h
  refine ⟨hwaited, ?_⟩
  intro hcodec t u raw j v req m s₁ s₂ s₃ hopen hraw hreq hv hfloat hfree hpost hrun hanswer hroute
  have hkey : keyOf j = req.id.canonical := by
    obtain ⟨-, v', hv', hid⟩ := id_of_parseMessage hreq
    cases hv.symm.trans hv'
    simp [keyOf, hv, canonicalId_of_fromJson hid, hfloat]
  have hnone : s.pending.lookup req.id.canonical = none := by
    cases hl : s.pending.lookup req.id.canonical with
    | none => rfl
    | some p =>
      obtain ⟨w, hw⟩ := hwaited _ p hl
      exact absurd hl (hfree w p hw)
  cases hpost with
  | post _ =>
    rw [deliver_request hraw hreq, hkey] at hrun
    have hslot : (s.register req.id.canonical).pending.lookup req.id.canonical =
        some s.promises := Dict.lookup_tryEmplace_self (AList.lookup_eq_none.mp hnone)
    have hown : Own t s.promises ((s.register req.id.canonical).setPC t
        (.handing { raw, reply := some s.promises })) := own_register hcodec h
    have hfiled : Filed ((s.register req.id.canonical).setPC t
        (.handing { raw, reply := some s.promises })) :=
      (filed_register (filed_reachable h)).congr rfl rfl rfl
    have ho : Open s := open_of_closed h.free hopen
    obtain ⟨hf, hl, hown⟩ := own_run hcodec hrun ho hfiled hslot hown
    obtain ⟨hwaiting, hgone, hsettled⟩ := own_route hcodec hanswer hroute hf hl hown
    refine ⟨hwaiting, hgone, hsettled, fun s₄ => ⟨?_, ?_⟩⟩
    · intro hreply
      cases hreply with
      | reply hpc hr =>
        cases hwaiting.symm.trans hpc
        rw [(hsettled _).mp hr]
        rfl
    · rintro rfl
      exact .reply hwaiting ((hsettled _).mpr rfl)

/-- A request that is posted with nothing else of its id under way, up to its answer. -/
theorem request_run {u : ℕ} {req : JsonRpcRequest} (m : Outgoing codec (some req.id))
    (hready : (s.started && s.listening) = true) (hopen : s.closed = false)
    (hu : s.pc u = .idle) (hne : u ≠ t)
    (hquiet : ∀ q, ¬InFlight s q req.id) (hraw : codec.parse raw = some j)
    (hreq : parseMessage j = .ok (.request req)) :
    (machine codec).Run (fun s' a => Patient s' a ∧ Alone s.promises req.id s' a)
      (s.deliver t raw) ((s.enlist t (keyOf j) req.id).resolve u s.promises m) := by
  rw [deliver_request hraw hreq]
  have hhand : Step codec ((s.register (keyOf j)).setPC t
      (.handing { raw, reply := some s.promises })) (.handOver t)
      (s.enlist t (keyOf j) req.id) := by
    have hpc : ((s.register (keyOf j)).setPC t (.handing { raw, reply := some s.promises })).pc t =
        .handing { raw, reply := some s.promises } := by simp [State.setPC]
    have hst := Step.handOver hpc
    rw [handOver_request (s := (s.register (keyOf j)).setPC t _) hraw hreq hready] at hst
    simpa only [State.setPC, State.enlist, State.register, Function.update_idem] using hst
  have hanswer : Step codec (s.enlist t (keyOf j) req.id) (.answer u s.promises req.id m)
      ((s.enlist t (keyOf j) req.id).resolve u s.promises m) := by
    have hidle : (s.enlist t (keyOf j) req.id).pc u = .idle := by simpa [State.enlist, hne] using hu
    have hst := Step.answer (m := m) hidle (Function.update_self ..)
    have hclosed : (s.enlist t (keyOf j) req.id).closed = false := hopen
    simpa only [State.resolve, hclosed, Bool.false_eq_true, if_false] using hst
  have hposted : Alone s.promises req.id ((s.register (keyOf j)).setPC t
      (.handing { raw, reply := some s.promises })) (.handOver t) := by
    refine ⟨by simp, ?_, by simp⟩
    rintro q (howed | ⟨w, m', hw⟩)
    · exact absurd (.inl howed) (hquiet q)
    · rcases update_cases hw with ⟨-, he⟩ | ⟨-, hw⟩
      · cases he
      · exact absurd (.inr ⟨w, m', hw⟩) (hquiet q)
  have hwaiting : Alone s.promises req.id (s.enlist t (keyOf j) req.id)
      (.answer u s.promises req.id m) := by
    refine ⟨by simp, ?_, by simp⟩
    rintro q (howed | ⟨w, m', hw⟩)
    · rcases update_cases howed with ⟨he, -⟩ | ⟨-, howed⟩
      · exact he
      · exact absurd (.inl howed) (hquiet q)
    · rcases update_cases hw with ⟨-, he⟩ | ⟨-, hw⟩
      · cases he
      · exact absurd (.inr ⟨w, m', hw⟩) (hquiet q)
  refine System.Run.step (System.Run.step .refl ⟨?_, hposted⟩ hhand) ⟨?_, hwaiting⟩ hanswer
  · exact trivial
  · exact trivial

/-- A ping has been answered, and its POST has ended. -/
theorem exists_pinged : ∃ s : State pingCodec, (machine pingCodec).Reachable Patient s ∧
    (s.started && s.listening) = true ∧ s.closed = false ∧ (∀ t, s.pc t = .idle) ∧
    (∀ p, s.owed p = none) ∧ s.settled = [(0, .ok pongText)] := by
  have hping : pingCodec.parse pingText = some (pingWith (.unsigned 1)) := rfl
  have h₀ : (machine pingCodec).Reachable Patient wired := reachable_wired trivial fun _ => trivial
  have h₁ := reachable_enlist (t := 0) h₀ rfl rfl hping parse_ping trivial fun _ => trivial
  have h₂ := reachable_resolve (t := 1) (p := 0) h₁ rfl rfl rfl pong trivial
  obtain ⟨h₃, -, hmem⟩ := answeredFrom_route (t := 1) (p := 0) pingCodec_faithful h₂ rfl rfl trivial
  have h₄ := reachable_step (a := .reply 0) h₃ trivial (.reply rfl hmem)
  have h₅ := reachable_step (a := .respond 0) h₄ trivial (.respond rfl)
  refine ⟨_, h₅, rfl, rfl, ?_, ?_, rfl⟩
  · rintro (_ | _ | t) <;> rfl
  · rintro (_ | p) <;> rfl

/-- A second ping under the same id waits in a slot of its own, and is given its own pong. -/
theorem second_ping_is_answered : ∃ s s₁ s₂ s₃ : State pingCodec,
    (machine pingCodec).Reachable Patient s ∧ s.settled = [(0, .ok pongText)] ∧
    Step pingCodec s (.post 0 pingText) s₁ ∧
    (machine pingCodec).Run (fun s' a => Patient s' a ∧ Alone s.promises ping.id s' a) s₁ s₂ ∧
    Step pingCodec s₂ (.route 1) s₃ ∧ s₃.pending.lookup "i:1" = none ∧
    Step pingCodec s₃ (.reply 0)
      (s₃.setPC 0 (.responding { status := 200, content := pongText })) := by
  obtain ⟨s, h, hready, hopen, hidle, howed, hsettled⟩ := exists_pinged
  have hping : pingCodec.parse pingText = some (pingWith (.unsigned 1)) := rfl
  have hquiet : ∀ q, ¬InFlight s q ping.id := by
    rintro q (ho | ⟨t, m, ht⟩)
    · cases (howed q).symm.trans ho
    · cases (hidle t).symm.trans ht
  have hfree : ∀ w p, (s.pc w).Holds p → s.pending.lookup ping.id.canonical ≠ some p := by
    intro w p hw
    rw [hidle w] at hw
    exact hw.elim
  have hrun := request_run (t := 0) (u := 1) pong hready hopen (hidle 1) (by decide) hquiet hping
    parse_ping
  have hpost : Step pingCodec s (.post 0 pingText) _ := .post (hidle 0)
  have hanswer : ((s.enlist 0 (keyOf (pingWith (.unsigned 1))) ping.id).resolve 1 s.promises
      pong).pc 1 = .answering s.promises ping.id pong := by simp [State.resolve, State.setPC]
  have hroute := Step.route hanswer
  obtain ⟨-, hgone, -, hreply⟩ := (slots_belong_to_posts pingCodec s h).2 pingCodec_faithful 0 1
    pingText _ (.unsigned 1) ping pong _ _ _ hopen hping parse_ping rfl rfl hfree hpost hrun
    hanswer hroute
  exact ⟨s, _, _, _, h, hsettled, hpost, hrun, hroute, hgone, (hreply _).mpr rfl⟩

/-- A promise for which there is no slot is broken at once. -/
theorem settled_of_taken (hl : s.pending.lookup key = some p) :
    (s.promises, .error brokenPromise) ∈ (s.register key).settled := by
  have hm : key ∈ s.pending := AList.lookup_isSome.mp (by simp [hl])
  simp [State.register, hm]

/-- A ping has been answered 504. -/
def abandoned : State pingCodec := ((ready.enlist 0 "i:1" ping.id).setPC 0
  (.responding { status := 504, content := "handler timed out" })).setPC 0 .idle

theorem abandoned_reachable : (machine pingCodec).Reachable Free abandoned := by
  have h₁ := reachable_enlist (t := 0) ready_reachable rfl rfl
    (show pingCodec.parse pingText = some _ from rfl) parse_ping trivial (fun _ => trivial)
  have h₂ := reachable_step (a := .timeOut 0) h₁ trivial (.timeOut rfl)
  exact reachable_step (a := .respond 0) h₂ trivial (.respond rfl)

/-- The POST of a ping times out and leaves its slot, and the ping that is sent again is answered
500 at once. -/
theorem retried_ping_is_refused : ∃ s₁ s₂ s₃ s₄ : State pingCodec,
    (machine pingCodec).Reachable Free s₁ ∧ s₁.pending.lookup "i:1" = some 0 ∧
    (∀ t, ¬(s₁.pc t).Holds 0) ∧ s₁.pc 0 = .idle ∧
    Step pingCodec s₁ (.post 0 pingText) s₂ ∧ Step pingCodec s₂ (.handOver 0) s₃ ∧
    Step pingCodec s₃ (.reply 0) s₄ ∧ s₄.pc 0 = .responding
      { status := 500, content := "handler error: std::future_error: Broken promise" } := by
  have hslot : abandoned.pending.lookup "i:1" = some 0 := rfl
  have hsettled := settled_of_taken hslot
  have hpost : Step pingCodec abandoned (.post 0 pingText) _ := .post rfl
  rw [deliver_request rfl parse_ping] at hpost
  have hhand := Step.handOver (s := (abandoned.register "i:1").setPC 0
    (.handing { raw := pingText, reply := some 1 })) (t := 0) rfl
  rw [handOver_request rfl parse_ping rfl] at hhand
  refine ⟨_, _, _, _, abandoned_reachable, hslot, ?_, rfl, hpost, hhand,
    .reply rfl hsettled, rfl⟩
  intro t hh
  simp only [abandoned, State.setPC, State.enlist, Function.update_idem] at hh
  by_cases ht : t = 0
  · subst t
    exact hh
  · rw [Function.update_of_ne ht] at hh
    exact hh

end Mcp.Http.SessionTransport
