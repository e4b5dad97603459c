import Mcp.Stdio.Transport

/-! The read loop against the lines of the whole stream. -/
namespace Mcp.Stdio

open Bytes

/-- What the polls have brought in all. -/
def received (polls : List Poll) : Bytes :=
  polls.flatMap fun
    | .idle => []
    | .chunk bytes => bytes

/-- The frames of a stream: its terminated lines up to the first that is too long, each without a
carriage return at its end, and none of them empty. -/
def framesOf (maxFrameBytes : ℕ) (stream : Bytes) : List Bytes :=
  ((stream.lines.dropLast.takeWhile (·.length ≤ maxFrameBytes)).map stripCr).filter (· ≠ [])

/-- Some line of the stream, the tail included, is too long. -/
def Oversized (maxFrameBytes : ℕ) (stream : Bytes) : Prop :=
  ∃ line ∈ stream.lines, maxFrameBytes < line.length

variable {maxFrameBytes : ℕ} {line rest tail : Bytes} {s : ReadState} {polls : List Poll}

theorem framesOf_of_not_mem (h : '\n' ∉ tail) : framesOf maxFrameBytes tail = [] := by
  simp [framesOf, lines_of_not_mem h]

theorem framesOf_line (h : '\n' ∉ line) (hle : line.length ≤ maxFrameBytes) :
    framesOf maxFrameBytes (line ++ '\n' :: rest) =
      (if line.stripCr = [] then [] else [line.stripCr]) ++ framesOf maxFrameBytes rest := by
  have hdrop : (lines (line ++ '\n' :: rest)).dropLast = line :: (lines rest).dropLast := by
    rw [lines_append_lf h, List.dropLast_cons_of_ne_nil (lines_ne_nil rest)]
  simp only [framesOf, hdrop, List.takeWhile_cons, decide_eq_true hle, if_true, List.map_cons,
    List.filter_cons]
  split <;> simp_all

/-- A line that is too long already before it ends. -/
theorem framesOf_of_lt (h : '\n' ∉ line) (hlt : maxFrameBytes < line.length) (rest : Bytes) :
    framesOf maxFrameBytes (line ++ rest) = [] ∧ Oversized maxFrameBytes (line ++ rest) := by
  rw [framesOf, Oversized, lines_append_of_not_mem h]
  cases hrest : lines rest with
  | nil => exact absurd hrest (lines_ne_nil rest)
  | cons head tail =>
    have hhead : maxFrameBytes < (line ++ head).length := by
      rw [List.length_append]
      omega
    refine ⟨?_, line ++ head, by simp, hhead⟩
    cases tail with
    | nil => simp
    | cons second tail => simp [Nat.not_le.mpr (List.length_append ▸ hhead)]

theorem oversized_line (h : '\n' ∉ line) (hle : line.length ≤ maxFrameBytes) :
    Oversized maxFrameBytes (line ++ '\n' :: rest) ↔ Oversized maxFrameBytes rest := by
  simp only [Oversized, lines_append_lf h, List.mem_cons]
  constructor
  · rintro ⟨l, rfl | hl, hlt⟩
    · omega
    · exact ⟨l, hl, hlt⟩
  · rintro ⟨l, hl, hlt⟩
    exact ⟨l, .inr hl, hlt⟩

/-- The loop over what follows the bytes in the buffer. -/
theorem readBytes_spec (cs buffer : Bytes) (delivered : List Bytes)
    (hbuffer : '\n' ∉ buffer) (hle : buffer.length ≤ maxFrameBytes) :
    (readBytes maxFrameBytes { buffer, delivered } cs).delivered =
        delivered ++ framesOf maxFrameBytes (buffer ++ cs) ∧
      ((readBytes maxFrameBytes { buffer, delivered } cs).oversized = true ↔
        Oversized maxFrameBytes (buffer ++ cs)) := by
  induction cs generalizing buffer delivered with
  | nil =>
    simp only [readBytes, List.append_nil, framesOf_of_not_mem hbuffer, Oversized,
      lines_of_not_mem hbuffer, true_and]
    simp [hle]
  | cons c cs ih =>
    by_cases hc : c = '\n'
    · subst c
      have hend := ih [] (if buffer.stripCr = [] then delivered
        else delivered ++ [buffer.stripCr]) (by simp) (Nat.zero_le _)
      simp only [readBytes, if_true, ReadState.endLine]
      rw [framesOf_line hbuffer hle, oversized_line hbuffer hle]
      refine ⟨?_, hend.2⟩
      rw [hend.1]
      split <;> simp
    · by_cases hfull : maxFrameBytes ≤ buffer.length
      · have hlong : '\n' ∉ buffer ++ [c] := by simp [hbuffer, Ne.symm hc]
        have hlt : maxFrameBytes < (buffer ++ [c]).length := by
          rw [List.length_append, List.length_singleton]
          omega
        obtain ⟨hframes, hover⟩ := framesOf_of_lt hlong hlt cs
        rw [List.append_assoc, List.singleton_append] at hframes hover
        simp only [readBytes, if_neg hc, if_pos hfull, hframes, List.append_nil, true_and, hover]
      · have hnext := ih (buffer ++ [c]) delivered
          (by simp [hbuffer, Ne.symm hc]) (by simp; omega)
        rw [List.append_assoc, List.singleton_append] at hnext
        simpa only [readBytes, if_neg hc, if_neg hfull] using hnext

theorem readBytes_append (xs ys : Bytes) (h : s.oversized = false) :
    readBytes maxFrameBytes s (xs ++ ys) =
      if (readBytes maxFrameBytes s xs).oversized then readBytes maxFrameBytes s xs
      else readBytes maxFrameBytes (readBytes maxFrameBytes s xs) ys := by
  induction xs generalizing s with
  | nil => simp [readBytes, h]
  | cons x xs ih =>
    simp only [List.cons_append, readBytes]
    by_cases hx : x = '\n'
    · simp only [if_pos hx]
      exact ih h
    · by_cases hfull : maxFrameBytes ≤ s.buffer.length
      · simp only [if_neg hx, if_pos hfull, if_true]
      · simp only [if_neg hx, if_neg hfull]
        exact ih h

/-- The borders of the chunks do not matter. -/
theorem readLoop_eq_readBytes (h : s.oversized = false) (polls : List Poll) :
    readLoop maxFrameBytes s polls = readBytes maxFrameBytes s (received polls) := by
  induction polls generalizing s with
  | nil => rfl
  | cons poll polls ih =>
    cases poll with
    | idle => exact ih h
    | chunk bytes =>
      have hreceived : received (.chunk bytes :: polls) = bytes ++ received polls := rfl
      rw [hreceived, readBytes_append _ _ h, readLoop]
      split
      · rfl
      · next hr => exact ih (Bool.eq_false_iff.mpr hr)

theorem readLoop_spec (maxFrameBytes : ℕ) (polls : List Poll) :
    (readLoop maxFrameBytes {} polls).delivered = framesOf maxFrameBytes (received polls) ∧
      ((readLoop maxFrameBytes {} polls).oversized = true ↔
        Oversized maxFrameBytes (received polls)) := by
  rw [readLoop_eq_readBytes rfl]
  exact readBytes_spec (received polls) [] [] (by simp) (Nat.zero_le _)

/-- However the stream comes in, the frames delivered are the frames of the stream, and
`message_size` is reported exactly when some line is too long. -/
theorem stdio_framing (maxFrameBytes : ℕ) (stream : Bytes) (polls : List Poll)
    (h : received polls = stream) :
    (readLoop maxFrameBytes {} polls).delivered = framesOf maxFrameBytes stream ∧
      ((readLoop maxFrameBytes {} polls).oversized = true ↔ Oversized maxFrameBytes stream) := by
  rw [← h]
  exact readLoop_spec maxFrameBytes polls

/-- A carriage return in one chunk and its line feed in the next. -/
theorem split_line_end :
    (readLoop 3 {} [.chunk "ab\r".toList, .idle, .chunk "\n\nabcd".toList]).delivered =
        framesOf 3 "ab\r\n\nabcd".toList ∧
      ((readLoop 3 {} [.chunk "ab\r".toList, .idle, .chunk "\n\nabcd".toList]).oversized = true ↔
        Oversized 3 "ab\r\n\nabcd".toList) :=
  stdio_framing 3 _ _ rfl

end Mcp.Stdio
