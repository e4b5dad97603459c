import Mcp.Stdio.Framing
import Mathlib.Data.List.TakeWhile

/-! The limit on a frame, against the line ending that follows it. -/
namespace Mcp.Stdio

open Bytes

inductive Ending where
  | lf
  | crlf

/-- A frame as a peer writes it, without a line feed or carriage return of its own. -/
structure Written where
  frame : Bytes
  ending : Ending
  noLf : '\n' ∉ frame
  noCr : '\r' ∉ frame

/-- What stands before the line feed. -/
def Written.line (w : Written) : Bytes :=
  match w.ending with
  | .lf => w.frame
  | .crlf => w.frame ++ ['\r']

def Written.bytes (w : Written) : Bytes := w.line ++ ['\n']

/-- The frames that come to anything. -/
def nonempty (ws : List Written) : List Bytes := (ws.map Written.frame).filter (· ≠ [])

/-- The line has no room for the carriage return. -/
def Written.Tight (maxFrameBytes : ℕ) (w : Written) : Prop :=
  w.ending = .crlf ∧ w.frame.length = maxFrameBytes

variable {maxFrameBytes : ℕ} {w : Written} {ws : List Written} {rest : Bytes} {polls : List Poll}

theorem lf_not_mem_line (w : Written) : '\n' ∉ w.line := by
  cases hw : w.ending <;> simp [Written.line, hw, w.noLf]

theorem stripCr_line (w : Written) : w.line.stripCr = w.frame := by
  cases hw : w.ending with
  | lf =>
    simp only [Written.line, hw]
    exact stripCr_of_not_mem w.noCr
  | crlf => simp [Written.line, hw, stripCr]

theorem line_length_le_iff (h : w.frame.length ≤ maxFrameBytes) :
    w.line.length ≤ maxFrameBytes ↔ ¬w.Tight maxFrameBytes := by
  cases hw : w.ending with
  | lf => simp [Written.line, Written.Tight, hw, h]
  | crlf =>
    simp only [Written.line, Written.Tight, hw, List.length_append, List.length_singleton, true_and]
    omega

theorem frame_length_le (w : Written) : w.frame.length ≤ w.line.length := by
  cases hw : w.ending <;> simp [Written.line, hw]

theorem lines_written (ws : List Written) (rest : Bytes) :
    lines (ws.flatMap Written.bytes ++ rest) = ws.map Written.line ++ lines rest := by
  induction ws with
  | nil => rfl
  | cons w ws ih =>
    rw [List.flatMap_cons, Written.bytes, List.append_assoc, List.append_assoc,
      List.singleton_append, lines_append_lf (lf_not_mem_line w), ih]
    rfl

theorem nonempty_eq (ws : List Written) :
    ((ws.map Written.line).map stripCr).filter (· ≠ []) = nonempty ws := by
  have hframes : (ws.map Written.line).map stripCr = ws.map Written.frame := by
    rw [List.map_map]
    exact List.map_congr_left fun w _ => stripCr_line w
  rw [hframes, nonempty]

/-- The frames of a stream whose lines all fit. -/
theorem framesOf_written (h : ∀ w ∈ ws, w.line.length ≤ maxFrameBytes) :
    framesOf maxFrameBytes (ws.flatMap Written.bytes) = nonempty ws := by
  have hlines : (lines (ws.flatMap Written.bytes)).dropLast = ws.map Written.line := by
    rw [← List.append_nil (ws.flatMap _), lines_written, lines_of_not_mem List.not_mem_nil,
      List.dropLast_concat]
  have hall : ∀ line ∈ ws.map Written.line, decide (line.length ≤ maxFrameBytes) = true := by
    simpa using h
  rw [framesOf, hlines, List.takeWhile_eq_self_iff.mpr hall, nonempty_eq]

theorem oversized_written :
    Oversized maxFrameBytes (ws.flatMap Written.bytes) ↔
      ∃ w ∈ ws, maxFrameBytes < w.line.length := by
  rw [← List.append_nil (ws.flatMap _), Oversized, lines_written,
    lines_of_not_mem List.not_mem_nil]
  simp

/-- The frames of a stream with a line that does not fit come before that line. -/
theorem framesOf_overlong (h : maxFrameBytes < w.line.length) :
    framesOf maxFrameBytes (ws.flatMap Written.bytes ++ (w.bytes ++ rest)) <+: nonempty ws := by
  have hlines : lines (ws.flatMap Written.bytes ++ (w.bytes ++ rest)) =
      ws.map Written.line ++ w.line :: lines rest := by
    rw [lines_written, Written.bytes, List.append_assoc, List.singleton_append,
      lines_append_lf (lf_not_mem_line w)]
  have hdrop : (w.line :: lines rest).dropLast = w.line :: (lines rest).dropLast :=
    List.dropLast_cons_of_ne_nil (lines_ne_nil rest)
  have hstop : (w.line :: (lines rest).dropLast).takeWhile (·.length ≤ maxFrameBytes) = [] :=
    List.takeWhile_cons_of_neg (by simpa using h)
  have hbefore : (ws.map Written.line ++ w.line :: (lines rest).dropLast).takeWhile
      (·.length ≤ maxFrameBytes) <+: ws.map Written.line := by
    rw [List.takeWhile_append, hstop, List.append_nil]
    split
    · exact List.prefix_rfl
    · exact List.takeWhile_prefix _
  rw [framesOf, hlines, List.dropLast_append_of_ne_nil (List.cons_ne_nil _ _), hdrop,
    ← nonempty_eq]
  exact (hbefore.map stripCr).filter _

theorem oversized_overlong (h : maxFrameBytes < w.line.length) :
    Oversized maxFrameBytes (ws.flatMap Written.bytes ++ (w.bytes ++ rest)) := by
  refine ⟨w.line, ?_, h⟩
  rw [lines_written, Written.bytes, List.append_assoc, List.singleton_append,
    lines_append_lf (lf_not_mem_line w)]
  simp

theorem fitting_iff (hfit : ∀ w ∈ ws, w.frame.length ≤ maxFrameBytes)
    (hreceived : received polls = ws.flatMap Written.bytes) :
    (readLoop maxFrameBytes {} polls).oversized = false ∧
      (readLoop maxFrameBytes {} polls).delivered = nonempty ws ↔
      ∀ w ∈ ws, ¬w.Tight maxFrameBytes := by
  obtain ⟨hdelivered, hreported⟩ := readLoop_spec maxFrameBytes polls
  rw [hreceived] at hdelivered hreported
  rw [oversized_written] at hreported
  constructor
  · rintro ⟨hsilent, -⟩ w hw htight
    have hlong : maxFrameBytes < w.line.length :=
      Nat.not_le.mp fun hle => (line_length_le_iff (hfit w hw)).mp hle htight
    rw [hreported.mpr ⟨w, hw, hlong⟩] at hsilent
    cases hsilent
  · intro hloose
    have hlines : ∀ w ∈ ws, w.line.length ≤ maxFrameBytes := by
      intro w hw
      exact (line_length_le_iff (hfit w hw)).mpr (hloose w hw)
    constructor
    · rw [← Bool.not_eq_true, hreported]
      rintro ⟨w, hw, hlong⟩
      exact Nat.not_lt.mpr (hlines w hw) hlong
    · rw [hdelivered, framesOf_written hlines]

theorem overlong_rejected (hlong : maxFrameBytes < w.frame.length)
    (hreceived : received polls = ws.flatMap Written.bytes ++ (w.bytes ++ rest)) :
    (readLoop maxFrameBytes {} polls).oversized = true ∧
      (readLoop maxFrameBytes {} polls).delivered <+: nonempty ws := by
  obtain ⟨hdelivered, hreported⟩ := readLoop_spec maxFrameBytes polls
  have hline : maxFrameBytes < w.line.length := hlong.trans_le (frame_length_le w)
  rw [hreceived] at hdelivered hreported
  constructor
  · exact hreported.mpr (oversized_overlong hline)
  · rw [hdelivered]
    exact framesOf_overlong hline

/-- Frames that fit are all handed over, and nothing is reported, exactly when none of them is
tight; a frame that does not fit is rejected behind either ending. -/
theorem line_endings_iff (maxFrameBytes : ℕ) (ws : List Written) (polls : List Poll) :
    ((∀ w ∈ ws, w.frame.length ≤ maxFrameBytes) → received polls = ws.flatMap Written.bytes →
      ((readLoop maxFrameBytes {} polls).oversized = false ∧
        (readLoop maxFrameBytes {} polls).delivered = nonempty ws ↔
        ∀ w ∈ ws, ¬w.Tight maxFrameBytes)) ∧
    ∀ (w : Written) (rest : Bytes), maxFrameBytes < w.frame.length →
      received polls = ws.flatMap Written.bytes ++ (w.bytes ++ rest) →
      (readLoop maxFrameBytes {} polls).oversized = true ∧
        (readLoop maxFrameBytes {} polls).delivered <+: nonempty ws := by
  constructor
  · intro hfit hreceived
    exact fitting_iff hfit hreceived
  · intro w rest hlong hreceived
    exact overlong_rejected hlong hreceived

def short (ending : Ending) : Written where
  frame := "ab".toList
  ending := ending
  noLf := by decide
  noCr := by decide

/-- A limit of three bytes leaves room for two with a carriage return, and a limit of one byte
for neither line. -/
theorem room_for_carriage_return :
    ((readLoop 3 {} [.chunk "ab\r".toList, .chunk "\nab\n".toList]).oversized = false ∧
      (readLoop 3 {} [.chunk "ab\r".toList, .chunk "\nab\n".toList]).delivered =
        nonempty [short .crlf, short .lf]) ∧
    (readLoop 1 {} [.chunk "ab\r\n".toList]).oversized = true := by
  constructor
  · apply ((line_endings_iff 3 [short .crlf, short .lf] _).1 (by decide) (by decide)).mpr
    intro w hw
    rintro ⟨-, hlength⟩
    simp only [List.mem_cons, List.not_mem_nil, or_false] at hw
    rcases hw with rfl | rfl <;> cases hlength
  · exact ((line_endings_iff 1 [] [.chunk "ab\r\n".toList]).2 (short .crlf) [] (by decide)
      (by decide)).1

/-- A frame of exactly the limit: behind a line feed alone it comes through. -/
theorem crlf_frame_rejected :
    (short .crlf).frame.length ≤ 2 ∧
    (readLoop 2 {} [.chunk (short .crlf).bytes]).oversized = true ∧
    (readLoop 2 {} [.chunk (short .crlf).bytes]).delivered = [] ∧
    (readLoop 2 {} [.chunk (short .lf).bytes]).oversized = false ∧
    (readLoop 2 {} [.chunk (short .lf).bytes]).delivered = nonempty [short .lf] := by
  decide

end Mcp.Stdio
