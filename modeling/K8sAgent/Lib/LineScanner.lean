import Mathlib.Data.List.Basic
import K8sAgent.Lib.Encoding

set_option relaxedAutoImplicit false
set_option autoImplicit false

/-!
# Line scanners

Reading a byte stream line by line through a buffer of fixed size. A line ends with a line feed or
with the stream, a carriage return at its end is dropped, and a line that fills the buffer ends the
scan.

## Main definitions

* `LineScanner.scan` — the lines of a stream, up to the first that is too long.
* `LineScanner.WholeLines` — a stream is made of lines that fit, each with its line feed.

## Main results

* `LineScanner.scan_flatten` — lines that fit are read back as they were written.
* `LineScanner.scanFrom_part`, `LineScanner.scanFrom_long` — a part of a line is kept, or ends the
  scan.
* `LineScanner.WholeLines.length_lt` — nothing in whole lines is too long.
* `LineScanner.WholeLines.scan_append` — after whole lines the scan goes on as from the start.
-/

namespace LineScanner

open Encoding

/-- The line feed. -/
def lineFeed : UInt8 := 10
/-- The carriage return. -/
def carriageReturn : UInt8 := 13

/-- The line without a carriage return at its end. -/
def dropCR (line : Bytes) : Bytes :=
  if line.getLast? = some carriageReturn then line.dropLast else line

/-- The lines of the stream, with `acc` already read of the first of them. -/
def scanFrom (size : ℕ) : Bytes → Bytes → List Bytes
  | acc, [] => if acc = [] then [] else [dropCR acc]
  | acc, b :: bs =>
    if b = lineFeed then dropCR acc :: scanFrom size [] bs
    -- the buffer is full, and no end of line in it
    else if size ≤ acc.length + 1 then []
    else scanFrom size (acc ++ [b]) bs

/-- The lines of the stream up to the first that does not fit into a buffer of the given size. -/
def scan (size : ℕ) (stream : Bytes) : List Bytes := scanFrom size [] stream

/-- A part of a line that fits is kept. -/
theorem scanFrom_part {size : ℕ} {part rest : Bytes} (hfeed : lineFeed ∉ part) :
    ∀ {acc : Bytes}, acc.length + part.length < size →
      scanFrom size acc (part ++ rest) = scanFrom size (acc ++ part) rest := by
  induction part with
  | nil =>
    intro acc _
    rw [List.nil_append, List.append_nil]
  | cons b part ih =>
    intro acc hlen
    rw [List.mem_cons, not_or] at hfeed
    obtain ⟨hb, hpart⟩ := hfeed
    rw [List.length_cons] at hlen
    rw [List.cons_append, scanFrom, if_neg (Ne.symm hb), if_neg (by omega), ih hpart]
    · rw [List.append_assoc, List.singleton_append]
    · rw [List.length_append, List.length_singleton]
      omega

/-- A line of fewer than `size` bytes, what is in the buffer included, is read up to its line feed.
-/
lemma scanFrom_line {size : ℕ} {line rest : Bytes} (hfeed : lineFeed ∉ line) {acc : Bytes}
    (hlen : acc.length + line.length < size) :
    scanFrom size acc (line ++ lineFeed :: rest) =
      dropCR (acc ++ line) :: scanFrom size [] rest := by
  rw [scanFrom_part hfeed hlen, scanFrom, if_pos rfl]

/-- **Lines that fit are read back**, without the carriage returns at their ends. -/
theorem scan_flatten {size : ℕ} {lines : List Bytes}
    (hlines : ∀ l ∈ lines, lineFeed ∉ l ∧ l.length < size) :
    scan size (lines.map (· ++ [lineFeed])).flatten = lines.map dropCR := by
  induction lines with
  | nil => rfl
  | cons line lines ih =>
    obtain ⟨hfeed, hlen⟩ := hlines line (by simp)
    have hrest := ih fun l hl => hlines l (by simp [hl])
    rw [List.map_cons, List.flatten_cons, List.append_assoc, List.singleton_append, scan,
      scanFrom_line hfeed (by simpa using hlen), List.nil_append]
    exact congrArg _ hrest

/-! ## Streams with lines that do not end or do not fit -/

/-- A part of a line that does not fit ends the scan. -/
theorem scanFrom_long {size : ℕ} {part rest : Bytes} (hfeed : lineFeed ∉ part) (hne : part ≠ []) :
    ∀ {acc : Bytes}, size ≤ acc.length + part.length → scanFrom size acc (part ++ rest) = [] := by
  induction part with
  | nil => exact absurd rfl hne
  | cons b part ih =>
    intro acc hlen
    rw [List.mem_cons, not_or] at hfeed
    obtain ⟨hb, hpart⟩ := hfeed
    rw [List.length_cons] at hlen
    rw [List.cons_append, scanFrom, if_neg (Ne.symm hb)]
    split_ifs with hfull
    · rfl
    · refine ih hpart ?_ ?_
      · rintro rfl
        rw [List.length_nil] at hlen
        omega
      · rw [List.length_append, List.length_singleton]
        omega

/-- The stream is made of lines that fit, each with its line feed. -/
def WholeLines (size : ℕ) (stream : Bytes) : Prop :=
  ∃ lines : List Bytes, (∀ l ∈ lines, lineFeed ∉ l ∧ l.length < size) ∧
    stream = (lines.map (· ++ [lineFeed])).flatten

lemma WholeLines.nil (size : ℕ) : WholeLines size [] := ⟨[], by simp, rfl⟩

/-- A line of fewer than `size` bytes in front of whole lines makes whole lines. -/
lemma WholeLines.cons {size : ℕ} {line stream : Bytes} (hfeed : lineFeed ∉ line)
    (hlen : line.length < size) (h : WholeLines size stream) :
    WholeLines size (line ++ lineFeed :: stream) := by
  obtain ⟨lines, hlines, rfl⟩ := h
  refine ⟨line :: lines, ?_, ?_⟩
  · simp only [List.mem_cons, forall_eq_or_imp]
    exact ⟨⟨hfeed, hlen⟩, hlines⟩
  · rw [List.map_cons, List.flatten_cons, List.append_assoc, List.singleton_append]

/-- Whole lines end with a line feed. -/
lemma WholeLines.getLast? {size : ℕ} {stream : Bytes} (h : WholeLines size stream)
    (hne : stream ≠ []) : stream.getLast? = some lineFeed := by
  obtain ⟨lines, -, rfl⟩ := h
  rcases List.eq_nil_or_concat lines with rfl | ⟨front, last, rfl⟩
  · exact absurd rfl hne
  · simp

/-- What stands in whole lines without a line feed is a part of one line, and so fits.

**Proof sketch.** Induction on the lines: a part without a line feed that meets the first line and
what comes after it ends with the first line. -/
theorem WholeLines.length_lt {size : ℕ} {stream part : Bytes} (h : WholeLines size stream)
    (hpart : part <:+: stream) (hne : part ≠ []) (hfeed : lineFeed ∉ part) :
    part.length < size := by
  obtain ⟨lines, hlines, rfl⟩ := h
  have hhead : ∀ {p rest : Bytes}, lineFeed ∉ p → p <+: lineFeed :: rest → p = [] := by
    intro p rest hp hpre
    cases p with
    | nil => rfl
    | cons b p =>
      obtain ⟨rfl, -⟩ := List.cons_prefix_cons.mp hpre
      exact absurd List.mem_cons_self hp
  induction lines with
  | nil => exact absurd (List.infix_nil.mp hpart) hne
  | cons line lines ih =>
    have hline := (hlines line List.mem_cons_self).2
    rw [List.map_cons, List.flatten_cons, List.append_assoc, List.singleton_append] at hpart
    rcases List.infix_append_iff.mp hpart with h | h | ⟨front, back, rfl, hfront, hback⟩
    · exact Nat.lt_of_le_of_lt h.length_le hline
    · rcases List.infix_cons_iff.mp h with h | h
      · exact absurd (hhead hfeed h) hne
      · exact ih (fun l hl => hlines l (List.mem_cons_of_mem line hl)) h
    · rw [List.mem_append, not_or] at hfeed
      rw [hhead hfeed.2 hback, List.append_nil]
      exact Nat.lt_of_le_of_lt hfront.length_le hline

/-- **After whole lines the scan goes on as from the start.** -/
theorem WholeLines.scan_append {size : ℕ} {stream : Bytes} (h : WholeLines size stream)
    (rest : Bytes) : ∃ lines, scan size (stream ++ rest) = lines ++ scan size rest := by
  obtain ⟨lines, hlines, rfl⟩ := h
  induction lines with
  | nil => exact ⟨[], rfl⟩
  | cons line lines ih =>
    obtain ⟨hfeed, hlen⟩ := hlines line List.mem_cons_self
    obtain ⟨more, hmore⟩ := ih fun l hl => hlines l (List.mem_cons_of_mem line hl)
    refine ⟨dropCR line :: more, ?_⟩
    rw [List.map_cons, List.flatten_cons, List.append_assoc, List.append_assoc,
      List.singleton_append, scan, scanFrom_line hfeed (by simpa using hlen), List.nil_append,
      List.cons_append]
    exact congrArg _ hmore

end LineScanner
