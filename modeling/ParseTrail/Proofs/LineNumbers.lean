import ParseTrail.Proofs.Source
import ParseTrail.Proofs.Text.Places

/-!
# Lines and their numbers

The bounds of a line are found by looking around an offset, and its number by counting newlines up
to there. Both tell the same lines apart, also for an offset on a terminator, on an empty line or
inside a character:

- `count_newline_take_encode`: newlines are counted in bytes as well as in characters;
- `OnLine.eq_of_newlines_eq`: offsets after as many newlines are on one line;
- `line_bounds_agree_with_numbers`: lines by their bounds and by their numbers.
-/

namespace ParseTrail.Text

variable {xs ys cs lines lines' line line' terminator terminator' rest rest' : List Char}
  {m n : Nat}

/-- The number of newlines in the bytes before offset `n`. -/
def newlinesBefore (cs : List Char) (n : Nat) : Nat :=
  ((encode cs).take n).count 0x0a

/-! ### Newlines in bytes -/

/-- The byte of the newline is part of no other character. -/
theorem eq_newline_of_mem_encode {c : Char} (h : 0x0a ∈ String.utf8EncodeChar c) : c = '\n' := by
  obtain ⟨lead, tail, hencode, hlength, htail, hdecode⟩ := Utf8.exists_encode_eq c
  rw [hencode, List.mem_cons] at h
  rcases h with rfl | hmem
  · -- As the first byte it announces no others.
    obtain rfl : tail = [] := List.eq_nil_of_length_eq_zero (Nat.succ.inj hlength).symm
    exact (Option.some.inj hdecode).symm
  · exact absurd (htail _ hmem) (by decide)

/-- Newlines are counted in bytes as well as in characters: those before an offset are those that
start before it. -/
theorem count_newline_take_encode (cs : List Char) (n : Nat) :
    newlinesBefore cs n = newlines (startingBefore cs n) := by
  rw [newlinesBefore]
  induction cs generalizing n with
  | nil => rw [encode, List.flatMap_nil, List.take_nil]; rfl
  | cons c cs ih =>
    by_cases hn : n = 0
    · rw [hn, List.take_zero]
      rfl
    · have hencode : encode (c :: cs) = String.utf8EncodeChar c ++ encode cs := rfl
      rw [startingBefore, if_neg hn, newlines, List.count_cons, ← newlines, ← ih, hencode,
        List.take_append, List.count_append, String.length_utf8EncodeChar, Nat.add_comm]
      congr 1
      by_cases hc : c = '\n'
      · obtain ⟨k, rfl⟩ := Nat.exists_eq_succ_of_ne_zero hn
        have hbyte : String.utf8EncodeChar c = [0x0a] := by rw [hc]; decide
        rw [hbyte, hc, List.take_succ_cons, List.take_nil]
        rfl
      · rw [if_neg (by simpa using hc), List.count_eq_zero]
        exact fun hmem => hc (eq_newline_of_mem_encode (List.mem_of_mem_take hmem))

/-! ### Lines and their numbers -/

/-- What whole lines begin with has fewer newlines, unless it is all of them. -/
theorem WholeLines.eq_of_newlines_eq (hys : WholeLines ys) (hlead : xs <+: ys)
    (h : newlines xs = newlines ys) : xs = ys := by
  obtain ⟨more, rfl⟩ := hlead
  rw [newlines_append, Nat.left_eq_add, newlines, List.count_eq_zero] at h
  rcases List.eq_nil_or_concat more with rfl | ⟨init, c, rfl⟩
  · rw [List.append_nil]
  · -- What comes on top would end in a newline.
    rcases hys with hnil | hnewline
    · simp at hnil
    · rw [List.concat_eq_append, ← List.append_assoc, List.getLast?_concat, Option.some.injEq]
        at hnewline
      exact absurd (by simp [hnewline]) h

namespace OnLine

/-- An offset has the bounds of the beginning of its line. -/
theorem lineBounds_first (h : OnLine cs n lines line terminator rest) :
    lineBounds cs (byteLength lines) = lineBounds cs n := by
  have hfirst : OnLine cs (byteLength lines) lines line terminator rest :=
    ⟨h.text, h.wholeLines, h.noNewline, h.terminates, Nat.le_refl _, by omega⟩
  rw [hfirst.lineBounds_eq, h.lineBounds_eq]

/-- Offsets after as many newlines are after the same lines. -/
theorem eq_of_newlines_eq (h : OnLine cs m lines line terminator rest)
    (h' : OnLine cs n lines' line' terminator' rest') (heq : newlines lines = newlines lines') :
    lines = lines' := by
  have hm : lines <+: cs := h.text ▸ List.prefix_append _ _
  have hn : lines' <+: cs := h'.text ▸ List.prefix_append _ _
  rcases List.prefix_or_prefix_of_prefix hm hn with hle | hle
  · exact h'.wholeLines.eq_of_newlines_eq hle heq
  · exact (h.wholeLines.eq_of_newlines_eq hle heq.symm).symm

/-- The bounds tell the lines before an offset. -/
theorem eq_of_lineBounds_eq (h : OnLine cs m lines line terminator rest)
    (h' : OnLine cs n lines' line' terminator' rest') (heq : lineBounds cs m = lineBounds cs n) :
    lines = lines' := by
  rw [h.lineBounds_eq, h'.lineBounds_eq, Prod.mk.injEq] at heq
  exact (append_inj_of_byteLength_eq (h.text.symm.trans h'.text) heq.1).1

/-- The number of a line is one more than the number of newlines before it. -/
theorem newlinesBefore_eq (h : OnLine cs n lines line terminator rest) :
    newlinesBefore cs n = newlines lines :=
  (count_newline_take_encode cs n).trans h.newlines_startingBefore

end OnLine

/-- Two offsets of a text have the same line bounds just if there are as many newlines before one
as before the other, which is what the line numbers count. The bounds are those of a line: it begins
not after the offset, at the beginning of the text or after a newline, there is no newline in it,
and it ends with the text or before a terminator. A carriage return before a newline belongs to the
terminator, and one at the end of the text to the line. -/
theorem line_bounds_agree_with_numbers (cs : List Char) (i j : Nat) (hi : i ≤ byteLength cs)
    (hj : j ≤ byteLength cs) :
    (lineBounds cs i = lineBounds cs j ↔ newlinesBefore cs i = newlinesBefore cs j) ∧
      (lineColumn cs i).1 = newlinesBefore cs i + 1 ∧
      ∃ lines line terminator rest, OnLine cs i lines line terminator rest ∧
        lineBounds cs i = (byteLength lines, byteLength lines + byteLength line) := by
  obtain ⟨lines, line, terminator, rest, hline⟩ := exists_onLine hi
  obtain ⟨lines', line', terminator', rest', hline'⟩ := exists_onLine hj
  refine ⟨?_, ?_, lines, line, terminator, rest, hline, hline.lineBounds_eq⟩
  · rw [hline.newlinesBefore_eq, hline'.newlinesBefore_eq]
    constructor
    · intro hbounds
      rw [hline.eq_of_lineBounds_eq hline' hbounds]
    · intro hnumbers
      obtain rfl := hline.eq_of_newlines_eq hline' hnumbers
      rw [← hline.lineBounds_first, hline'.lineBounds_first]
  · rw [hline.lineColumn_eq, hline.newlinesBefore_eq]

/-- Two lines, the first of which begins with a character of two bytes and ends in a carriage return
and a newline. A carriage return ends the text. -/
def twoReturns : List Char :=
  "é\r\na\r".toList

/-- The offset inside the first character is on the line that the newline at offset 3 ends. The
carriage return at the end of the text is part of the last line. -/
theorem line_bounds_agree_with_numbers_twoReturns :
    1 ≤ byteLength twoReturns ∧ 3 ≤ byteLength twoReturns ∧
      lineBounds twoReturns 1 = (0, 2) ∧ lineBounds twoReturns 6 = (4, 6) ∧
      ((lineBounds twoReturns 1 = lineBounds twoReturns 3 ↔
          newlinesBefore twoReturns 1 = newlinesBefore twoReturns 3) ∧
        (lineColumn twoReturns 1).1 = newlinesBefore twoReturns 1 + 1 ∧
        ∃ lines line terminator rest, OnLine twoReturns 1 lines line terminator rest ∧
          lineBounds twoReturns 1 = (byteLength lines, byteLength lines + byteLength line)) :=
  have hi : 1 ≤ byteLength twoReturns := by decide
  have hj : 3 ≤ byteLength twoReturns := by decide
  ⟨hi, hj, by decide, by decide, line_bounds_agree_with_numbers twoReturns 1 3 hi hj⟩

end ParseTrail.Text
