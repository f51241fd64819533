import ParseTrail.Proofs.Text.Lines

/-!
# Places on lines

An offset of a text lies on a line or on its terminator. The bounds of the line, its number and the
column of the offset are told from this alone:

- `exists_onLine`: every offset up to the end of a text lies on a line of it;
- `OnLine.lineBounds_eq`, `OnLine.newlines_startingBefore`: the bounds and the number of the line;
- `OnLine.lineColumn_eq`: the place as a line number and a column, which the line alone determines;
- `OnLine.beyond_iff`: the offsets that lie past the line and the column after it.
-/

namespace ParseTrail.Text

/-- What comes after a line: a newline, a carriage return and a newline, or nothing at the end of
the text. A carriage return right before a newline is no part of the line. -/
inductive Terminates (line rest : List Char) : List Char → Prop
  | newline : line.getLast? ≠ some '\r' → Terminates line rest ['\n']
  | returnNewline : Terminates line rest ['\r', '\n']
  | endOfText : rest = [] → Terminates line rest []

/-- The offset `n` of a text lies on `line` or on its terminator, up to the last byte of that.
Before it are whole lines, after it is the rest. -/
structure OnLine (cs : List Char) (n : Nat) (lines line terminator rest : List Char) : Prop where
  text : cs = lines ++ (line ++ (terminator ++ rest))
  wholeLines : WholeLines lines
  noNewline : '\n' ∉ line
  terminates : Terminates line rest terminator
  first : byteLength lines ≤ n
  last : n ≤ byteLength lines + byteLength line + (byteLength terminator - 1)

/-- The offset lies between a carriage return and a newline. -/
def WithinTerminator (cs : List Char) (n : Nat) : Prop :=
  ∃ before after, cs = before ++ '\r' :: '\n' :: after ∧ n = byteLength before + 1

variable {xs ys cs full lines line terminator rest : List Char} {m n : Nat}

/-! ### Bounds -/

/-- Characters that are no newlines are passed over. -/
theorem lineBoundsFrom_append_of_not_mem (h : '\n' ∉ xs) (start offset : Nat) (afterReturn : Bool)
    (ys : List Char) (n : Nat) :
    lineBoundsFrom start offset afterReturn (xs ++ ys) n =
      lineBoundsFrom start (offset + byteLength xs)
        ((xs.getLast?.map (· == '\r')).getD afterReturn) ys n := by
  induction xs generalizing offset afterReturn with
  | nil => rfl
  | cons c cs ih =>
    obtain ⟨hc, hcs⟩ := not_or.mp (mt List.mem_cons.mpr h)
    have hlast : ((cs.getLast?.map (· == '\r')).getD (c == '\r')) =
        (((c :: cs).getLast?.map (· == '\r')).getD afterReturn) := by
      rw [List.getLast?_cons]
      cases cs.getLast? <;> rfl
    rw [List.cons_append, lineBoundsFrom, if_neg fun heq => hc heq.symm, ih hcs, hlast,
      byteLength_cons, Nat.add_assoc]

/-- The bounds of the last line of a text, which no newline ends. -/
theorem lineBounds_last (hlines : WholeLines lines) (hline : '\n' ∉ line) (m : Nat) :
    lineBounds (lines ++ line) (byteLength lines + m) =
      (byteLength lines, byteLength lines + byteLength line) := by
  have hpass := lineBoundsFrom_append_of_not_mem hline 0 0 false [] m
  rw [List.append_nil, Nat.zero_add] at hpass
  rw [lineBounds_wholeLines hlines, lineBounds, hpass]
  rfl

/-- The bounds of a line that a newline ends. -/
theorem lineBounds_ended (hlines : WholeLines lines) (hfull : '\n' ∉ full)
    (hm : m ≤ byteLength full) :
    lineBounds (lines ++ (full ++ '\n' :: rest)) (byteLength lines + m) =
      (byteLength lines, byteLength lines +
        if full.getLast? = some '\r' then byteLength full - 1 else byteLength full) := by
  have hpass := lineBoundsFrom_append_of_not_mem hfull 0 0 false ('\n' :: rest) m
  rw [Nat.zero_add, lineBoundsFrom, if_pos rfl, if_pos hm] at hpass
  rw [lineBounds_wholeLines hlines, lineBounds, hpass]
  -- The flag tells whether the last character before the newline is a carriage return.
  cases full.getLast? with
  | none => rfl
  | some c => simp

namespace OnLine

/-- The offset lies on a stretch without newlines. It is the line, with the carriage return that may
belong to the terminator. -/
theorem exists_stretch (h : OnLine cs (byteLength lines + m) lines line terminator rest) :
    ∃ full tail, line ++ (terminator ++ rest) = full ++ tail ∧ '\n' ∉ full ∧ m ≤ byteLength full ∧
      (full = line ∧ tail = [] ∨ full = line ∧ full.getLast? ≠ some '\r' ∧ tail = '\n' :: rest ∨
        full = line ++ ['\r'] ∧ tail = '\n' :: rest) := by
  have hlast := h.last
  cases h.terminates with
  | newline hreturn =>
    have hterminator : byteLength ['\n'] = 1 := rfl
    exact ⟨line, '\n' :: rest, rfl, h.noNewline, by omega, .inr (.inl ⟨rfl, hreturn, rfl⟩)⟩
  | returnNewline =>
    have hterminator : byteLength ['\r', '\n'] = 2 := rfl
    have hreturn : byteLength ['\r'] = 1 := rfl
    refine ⟨line ++ ['\r'], '\n' :: rest, by rw [List.append_assoc]; rfl, ?_, ?_, .inr (.inr ⟨rfl, rfl⟩)⟩
    · simp [h.noNewline]
    · rw [byteLength_append]
      omega
  | endOfText hrest =>
    rw [byteLength_nil] at hlast
    exact ⟨line, [], by rw [hrest]; rfl, h.noNewline, by omega, .inl ⟨rfl, rfl⟩⟩

/-- The bounds of the line that holds the offset. -/
theorem lineBounds_eq (h : OnLine cs n lines line terminator rest) :
    lineBounds cs n = (byteLength lines, byteLength lines + byteLength line) := by
  obtain ⟨m, rfl⟩ := Nat.exists_eq_add_of_le h.first
  obtain ⟨full, tail, hsplit, hfull, hm, hcases⟩ := h.exists_stretch
  rw [h.text, hsplit]
  rcases hcases with ⟨rfl, rfl⟩ | ⟨rfl, hreturn, rfl⟩ | ⟨rfl, rfl⟩
  · rw [List.append_nil, lineBounds_last h.wholeLines hfull]
  · rw [lineBounds_ended h.wholeLines hfull hm, if_neg hreturn]
  · -- The carriage return is passed over like a character of the line, and then taken off again.
    have hlength : byteLength (line ++ ['\r']) = byteLength line + 1 := byteLength_append line ['\r']
    rw [lineBounds_ended h.wholeLines hfull hm, List.getLast?_concat, if_pos rfl, hlength,
      Nat.add_sub_cancel]

/-! ### Numbers -/

/-- The newlines before the offset are those of the whole lines before it. -/
theorem newlines_startingBefore (h : OnLine cs n lines line terminator rest) :
    newlines (startingBefore cs n) = newlines lines := by
  obtain ⟨m, rfl⟩ := Nat.exists_eq_add_of_le h.first
  obtain ⟨full, tail, hsplit, hfull, hm, -⟩ := h.exists_stretch
  rw [h.text, startingBefore_append_add, newlines_append, Nat.add_eq_left, hsplit, newlines,
    List.count_eq_zero]
  exact fun hmem => hfull ((startingBefore_isPrefix hm tail).subset hmem)

/-- Rounding an offset down to a character boundary does not leave the line. -/
theorem floorBoundary (h : OnLine cs n lines line terminator rest) :
    OnLine cs (floorBoundary cs n) lines line terminator rest where
  text := h.text
  wholeLines := h.wholeLines
  noNewline := h.noNewline
  terminates := h.terminates
  first := by
    obtain ⟨m, rfl⟩ := Nat.exists_eq_add_of_le h.first
    rw [h.text, floorBoundary_append_add]
    omega
  last := Nat.le_trans (floorBoundary_le cs n) h.last

/-! ### Columns -/

/-- The column of the offset can be told from the line without its terminator. -/
theorem column_eq (h : OnLine cs n lines line terminator rest) :
    column (line ++ (terminator ++ rest)) (byteLength lines) n =
      column line (byteLength lines) n := by
  obtain ⟨m, rfl⟩ := Nat.exists_eq_add_of_le h.first
  obtain ⟨full, tail, hsplit, -, hm, hcases⟩ := h.exists_stretch
  have hle : m ≤ byteLength (full ++ tail) := by
    rw [byteLength_append]
    omega
  rw [column, column, Nat.add_sub_cancel_left, hsplit]
  simp only [if_pos hle, takeBytes?_append_of_le hm]
  -- Up to the newline there is the line, or the line with a carriage return.
  have hfull : full = line ∨ full = line ++ ['\r'] := by
    rcases hcases with ⟨heq, -⟩ | ⟨heq, -⟩ | ⟨heq, -⟩
    · exact .inl heq
    · exact .inl heq
    · exact .inr heq
  rcases hfull with rfl | rfl
  · rw [if_pos hm]
  · -- Past the line there is room for the carriage return only, which takes one byte.
    have hlength : byteLength (line ++ ['\r']) = byteLength line + 1 := byteLength_append line ['\r']
    by_cases hshort : m ≤ byteLength line
    · rw [if_pos hshort, takeBytes?_append_of_le hshort]
    · have hend : m = byteLength (line ++ ['\r']) := by omega
      have htake := takeBytes?_byteLength_append (line ++ ['\r']) []
      rw [List.append_nil] at htake
      rw [if_neg hshort, hend, htake, hlength]
      simp

theorem le_byteLength (h : OnLine cs n lines line terminator rest) : n ≤ byteLength cs := by
  have hlast := h.last
  rw [h.text]
  simp only [byteLength_append]
  omega

/-- The place of the offset is told by the number of its line and its column there. -/
theorem lineColumn_eq (h : OnLine cs n lines line terminator rest) :
    lineColumn cs n = (newlines lines + 1, column line (byteLength lines) n + 1) := by
  rw [lineColumn, Nat.min_eq_left h.le_byteLength, h.lineBounds_eq, h.text]
  simp only [startingBefore_byteLength_append, dropBytes?_byteLength_append, Option.getD_some,
    h.column_eq]

/-! ### Terminators of two bytes -/

/-- What lies past the line and the column after it is what lies between a carriage return and a
newline. -/
theorem beyond_iff (h : OnLine cs n lines line terminator rest) :
    byteLength lines + byteLength line < n ↔ WithinTerminator cs n := by
  constructor
  · intro hbeyond
    have hlast := h.last
    cases h.terminates with
    | newline _ =>
      have hterminator : byteLength ['\n'] = 1 := rfl
      omega
    | returnNewline =>
      have hterminator : byteLength ['\r', '\n'] = 2 := rfl
      refine ⟨lines ++ line, rest, by rw [h.text, List.append_assoc]; rfl, ?_⟩
      rw [byteLength_append]
      omega
    | endOfText _ =>
      rw [byteLength_nil] at hlast
      omega
  · rintro ⟨before, after, hcs, hn⟩
    obtain ⟨m, rfl⟩ := Nat.exists_eq_add_of_le h.first
    obtain ⟨full, tail, hsplit, hfull, hm, hcases⟩ := h.exists_stretch
    have hlength : byteLength (before ++ ['\r']) = byteLength lines + m :=
      (byteLength_append before ['\r']).trans hn.symm
    have htext : lines ++ (full ++ tail) = (before ++ ['\r']) ++ '\n' :: after := by
      rw [← hsplit, ← h.text, hcs, List.append_assoc]
      rfl
    -- What follows the offset begins with a newline, so that it is not on the stretch.
    have hdrop := congrArg (dropBytes? (byteLength lines + m)) htext
    rw [dropBytes?_append_add, dropBytes?_append_of_le hm, ← hlength,
      dropBytes?_byteLength_append] at hdrop
    obtain ⟨left, hleft, htail⟩ := Option.map_eq_some_iff.mp hdrop
    obtain ⟨full, rfl, hall⟩ := eq_append_of_dropBytes?_eq_some hleft
    rcases left with _ | ⟨c, left⟩
    · rw [List.append_nil, ← List.append_assoc] at htext
      have hsame : byteLength (lines ++ full) = byteLength (before ++ ['\r']) := by
        rw [byteLength_append, hall, hlength]
      obtain ⟨hends, -⟩ := append_inj_of_byteLength_eq htext hsame
      rw [List.append_nil] at hcases
      rcases hcases with ⟨-, rfl⟩ | ⟨-, hreturn, -⟩ | ⟨rfl, -⟩
      · cases htail
      · -- The carriage return before the offset ends the stretch, or else the lines before it.
        have hlast := congrArg List.getLast? hends
        rw [List.getLast?_append, List.getLast?_concat] at hlast
        rcases hchar : full.getLast? with _ | c
        · rw [hchar, Option.none_or] at hlast
          rcases h.wholeLines with hnil | hnewline
          · rw [hnil] at hlast
            cases hlast
          · rw [hnewline, Option.some.injEq] at hlast
            exact absurd hlast (by decide)
        · rw [hchar, Option.some_or] at hlast
          rw [hchar] at hreturn
          exact absurd hlast hreturn
      · rw [byteLength_append] at hall
        have hreturn : byteLength ['\r'] = 1 := rfl
        omega
    · obtain ⟨rfl, -⟩ := List.cons.inj htail
      exact absurd (List.mem_append_right _ List.mem_cons_self) hfull

end OnLine

/-! ### Lines that hold an offset -/

/-- An offset lies on a stretch without newlines, after whole lines and before a newline or the end
of the text. -/
theorem exists_stretch (h : n ≤ byteLength cs) :
    ∃ lines full tail, cs = lines ++ (full ++ tail) ∧ WholeLines lines ∧ '\n' ∉ full ∧
      (tail = [] ∨ ∃ rest, tail = '\n' :: rest) ∧
      byteLength lines ≤ n ∧ n ≤ byteLength lines + byteLength full := by
  induction cs generalizing n with
  | nil =>
    exact ⟨[], [], [], rfl, .inl rfl, List.not_mem_nil, .inl rfl, Nat.zero_le n, h⟩
  | cons c cs ih =>
    have hpos := c.utf8Size_pos
    rw [byteLength_cons] at h
    obtain ⟨lines, full, tail, rfl, hlines, hfull, htail, hfirst, hlast⟩ :=
      ih (n := n - c.utf8Size) (by omega)
    by_cases hc : c = '\n'
    · have hsize : c.utf8Size = 1 := hc ▸ rfl
      by_cases hn : n = 0
      · -- The newline ends the first line, which is empty.
        exact ⟨[], [], c :: (lines ++ (full ++ tail)), rfl, .inl rfl, List.not_mem_nil,
          .inr ⟨_, by rw [hc]⟩, Nat.zero_le n, by rw [hn]; exact Nat.zero_le _⟩
      · refine ⟨c :: lines, full, tail, rfl, hlines.cons fun _ => hc, hfull, htail, ?_, ?_⟩
        · rw [byteLength_cons]
          omega
        · rw [byteLength_cons]
          omega
    · rcases lines with _ | ⟨d, ds⟩
      · -- The character joins the stretch that holds the offset.
        refine ⟨[], c :: full, tail, rfl, .inl rfl, ?_, htail, Nat.zero_le n, ?_⟩
        · exact fun hmem => (List.mem_cons.mp hmem).elim (fun heq => hc heq.symm) hfull
        · simp only [byteLength_nil, byteLength_cons] at hlast ⊢
          omega
      · -- It belongs to the lines before, so the offset lies after it.
        have hpos' := d.utf8Size_pos
        refine ⟨c :: d :: ds, full, tail, rfl, hlines.cons fun hnil => ?_, hfull, htail, ?_, ?_⟩
        · exact absurd hnil (List.cons_ne_nil _ _)
        · simp only [byteLength_cons] at hfirst ⊢
          omega
        · rw [byteLength_cons]
          omega

/-- Every offset up to the end of a text lies on a line of it. -/
theorem exists_onLine (h : n ≤ byteLength cs) :
    ∃ lines line terminator rest, OnLine cs n lines line terminator rest := by
  obtain ⟨lines, full, tail, rfl, hlines, hfull, htail, hfirst, hlast⟩ := exists_stretch h
  rcases htail with rfl | ⟨rest, rfl⟩
  · exact ⟨lines, full, [], [], by simp only [List.append_nil], hlines, hfull, .endOfText rfl, hfirst,
      hlast⟩
  · -- A carriage return at the end of the stretch belongs to the terminator.
    by_cases hreturn : full.getLast? = some '\r'
    · obtain ⟨line, rfl⟩ := List.getLast?_eq_some_iff.mp hreturn
      have hterminator : byteLength ['\r', '\n'] = 2 := rfl
      have hlength : byteLength (line ++ ['\r']) = byteLength line + 1 := by
        rw [byteLength_append]
        rfl
      refine ⟨lines, line, ['\r', '\n'], rest, ?_, hlines, ?_, .returnNewline, hfirst, by omega⟩
      · simp only [List.append_assoc, List.cons_append, List.nil_append]
      · exact fun hmem => hfull (List.mem_append_left _ hmem)
    · exact ⟨lines, full, ['\n'], rest, rfl, hlines, hfull, .newline hreturn, hfirst, hlast⟩

end ParseTrail.Text
