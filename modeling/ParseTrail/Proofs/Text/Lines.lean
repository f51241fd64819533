import ParseTrail.Proofs.Text.Offset
import ParseTrail.Text.Lines

/-!
# Bounds of lines

Where a line begins is fixed by the text before an offset, and where it ends by the text up to the
next newline:

- `exists_lineBounds_append`: the text before an offset splits into whole lines and the beginning
  of the line that holds the offset, whatever comes after;
- `lineBounds_append_of_mem`: what comes after a newline does not matter;
- `lineBounds_wholeLines`: whole lines before a text only move its lines.
-/

namespace ParseTrail.Text

variable {xs ys cs : List Char} {n start offset : Nat} {afterReturn : Bool}

/-- A text of whole lines, each with its newline. -/
def WholeLines (xs : List Char) : Prop :=
  xs = [] ∨ xs.getLast? = some '\n'

/-- A character before whole lines makes whole lines, unless it stands alone and ends none. -/
theorem WholeLines.cons {c : Char} (hxs : WholeLines xs) (hc : xs = [] → c = '\n') :
    WholeLines (c :: xs) := by
  refine .inr ?_
  rw [List.getLast?_cons]
  rcases hxs with hnil | hnewline
  · rw [hnil, hc hnil]
    rfl
  · rw [hnewline]
    rfl

/-- The newlines of two texts are those of both. -/
@[simp]
theorem newlines_append (xs ys : List Char) : newlines (xs ++ ys) = newlines xs + newlines ys :=
  List.count_append

/-- A column is no larger than the distance of the offset, as characters have bytes. -/
theorem column_le_sub (cs : List Char) (start offset : Nat) :
    column cs start offset ≤ offset - start := by
  have hlength := length_le_byteLength cs
  rw [column]
  split
  · split
    · next before hbefore => exact length_le_of_takeBytes?_eq_some hbefore
    · exact Nat.le_refl _
  · omega

/-- A column is no further than the offset. -/
theorem column_le (cs : List Char) (start offset : Nat) : column cs start offset ≤ offset :=
  Nat.le_trans (column_le_sub cs start offset) (Nat.sub_le offset start)

/-! ### The beginning of a line -/

/-- A line that began before the offset `n` begins at a character boundary not after `n`. -/
theorem lineBoundsFrom_fst (start offset : Nat) (afterReturn : Bool) (h : start ≤ n) :
    (lineBoundsFrom start offset afterReturn cs n).1 = start ∨
      ∃ pre post, cs = pre ++ post ∧ offset + byteLength pre ≤ n ∧
        (lineBoundsFrom start offset afterReturn cs n).1 = offset + byteLength pre := by
  -- Passing over a newline before `n` moves the start behind it, and nothing else does.
  induction cs generalizing start offset afterReturn with
  | nil => exact .inl rfl
  | cons c cs ih =>
    rw [lineBoundsFrom]
    by_cases hc : c = '\n'
    · subst hc
      have hsize : ('\n' : Char).utf8Size = 1 := rfl
      rw [if_pos rfl]
      by_cases hn : n ≤ offset
      · rw [if_pos hn]
        exact .inl rfl
      · rw [if_neg hn]
        -- The rest of the text leaves the line after the newline, or begins a later one.
        rcases ih (offset + 1) (offset + 1) false (by omega)
          with hstart | ⟨pre, post, rfl, hle, hstart⟩
        · refine .inr ⟨['\n'], cs, rfl, ?_, ?_⟩
          · simp only [byteLength_cons, byteLength_nil, hsize]
            omega
          · rw [hstart]
            simp only [byteLength_cons, byteLength_nil, hsize]
        · refine .inr ⟨'\n' :: pre, post, rfl, ?_, ?_⟩
          · rw [byteLength_cons, hsize]
            omega
          · rw [hstart, byteLength_cons, hsize]
            omega
    · rw [if_neg hc]
      rcases ih start (offset + c.utf8Size) (c == '\r') h
        with hstart | ⟨pre, post, rfl, hle, hstart⟩
      · exact .inl hstart
      · refine .inr ⟨c :: pre, post, rfl, ?_, ?_⟩
        · rw [byteLength_cons]
          omega
        · rw [hstart, byteLength_cons]
          omega

/-- The line that holds an offset begins at a character boundary not after it. -/
theorem exists_lineBounds_fst_eq (cs : List Char) (n : Nat) :
    ∃ pre post, cs = pre ++ post ∧ byteLength pre ≤ n ∧ (lineBounds cs n).1 = byteLength pre := by
  rcases lineBoundsFrom_fst 0 0 false (Nat.zero_le n)
    with hstart | ⟨pre, post, hcs, hle, hstart⟩
  · exact ⟨[], cs, rfl, Nat.zero_le n, hstart⟩
  · rw [Nat.zero_add] at hle hstart
    exact ⟨pre, post, hcs, hle, hstart⟩

/-- What passing over the text before an offset comes to. -/
theorem lineBoundsFrom_append (start offset : Nat) (afterReturn : Bool) (xs : List Char) :
    ∃ pre line afterReturn', xs = pre ++ line ∧ '\n' ∉ line ∧ WholeLines pre ∧
      ∀ ys, lineBoundsFrom start offset afterReturn (xs ++ ys) (offset + byteLength xs) =
        lineBoundsFrom (if pre = [] then start else offset + byteLength pre)
          (offset + byteLength xs) afterReturn' ys (offset + byteLength xs) := by
  induction xs generalizing start offset afterReturn with
  | nil => exact ⟨[], [], afterReturn, rfl, List.not_mem_nil, .inl rfl, fun ys => rfl⟩
  | cons c cs ih =>
    by_cases hc : c = '\n'
    · subst hc
      have hsize : ('\n' : Char).utf8Size = 1 := rfl
      -- The newline ends a line, to which those that end in the rest are added.
      obtain ⟨pre, line, ret, rfl, hline, hpre, hpass⟩ := ih (offset + 1) (offset + 1) false
      refine ⟨'\n' :: pre, line, ret, rfl, hline, hpre.cons fun _ => rfl, fun ys => ?_⟩
      · have hlength : offset + byteLength ('\n' :: (pre ++ line)) =
            offset + 1 + byteLength (pre ++ line) := by
          rw [byteLength_cons, hsize]
          omega
        rw [List.cons_append, lineBoundsFrom, if_pos rfl, hlength, if_neg (by omega), hpass ys,
          if_neg (List.cons_ne_nil _ _)]
        congr 1
        by_cases hnil : pre = []
        · rw [if_pos hnil, hnil, byteLength_cons, byteLength_nil, hsize]
        · rw [if_neg hnil, byteLength_cons, hsize]
          omega
    · obtain ⟨pre, line, ret, rfl, hline, hpre, hpass⟩ :=
        ih start (offset + c.utf8Size) (c == '\r')
      have hlength : offset + byteLength (c :: (pre ++ line)) =
          offset + c.utf8Size + byteLength (pre ++ line) := by
        rw [byteLength_cons]
        omega
      -- The character joins the first line if no line has ended yet.
      rcases pre with _ | ⟨d, ds⟩
      · refine ⟨[], c :: line, ret, rfl, ?_, .inl rfl, fun ys => ?_⟩
        · exact fun hmem => (List.mem_cons.mp hmem).elim (fun h => hc h.symm) hline
        · rw [List.cons_append, lineBoundsFrom, if_neg hc, hlength, hpass ys, if_pos rfl, if_pos rfl]
      · refine ⟨c :: d :: ds, line, ret, rfl, hline, hpre.cons fun hnil => ?_, fun ys => ?_⟩
        · exact absurd hnil (List.cons_ne_nil _ _)
        · rw [List.cons_append, lineBoundsFrom, if_neg hc, hlength, hpass ys,
            if_neg (List.cons_ne_nil _ _), if_neg (List.cons_ne_nil _ _), byteLength_cons c]
          congr 1
          omega

/-- The line of an offset that is not past the present one starts where the present line does. -/
theorem lineBoundsFrom_fst_of_le (h : n ≤ offset) :
    (lineBoundsFrom start offset afterReturn cs n).1 = start := by
  induction cs generalizing offset afterReturn with
  | nil => rfl
  | cons c cs ih =>
    rw [lineBoundsFrom]
    by_cases hc : c = '\n'
    · rw [if_pos hc, if_pos h]
    · rw [if_neg hc, ih (by omega)]

/-- Where a line begins is told by the text up to an offset on it. -/
theorem lineBoundsFrom_fst_append (h : n ≤ offset + byteLength xs) (ys : List Char) :
    (lineBoundsFrom start offset afterReturn (xs ++ ys) n).1 =
      (lineBoundsFrom start offset afterReturn xs n).1 := by
  induction xs generalizing start offset afterReturn with
  | nil =>
    rw [byteLength_nil, Nat.add_zero] at h
    rw [lineBoundsFrom_fst_of_le h, lineBoundsFrom_fst_of_le h]
  | cons c cs ih =>
    rw [byteLength_cons] at h
    rw [List.cons_append, lineBoundsFrom, lineBoundsFrom]
    by_cases hc : c = '\n'
    · have hsize : ('\n' : Char).utf8Size = 1 := rfl
      subst hc
      rw [if_pos rfl, if_pos rfl]
      by_cases hn : n ≤ offset
      · rw [if_pos hn, if_pos hn]
      · rw [if_neg hn, if_neg hn, ih (by omega)]
    · rw [if_neg hc, if_neg hc, ih (by omega)]

/-- What follows a text does not move the starts of its lines. -/
theorem lineBounds_fst_append (h : n ≤ byteLength xs) (ys : List Char) :
    (lineBounds (xs ++ ys) n).1 = (lineBounds xs n).1 :=
  lineBoundsFrom_fst_append (by omega) ys

/-- The text before an offset is made of whole lines and the beginning of the line that holds the
offset, whatever comes after it. -/
theorem exists_lineBounds_append (xs : List Char) :
    ∃ pre line, xs = pre ++ line ∧ '\n' ∉ line ∧ WholeLines pre ∧
      ∀ ys, (lineBounds (xs ++ ys) (byteLength xs)).1 = byteLength pre := by
  obtain ⟨pre, line, ret, hxs, hline, hpre, hpass⟩ := lineBoundsFrom_append 0 0 false xs
  refine ⟨pre, line, hxs, hline, hpre, fun ys => ?_⟩
  have h := hpass ys
  rw [Nat.zero_add] at h
  rw [lineBounds, h, lineBoundsFrom_fst_of_le (Nat.le_refl _)]
  by_cases hnil : pre = []
  · rw [if_pos hnil, hnil, byteLength_nil]
  · rw [if_neg hnil, Nat.zero_add]

/-! ### The end of a line -/

/-- A line ends within what is left of the text. -/
theorem lineBoundsFrom_snd_le (start offset : Nat) (afterReturn : Bool) (cs : List Char)
    (n : Nat) :
    (lineBoundsFrom start offset afterReturn cs n).2 ≤ offset + byteLength cs := by
  induction cs generalizing start offset afterReturn with
  | nil => exact Nat.le_refl _
  | cons c cs ih =>
    rw [lineBoundsFrom, byteLength_cons]
    by_cases hc : c = '\n'
    · subst hc
      have hsize : ('\n' : Char).utf8Size = 1 := rfl
      rw [if_pos rfl]
      by_cases hn : n ≤ offset
      · rw [if_pos hn]
        simp only
        split <;> omega
      · rw [if_neg hn, hsize]
        exact Nat.le_trans (ih _ (offset + 1) _) (by omega)
    · rw [if_neg hc]
      exact Nat.le_trans (ih _ _ _) (by omega)

/-- So it ends within the text. -/
theorem lineBounds_snd_le (cs : List Char) (n : Nat) : (lineBounds cs n).2 ≤ byteLength cs := by
  have h := lineBoundsFrom_snd_le 0 0 false cs n
  rwa [Nat.zero_add] at h

/-- The line ends at the first newline, whatever follows that. -/
theorem lineBoundsFrom_append_of_mem (hn : n ≤ offset) (h : '\n' ∈ xs) (ys : List Char) :
    lineBoundsFrom start offset afterReturn (xs ++ ys) n =
      lineBoundsFrom start offset afterReturn xs n := by
  -- The first newline stops the search, before it gets to `ys`.
  induction xs generalizing offset afterReturn with
  | nil => exact absurd h List.not_mem_nil
  | cons c cs ih =>
    rw [List.cons_append, lineBoundsFrom, lineBoundsFrom]
    by_cases hc : c = '\n'
    · rw [if_pos hc, if_pos hc, if_pos hn, if_pos hn]
    · have hmem : '\n' ∈ cs := (List.mem_cons.mp h).resolve_left fun h => hc h.symm
      rw [if_neg hc, if_neg hc, ih (by omega) hmem]

/-- Once the line that holds an offset is complete, what comes after does not matter. -/
theorem lineBounds_append_of_mem (xs : List Char) (h : '\n' ∈ ys) (zs : List Char) :
    lineBounds (xs ++ (ys ++ zs)) (byteLength xs) = lineBounds (xs ++ ys) (byteLength xs) := by
  obtain ⟨pre, line, ret, -, -, -, hpass⟩ := lineBoundsFrom_append 0 0 false xs
  rw [Nat.zero_add] at hpass
  rw [lineBounds, lineBounds, hpass, hpass, lineBoundsFrom_append_of_mem (Nat.le_refl _) h]

/-! ### Whole lines before a text -/

/-- Bounds move along with the offsets that are counted from. -/
theorem lineBoundsFrom_add (k : Nat) (start offset : Nat) (afterReturn : Bool) (cs : List Char)
    (n : Nat) (h : afterReturn = true → 0 < offset) :
    lineBoundsFrom (start + k) (offset + k) afterReturn cs (n + k) =
      ((lineBoundsFrom start offset afterReturn cs n).1 + k,
        (lineBoundsFrom start offset afterReturn cs n).2 + k) := by
  -- Nothing but differences of offsets is looked at, except that a carriage return takes one off.
  induction cs generalizing start offset afterReturn with
  | nil => rfl
  | cons c cs ih =>
    rw [lineBoundsFrom, lineBoundsFrom]
    by_cases hc : c = '\n'
    · rw [if_pos hc, if_pos hc]
      by_cases hn : n ≤ offset
      · rw [if_pos hn, if_pos (by omega)]
        cases afterReturn with
        | false => rfl
        | true =>
          have hpos := h rfl
          simp only [if_true, Prod.mk.injEq, true_and]
          omega
      · have hnext := ih (offset + 1) (offset + 1) false (fun h => nomatch h)
        rw [if_neg hn, if_neg (by omega), ← hnext]
        congr 1 <;> omega
    · have hpos := c.utf8Size_pos
      have hnext := ih start (offset + c.utf8Size) (c == '\r') (fun _ => by omega)
      rw [if_neg hc, if_neg hc, ← hnext]
      congr 1
      omega

/-- After whole lines the search for a line starts again. -/
theorem lineBoundsFrom_wholeLines (start offset : Nat) (afterReturn : Bool) (hxs : xs ≠ [])
    (hlines : WholeLines xs) (cs : List Char) (n : Nat) :
    lineBoundsFrom start offset afterReturn (xs ++ cs) (offset + byteLength xs + n) =
      lineBoundsFrom (offset + byteLength xs) (offset + byteLength xs) false cs
        (offset + byteLength xs + n) := by
  -- The lines before the text are passed over down to their last newline.
  have hlast : xs.getLast? = some '\n' := hlines.resolve_left hxs
  clear hlines
  induction xs generalizing start offset afterReturn with
  | nil => exact absurd rfl hxs
  | cons c rest ih =>
    have hpos := c.utf8Size_pos
    have hlength : offset + byteLength (c :: rest) = offset + c.utf8Size + byteLength rest := by
      rw [byteLength_cons]
      omega
    rw [List.cons_append, lineBoundsFrom, hlength]
    rcases hrest : rest with _ | ⟨d, ds⟩
    · -- The last character of the lines is a newline.
      have hc : c = '\n' := by
        rw [hrest] at hlast
        exact Option.some.inj hlast
      subst hc
      have hsize : ('\n' : Char).utf8Size = 1 := rfl
      rw [if_pos rfl, if_neg (by omega), hsize, byteLength_nil, List.nil_append, Nat.add_zero]
    · have hne : rest ≠ [] := hrest ▸ List.cons_ne_nil d ds
      have hlast' : rest.getLast? = some '\n' := by
        rw [hrest] at hlast ⊢
        rw [← hlast, List.getLast?_cons_cons]
      rw [← hrest]
      by_cases hc : c = '\n'
      · have hsize : c.utf8Size = 1 := hc ▸ rfl
        rw [if_pos hc, if_neg (by omega), hsize]
        exact ih (offset + 1) (offset + 1) false hne hlast'
      · rw [if_neg hc]
        exact ih start (offset + c.utf8Size) (c == '\r') hne hlast'

/-- Whole lines before a text only move the lines of the text. -/
theorem lineBounds_wholeLines (hlines : WholeLines xs) (cs : List Char) (n : Nat) :
    lineBounds (xs ++ cs) (byteLength xs + n) =
      (byteLength xs + (lineBounds cs n).1, byteLength xs + (lineBounds cs n).2) := by
  by_cases hxs : xs = []
  · rw [hxs, List.nil_append, byteLength_nil, Nat.zero_add, Nat.zero_add, Nat.zero_add]
  · have hpass := lineBoundsFrom_wholeLines 0 0 false hxs hlines cs n
    have hadd := lineBoundsFrom_add (byteLength xs) 0 0 false cs n (fun h => nomatch h)
    rw [Nat.zero_add] at hpass hadd
    rw [lineBounds, hpass, Nat.add_comm (byteLength xs) n, hadd, lineBounds]
    exact Prod.ext (Nat.add_comm _ _) (Nat.add_comm _ _)

end ParseTrail.Text
