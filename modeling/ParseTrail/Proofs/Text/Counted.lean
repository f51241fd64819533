import ParseTrail.Proofs.Text.Places

/-!
# Lines counted in characters

A place between two characters of a text can be told by the number of characters before it. Where
its line begins, and what the line reads, can then be found without a look at bytes. These are the
same lines that byte offsets lie on.

- `byteLength_take_charsWithin`: rounding an offset down to a character boundary, in characters;
- `exists_onLine_take`: the line of a place lies around the offset of that place.
-/

namespace ParseTrail.Text

/-- The number of characters that end at or before offset `n`. -/
def charsWithin : List Char → Nat → Nat
  | [], _ => 0
  | c :: cs, n => if c.utf8Size ≤ n then charsWithin cs (n - c.utf8Size) + 1 else 0

/-- The number of characters before the line that holds the place after `n` characters. -/
def lineStart (cs : List Char) (n : Nat) : Nat :=
  n - ((cs.take n).reverse.takeWhile (· != '\n')).length

/-- The first line of a text, without its terminator. -/
def firstLine (cs : List Char) : List Char :=
  let full := cs.takeWhile (· != '\n')
  if full.length < cs.length ∧ full.getLast? = some '\r' then full.dropLast else full

variable {xs ys cs lines line terminator rest : List Char} {n : Nat}

/-! ### Characters within an offset -/

theorem byteLength_take_charsWithin (cs : List Char) (n : Nat) :
    byteLength (cs.take (charsWithin cs n)) = floorBoundary cs n := by
  induction cs generalizing n with
  | nil => rfl
  | cons c cs ih =>
    rw [charsWithin, floorBoundary]
    by_cases hc : c.utf8Size ≤ n
    · rw [if_pos hc, if_neg (Nat.not_lt.mpr hc), List.take_succ_cons, byteLength_cons, ih]
    · rw [if_neg hc, if_pos (Nat.not_le.mp hc)]
      rfl

theorem charsWithin_le_length (cs : List Char) (n : Nat) : charsWithin cs n ≤ cs.length := by
  induction cs generalizing n with
  | nil => exact Nat.le_refl 0
  | cons c cs ih =>
    rw [charsWithin]
    split
    · exact Nat.succ_le_succ (ih _)
    · exact Nat.zero_le _

theorem charsWithin_byteLength_append (xs ys : List Char) :
    charsWithin (xs ++ ys) (byteLength xs) = xs.length := by
  induction xs with
  | nil =>
    rcases ys with _ | ⟨y, ys⟩
    · rfl
    · have hpos := y.utf8Size_pos
      rw [List.nil_append, charsWithin, byteLength_nil, if_neg (by omega)]
      rfl
  | cons x xs ih =>
    rw [List.cons_append, charsWithin, byteLength_cons, if_pos (Nat.le_add_right _ _),
      Nat.add_sub_cancel_left, ih, List.length_cons]

theorem byteLength_take_le (cs : List Char) {k n : Nat} (h : k ≤ n) :
    byteLength (cs.take k) ≤ byteLength (cs.take n) := by
  rw [← Nat.min_eq_left h, ← List.take_take]
  exact byteLength_le_of_isPrefix (List.take_prefix _ _)

/-- Places in a text are in order as their offsets are. -/
theorem le_of_byteLength_take_le {k : Nat} (hk : k ≤ cs.length)
    (h : byteLength (cs.take k) ≤ byteLength (cs.take n)) : k ≤ n := by
  refine Nat.le_of_not_lt fun hlt => ?_
  have hsplit : cs.take k = cs.take n ++ (cs.drop n).take (k - n) := by
    rw [← List.take_add, Nat.add_sub_cancel' (Nat.le_of_lt hlt)]
  have hlength := length_le_byteLength ((cs.drop n).take (k - n))
  rw [hsplit, byteLength_append] at h
  rw [List.length_take, List.length_drop] at hlength
  omega

/-! ### The line of a place -/

/-- A stretch without newlines after whole lines is told from the end. -/
theorem lineStart_eq (hlines : WholeLines lines) (hline : '\n' ∉ line) (rest : List Char) :
    lineStart (lines ++ line ++ rest) (lines ++ line).length = lines.length := by
  have hpass : ∀ x ∈ line.reverse, (x != '\n') = true := by
    intro x hx
    rw [bne_iff_ne]
    rintro rfl
    exact hline (List.mem_reverse.mp hx)
  have hstop : lines.reverse.takeWhile (· != '\n') = [] := by
    rcases hlines with hnil | hlast
    · rw [hnil]
      rfl
    · obtain ⟨init, hinit⟩ := List.getLast?_eq_some_iff.mp hlast
      rw [hinit, List.reverse_append]
      rfl
  have hall : (lines ++ line).reverse.takeWhile (· != '\n') = line.reverse := by
    rw [List.reverse_append, List.takeWhile_append_of_pos hpass, hstop, List.append_nil]
  rw [lineStart, List.take_left, hall, List.length_reverse, List.length_append, Nat.add_sub_cancel]

theorem takeWhile_stretch (hline : '\n' ∉ line) (h : rest = [] ∨ ∃ more, rest = '\n' :: more) :
    (line ++ rest).takeWhile (· != '\n') = line := by
  rw [List.takeWhile_append_of_pos fun x hx => ?_]
  · rcases h with rfl | ⟨more, rfl⟩
    · rw [List.takeWhile_nil, List.append_nil]
    · rw [List.takeWhile_cons_of_neg (by decide), List.append_nil]
  · rw [bne_iff_ne]
    rintro rfl
    exact hline hx

/-- The line before a terminator is the first line of what begins there. -/
theorem Terminates.firstLine_eq (h : Terminates line rest terminator) (hline : '\n' ∉ line) :
    firstLine (line ++ (terminator ++ rest)) = line := by
  cases h with
  | newline hreturn =>
    rw [List.singleton_append, firstLine, takeWhile_stretch hline (.inr ⟨rest, rfl⟩)]
    exact if_neg fun hboth => hreturn hboth.2
  | returnNewline =>
    have hstretch : line ++ (['\r', '\n'] ++ rest) = line ++ ['\r'] ++ '\n' :: rest := by
      rw [List.append_assoc]
      rfl
    have hfull : '\n' ∉ line ++ ['\r'] := by simp [hline]
    rw [firstLine, hstretch, takeWhile_stretch hfull (.inr ⟨rest, rfl⟩)]
    simp
  | endOfText hrest =>
    rw [firstLine, hrest, List.append_nil, takeWhile_stretch hline (.inl rfl), List.append_nil]
    exact if_neg fun hboth => Nat.lt_irrefl _ hboth.1

/-- The line of a place between two characters lies around its offset. -/
theorem exists_onLine_take {k : Nat} (hk : k ≤ cs.length) :
    ∃ terminator rest, OnLine cs (byteLength (cs.take k)) (cs.take (lineStart cs k))
      (firstLine (cs.drop (lineStart cs k))) terminator rest := by
  have hoffset : byteLength (cs.take k) ≤ byteLength cs :=
    byteLength_le_of_isPrefix (List.take_prefix k cs)
  obtain ⟨lines, line, terminator, rest, hon⟩ := exists_onLine hoffset
  obtain ⟨m, hm⟩ := Nat.exists_eq_add_of_le hon.first
  have hon' := hon
  rw [hm] at hon'
  obtain ⟨full, tail, hsplit, hfull, hmfull, -⟩ := hon'.exists_stretch
  -- The place is on the stretch, so that only a part of it lies before the place.
  have hwhole : cs.take k ++ cs.drop k = lines ++ (full ++ tail) := by
    rw [List.take_append_drop, hon.text, hsplit]
  obtain ⟨mid, hmid⟩ : ∃ mid, cs.take k = lines ++ mid := by
    rcases List.append_eq_append_iff.mp hwhole with ⟨more, hlines, -⟩ | ⟨mid, hmid, -⟩
    · have hlength := congrArg byteLength hlines
      rw [byteLength_append] at hlength
      have hnil : more = [] := eq_nil_of_byteLength_eq_zero (by omega)
      exact ⟨[], by rw [hlines, hnil]; simp⟩
    · exact ⟨mid, hmid⟩
  have hstarts : mid <+: full := by
    rw [hmid, List.append_assoc, List.append_cancel_left_eq] at hwhole
    rcases List.append_eq_append_iff.mp hwhole with ⟨more, hfull', -⟩ | ⟨more, hmid', hrest⟩
    · exact ⟨more, hfull'.symm⟩
    · rw [hmid, byteLength_append, hmid', byteLength_append] at hm
      have hnil : more = [] := eq_nil_of_byteLength_eq_zero (by omega)
      exact ⟨[], by rw [List.append_nil, hmid', hnil, List.append_nil]⟩
  have hlength : k = (lines ++ mid).length := by
    rw [← hmid, List.length_take_of_le hk]
  have hcs : cs = lines ++ mid ++ cs.drop k := by
    rw [← hmid, List.take_append_drop]
  have hstart : lineStart cs k = lines.length := by
    have hnew : '\n' ∉ mid := fun hmem => hfull (hstarts.subset hmem)
    have heq := lineStart_eq hon.wholeLines hnew (cs.drop k)
    rwa [← hcs, ← hlength] at heq
  have hdrop : firstLine (cs.drop (lineStart cs k)) = line := by
    rw [hstart, hon.text, List.drop_left, hon.terminates.firstLine_eq hon.noNewline]
  have htake : cs.take (lineStart cs k) = lines := by
    rw [hstart, hon.text, List.take_left]
  rw [hdrop, htake]
  exact ⟨terminator, rest, hon⟩

end ParseTrail.Text
