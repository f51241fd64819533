import ParseTrail.Text.Offset

/-!
# Offsets at character boundaries

A character boundary of a text is the length of its first part in some split of the text in two.
What every operation on offsets does at a boundary is stated for such splits. Two operations are
also used inside characters, where only bounds are stated:

- `add_stepLength_le`: a step does not leave the text;
- `exists_floorBoundary_eq`: rounding down gives a boundary that is no larger.
-/

namespace ParseTrail.Text

variable {xs ys zs : List Char} {n : Nat}

/-- A beginning of a text has no more bytes than the whole. -/
theorem byteLength_le_of_isPrefix (h : xs <+: ys) : byteLength xs ≤ byteLength ys := by
  obtain ⟨zs, rfl⟩ := h
  rw [byteLength_append]
  omega

/-- Each character has one byte at least. -/
theorem length_le_byteLength (xs : List Char) : xs.length ≤ byteLength xs := by
  induction xs with
  | nil => simp
  | cons c cs ih =>
    have hpos := c.utf8Size_pos
    rw [List.length_cons, byteLength_cons]
    omega

/-- Only the empty text has no bytes. -/
theorem eq_nil_of_byteLength_eq_zero (h : byteLength xs = 0) : xs = [] := by
  have hlength := length_le_byteLength xs
  rw [h] at hlength
  exact List.length_eq_zero_iff.mp (by omega)

/-! ### Cutting -/

/-- To drop as many bytes as a first part has leaves the second. -/
@[simp]
theorem dropBytes?_byteLength_append (xs ys : List Char) :
    dropBytes? (byteLength xs) (xs ++ ys) = some ys := by
  induction xs with
  | nil => rw [byteLength_nil, dropBytes?, List.nil_append]
  | cons c cs ih =>
    have hpos := c.utf8Size_pos
    obtain ⟨n, hn⟩ : ∃ n, byteLength (c :: cs) = n + 1 :=
      ⟨byteLength (c :: cs) - 1, by rw [byteLength_cons]; omega⟩
    rw [hn, List.cons_append, dropBytes?, if_pos (by rw [← hn, byteLength_cons]; omega), ← hn,
      byteLength_cons, Nat.add_sub_cancel_left, ih]

/-- To take as many gives the first part. -/
@[simp]
theorem takeBytes?_byteLength_append (xs ys : List Char) :
    takeBytes? (byteLength xs) (xs ++ ys) = some xs := by
  induction xs with
  | nil => rw [byteLength_nil, takeBytes?]
  | cons c cs ih =>
    have hpos := c.utf8Size_pos
    obtain ⟨n, hn⟩ : ∃ n, byteLength (c :: cs) = n + 1 :=
      ⟨byteLength (c :: cs) - 1, by rw [byteLength_cons]; omega⟩
    rw [hn, List.cons_append, takeBytes?, if_pos (by rw [← hn, byteLength_cons]; omega), ← hn,
      byteLength_cons, Nat.add_sub_cancel_left, ih, Option.map_some]

/-- There are no more characters than bytes in what is cut off. -/
theorem length_le_of_takeBytes?_eq_some (h : takeBytes? n xs = some ys) : ys.length ≤ n := by
  induction xs generalizing n ys with
  | nil =>
    cases n with
    | zero =>
      cases h
      exact Nat.le_refl 0
    | succ n => cases h
  | cons c cs ih =>
    cases n with
    | zero =>
      cases h
      exact Nat.le_refl 0
    | succ n =>
      rw [takeBytes?] at h
      split at h
      · have hpos := c.utf8Size_pos
        obtain ⟨zs, hzs, rfl⟩ := Option.map_eq_some_iff.mp h
        have hlength := ih hzs
        rw [List.length_cons]
        omega
      · cases h

/-- Prefixes of one text that are equally long are the same. -/
theorem append_inj_of_byteLength_eq {as bs cs ds : List Char}
    (h : as ++ bs = cs ++ ds) (hlength : byteLength as = byteLength cs) :
    as = cs ∧ bs = ds := by
  -- Cutting both sides at the common length gives the four parts back.
  have hdrop := congrArg (dropBytes? (byteLength as)) h
  have htake := congrArg (takeBytes? (byteLength as)) h
  rw [dropBytes?_byteLength_append, hlength, dropBytes?_byteLength_append] at hdrop
  rw [takeBytes?_byteLength_append, hlength, takeBytes?_byteLength_append] at htake
  exact ⟨Option.some.inj htake, Option.some.inj hdrop⟩

/-- Cutting out the middle of three parts. -/
theorem slice?_append (xs ys zs : List Char) :
    slice? (xs ++ (ys ++ zs)) (byteLength xs) (byteLength xs + byteLength ys) = some ys := by
  rw [slice?, if_pos (by omega), dropBytes?_byteLength_append, Option.bind_some,
    Nat.add_sub_cancel_left, takeBytes?_byteLength_append]

/-- What is dropped has the length asked for. -/
theorem eq_append_of_dropBytes?_eq_some (h : dropBytes? n xs = some zs) :
    ∃ ys, xs = ys ++ zs ∧ byteLength ys = n := by
  -- Each character dropped takes at least one byte off the count.
  induction n using Nat.strongRecOn generalizing xs with
  | ind n ih =>
    rcases n with _ | n
    · rw [dropBytes?, Option.some.injEq] at h
      exact ⟨[], by rw [List.nil_append, h], rfl⟩
    · rcases xs with _ | ⟨c, cs⟩
      · simp [dropBytes?] at h
      · rw [dropBytes?] at h
        by_cases hc : c.utf8Size ≤ n + 1
        · have hpos := c.utf8Size_pos
          rw [if_pos hc] at h
          obtain ⟨ys, hys, hlength⟩ := ih _ (by omega) h
          exact ⟨c :: ys, by rw [hys, List.cons_append], by rw [byteLength_cons, hlength]; omega⟩
        · simp [if_neg hc] at h

/-- Bytes beyond the first part are dropped from the second. -/
theorem dropBytes?_append_add (xs ys : List Char) (n : Nat) :
    dropBytes? (byteLength xs + n) (xs ++ ys) = dropBytes? n ys := by
  induction xs with
  | nil => rw [byteLength_nil, Nat.zero_add, List.nil_append]
  | cons c cs ih =>
    have hpos := c.utf8Size_pos
    -- The count is not zero, so that dropping takes the first character.
    obtain ⟨m, hm⟩ : ∃ m, byteLength (c :: cs) + n = m + 1 :=
      ⟨byteLength (c :: cs) + n - 1, by rw [byteLength_cons]; omega⟩
    have hrest : m + 1 - c.utf8Size = byteLength cs + n := by
      rw [byteLength_cons] at hm
      omega
    rw [hm, List.cons_append, dropBytes?, if_pos (by rw [byteLength_cons] at hm; omega), hrest, ih]

/-- A slice of the second part is the same when a first part stands before it. -/
theorem slice?_append_add (xs ys : List Char) (first last : Nat) :
    slice? (xs ++ ys) (byteLength xs + first) (byteLength xs + last) = slice? ys first last := by
  rw [slice?, slice?, dropBytes?_append_add, Nat.add_sub_add_left]
  by_cases h : first ≤ last
  · rw [if_pos h, if_pos (by omega)]
  · rw [if_neg h, if_neg (by omega)]

/-- Dropping looks no further than the offset. -/
theorem dropBytes?_append_of_le (h : n ≤ byteLength xs) (ys : List Char) :
    dropBytes? n (xs ++ ys) = (dropBytes? n xs).map (· ++ ys) := by
  induction xs generalizing n with
  | nil =>
    have hzero : n = 0 := Nat.le_zero.mp h
    rw [hzero, dropBytes?, dropBytes?, Option.map_some]
  | cons c cs ih =>
    rcases n with _ | n
    · rw [dropBytes?, dropBytes?, Option.map_some]
    · rw [List.cons_append, dropBytes?, dropBytes?]
      by_cases hc : c.utf8Size ≤ n + 1
      · rw [byteLength_cons] at h
        rw [if_pos hc, if_pos hc, ih (by omega)]
      · rw [if_neg hc, if_neg hc, Option.map_none]

/-- A boundary is where text is cut in two. -/
theorem isBoundary_iff : isBoundary zs n = true ↔ ∃ xs ys, zs = xs ++ ys ∧ byteLength xs = n := by
  rw [isBoundary, Option.isSome_iff_exists]
  constructor
  · rintro ⟨ys, hdrop⟩
    obtain ⟨xs, hzs, hlength⟩ := eq_append_of_dropBytes?_eq_some hdrop
    exact ⟨xs, ys, hzs, hlength⟩
  · rintro ⟨xs, ys, rfl, rfl⟩
    exact ⟨ys, dropBytes?_byteLength_append xs ys⟩

/-- The boundaries of the second part are the same as well. -/
theorem isBoundary_append_add (xs ys : List Char) (n : Nat) :
    isBoundary (xs ++ ys) (byteLength xs + n) = isBoundary ys n := by
  rw [isBoundary, isBoundary, dropBytes?_append_add]

/-- Boundaries of the first part are the same when a second part follows. -/
theorem isBoundary_append_of_le (h : n ≤ byteLength xs) (ys : List Char) :
    isBoundary (xs ++ ys) n = isBoundary xs n := by
  rw [isBoundary, isBoundary, dropBytes?_append_of_le h, Option.isSome_map]

/-- Taking looks no further than the offset. -/
theorem takeBytes?_append_of_le (h : n ≤ byteLength xs) (ys : List Char) :
    takeBytes? n (xs ++ ys) = takeBytes? n xs := by
  induction xs generalizing n with
  | nil =>
    have hzero : n = 0 := Nat.le_zero.mp h
    rw [hzero, takeBytes?, takeBytes?]
  | cons c cs ih =>
    rcases n with _ | n
    · rw [takeBytes?, takeBytes?]
    · rw [List.cons_append, takeBytes?, takeBytes?]
      by_cases hc : c.utf8Size ≤ n + 1
      · rw [byteLength_cons] at h
        rw [if_pos hc, if_pos hc, ih (by omega)]
      · rw [if_neg hc, if_neg hc]

/-- Cutting out a part looks no further than its end. -/
theorem slice?_append_of_le (first : Nat) {last : Nat} (h : last ≤ byteLength xs)
    (ys : List Char) :
    slice? (xs ++ ys) first last = slice? xs first last := by
  rw [slice?, slice?]
  by_cases hle : first ≤ last
  · rw [if_pos hle, if_pos hle, dropBytes?_append_of_le (by omega)]
    -- What is left after dropping still reaches to `last` or further.
    cases hdrop : dropBytes? first xs with
    | none => rfl
    | some zs =>
      obtain ⟨pre, rfl, hpre⟩ := eq_append_of_dropBytes?_eq_some hdrop
      rw [byteLength_append] at h
      exact takeBytes?_append_of_le (by omega) ys
  · rw [if_neg hle, if_neg hle]

/-! ### Stepping and rounding -/

/-- At the end there is no character to step over. -/
@[simp]
theorem stepLength_byteLength (xs : List Char) : stepLength xs (byteLength xs) = 0 := by
  induction xs with
  | nil => rfl
  | cons c cs ih =>
    have hpos := c.utf8Size_pos
    rw [stepLength, if_neg (by rw [byteLength_cons]; omega),
      if_neg (by rw [byteLength_cons]; omega), byteLength_cons, Nat.add_sub_cancel_left, ih]

/-- Elsewhere a step is as long as the next character. -/
@[simp]
theorem stepLength_byteLength_append (xs : List Char) (c : Char) (ys : List Char) :
    stepLength (xs ++ c :: ys) (byteLength xs) = c.utf8Size := by
  induction xs with
  | nil => rfl
  | cons d ds ih =>
    have hpos := d.utf8Size_pos
    rw [List.cons_append, stepLength, if_neg (by rw [byteLength_cons]; omega),
      if_neg (by rw [byteLength_cons]; omega), byteLength_cons, Nat.add_sub_cancel_left, ih]

/-- How far a step goes is told by the text up to the end of the character. -/
theorem stepLength_append (h : n < byteLength xs) (ys : List Char) :
    stepLength (xs ++ ys) n = stepLength xs n := by
  induction xs generalizing n with
  | nil => exact absurd h (Nat.not_lt_zero n)
  | cons c cs ih =>
    rw [byteLength_cons] at h
    rw [List.cons_append, stepLength, stepLength]
    by_cases h0 : n = 0
    · rw [if_pos h0, if_pos h0]
    · by_cases hc : n < c.utf8Size
      · rw [if_neg h0, if_neg h0, if_pos hc, if_pos hc]
      · rw [if_neg h0, if_neg h0, if_neg hc, if_neg hc, ih (by omega)]

/-- A step does not leave the text, also from inside a character. -/
theorem add_stepLength_le (h : n ≤ byteLength xs) : n + stepLength xs n ≤ byteLength xs := by
  induction xs generalizing n with
  | nil => simpa [stepLength] using h
  | cons c cs ih =>
    rw [stepLength, byteLength_cons]
    by_cases h0 : n = 0
    · rw [if_pos h0]
      omega
    · by_cases hc : n < c.utf8Size
      · -- Inside the first character, whose end belongs to the text.
        rw [if_neg h0, if_pos hc]
        omega
      · rw [byteLength_cons] at h
        have hrest := ih (n := n - c.utf8Size) (by omega)
        rw [if_neg h0, if_neg hc]
        omega

/-- Rounding down gives a character boundary. -/
theorem exists_floorBoundary_eq (cs : List Char) (n : Nat) :
    ∃ xs ys, cs = xs ++ ys ∧ floorBoundary cs n = byteLength xs ∧ byteLength xs ≤ n := by
  induction cs generalizing n with
  | nil => exact ⟨[], [], rfl, rfl, Nat.zero_le n⟩
  | cons c cs ih =>
    -- The boundary is before the first character, or lies within the rest.
    by_cases hc : n < c.utf8Size
    · exact ⟨[], c :: cs, rfl, by rw [floorBoundary, if_pos hc, byteLength_nil], Nat.zero_le n⟩
    · obtain ⟨xs, ys, hsplit, hfloor, hle⟩ := ih (n - c.utf8Size)
      refine ⟨c :: xs, ys, by rw [hsplit, List.cons_append], ?_, ?_⟩
      · rw [floorBoundary, if_neg hc, hfloor, byteLength_cons]
      · rw [byteLength_cons]
        omega

/-- Rounding down gives no larger number. -/
theorem floorBoundary_le (cs : List Char) (n : Nat) : floorBoundary cs n ≤ n := by
  obtain ⟨xs, ys, -, hfloor, hle⟩ := exists_floorBoundary_eq cs n
  exact hfloor ▸ hle

/-- It gives an offset within the text. -/
theorem floorBoundary_le_byteLength (cs : List Char) (n : Nat) :
    floorBoundary cs n ≤ byteLength cs := by
  obtain ⟨xs, ys, rfl, hfloor, -⟩ := exists_floorBoundary_eq cs n
  rw [hfloor, byteLength_append]
  omega

/-- Rounding down looks no further than the offset. -/
theorem floorBoundary_append (h : n ≤ byteLength xs) (ys : List Char) :
    floorBoundary (xs ++ ys) n = floorBoundary xs n := by
  induction xs generalizing n with
  | nil =>
    have hzero : n = 0 := Nat.le_zero.mp h
    rw [List.nil_append, hzero]
    exact Nat.le_zero.mp (floorBoundary_le ys 0)
  | cons c cs ih =>
    rw [List.cons_append, floorBoundary, floorBoundary]
    by_cases hc : n < c.utf8Size
    · rw [if_pos hc, if_pos hc]
    · rw [byteLength_cons] at h
      rw [if_neg hc, if_neg hc, ih (by omega)]

/-- The end of a first part is a boundary, and rounded to itself. -/
@[simp]
theorem floorBoundary_byteLength_append (xs ys : List Char) :
    floorBoundary (xs ++ ys) (byteLength xs) = byteLength xs := by
  rw [floorBoundary_append (Nat.le_refl _)]
  induction xs with
  | nil => rfl
  | cons c cs ih =>
    rw [floorBoundary, if_neg (by rw [byteLength_cons]; omega), byteLength_cons,
      Nat.add_sub_cancel_left, ih]

/-- The characters before it are those of the first part. -/
@[simp]
theorem startingBefore_byteLength_append (xs ys : List Char) :
    startingBefore (xs ++ ys) (byteLength xs) = xs := by
  induction xs with
  | nil =>
    rcases ys with _ | ⟨c, cs⟩
    · rfl
    · rw [List.nil_append, byteLength_nil, startingBefore, if_pos rfl]
  | cons c cs ih =>
    have hpos := c.utf8Size_pos
    rw [List.cons_append, startingBefore, if_neg (by rw [byteLength_cons]; omega),
      byteLength_cons, Nat.add_sub_cancel_left, ih]

/-- Behind a first part, rounding is that of the second. -/
theorem floorBoundary_append_add (xs ys : List Char) (n : Nat) :
    floorBoundary (xs ++ ys) (byteLength xs + n) = byteLength xs + floorBoundary ys n := by
  induction xs with
  | nil => rw [byteLength_nil, Nat.zero_add, Nat.zero_add, List.nil_append]
  | cons c cs ih =>
    have hrest : c.utf8Size + byteLength cs + n - c.utf8Size = byteLength cs + n := by omega
    rw [List.cons_append, floorBoundary, byteLength_cons, if_neg (by omega), hrest, ih,
      Nat.add_assoc]

/-- So is the question which characters start before an offset. -/
theorem startingBefore_append_add (xs ys : List Char) (n : Nat) :
    startingBefore (xs ++ ys) (byteLength xs + n) = xs ++ startingBefore ys n := by
  induction xs with
  | nil => rw [byteLength_nil, Nat.zero_add, List.nil_append, List.nil_append]
  | cons c cs ih =>
    have hpos := c.utf8Size_pos
    have hrest : c.utf8Size + byteLength cs + n - c.utf8Size = byteLength cs + n := by omega
    rw [List.cons_append, startingBefore, byteLength_cons, if_neg (by omega), hrest, ih,
      List.cons_append]

/-- What starts before an offset within the first part of a text belongs to that part. -/
theorem startingBefore_isPrefix (h : n ≤ byteLength xs) (ys : List Char) :
    startingBefore (xs ++ ys) n <+: xs := by
  induction xs generalizing n with
  | nil =>
    have hzero : n = 0 := Nat.le_zero.mp h
    subst hzero
    cases ys <;> exact List.nil_prefix
  | cons c cs ih =>
    rw [List.cons_append, startingBefore]
    by_cases hn : n = 0
    · rw [if_pos hn]
      exact List.nil_prefix
    · rw [byteLength_cons] at h
      rw [if_neg hn]
      exact (List.prefix_cons_inj c).mpr (ih (by omega))

end ParseTrail.Text
