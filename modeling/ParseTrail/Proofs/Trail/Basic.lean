import ParseTrail.Trail.Walk

/-!
# Attempts after each operation

What the arena of a trail holds after an operation, and what no operation changes: once an attempt
is open its index stays, and so does where it starts.

- `get?_push`, `get?_update`, `get?_adopt`: the attempt with an index;
- `startsWithin_push` and its companions: a trail whose attempts all start in some stretch of the
  input stays so while attempts are opened there.
-/

namespace ParseTrail.Trail

variable {t : Trail} {id j : Nat}

/-! ### Single attempts -/

/-- To change an attempt adds none. -/
@[simp]
theorem size_update (t : Trail) (id : Nat) (f : Attempt → Attempt) :
    (t.update id f).size = t.size :=
  Array.size_modify

/-- Only the attempt that is changed changes. -/
theorem get?_update (t : Trail) (id j : Nat) (f : Attempt → Attempt) :
    (t.update id f).get? j = if id = j then (t.get? j).map f else t.get? j :=
  Array.getElem?_modify

/-- To put an attempt below another adds none. -/
@[simp]
theorem size_setParent (t : Trail) (parent? : Option Nat) (id : Nat) :
    (t.setParent parent? id).size = t.size :=
  size_update _ _ _

/-- Neither does it to put others below it. -/
@[simp]
theorem size_setChildren (t : Trail) (id : Nat) (children : List Nat) :
    (t.setChildren id children).size = t.size :=
  size_update _ _ _

/-- To put several below another adds none. -/
@[simp]
theorem size_adopt (t : Trail) (parent? : Option Nat) (ids : List Nat) :
    (t.adopt parent? ids).size = t.size := by
  induction ids generalizing t with
  | nil => rfl
  | cons id ids ih =>
    rw [adopt, List.foldl_cons]
    exact (ih _).trans (size_setParent t parent? id)

/-- Each of them changes in its parent only. -/
theorem get?_adopt (t : Trail) (parent? : Option Nat) (ids : List Nat) (j : Nat) :
    (t.adopt parent? ids).get? j =
      if j ∈ ids then (t.get? j).map fun a => { a with parent? } else t.get? j := by
  induction ids generalizing t with
  | nil => rw [if_neg List.not_mem_nil]; rfl
  | cons id ids ih =>
    rw [adopt, List.foldl_cons]
    refine (ih (t.setParent parent? id)).trans ?_
    rw [setParent, get?_update]
    by_cases hid : id = j
    · subst hid
      rw [if_pos rfl, if_pos List.mem_cons_self]
      -- An attempt that is listed twice is adopted twice, to the same effect.
      by_cases hmem : id ∈ ids
      · rw [if_pos hmem, Option.map_map]
        rfl
      · rw [if_neg hmem]
    · rw [if_neg hid]
      have hiff : j ∈ id :: ids ↔ j ∈ ids := by
        rw [List.mem_cons]
        exact or_iff_right fun h => hid h.symm
      simp only [hiff]

/-- A new attempt is one more. -/
@[simp]
theorem size_push (t : Trail) (parent offset : Nat) (label : String) (anchor : Bool) :
    (t.push parent offset label anchor).2.size = t.size + 1 := by
  simp [push, setChildren, update, size]

/-- The attempt as it is when it is opened. -/
def opened (parent offset : Nat) (label : String) (anchor : Bool) : Attempt :=
  { span := Span.point offset, label, parent? := some parent, anchor }

/-- Opening an attempt below one that exists changes nothing but the children of that one. -/
theorem get?_push (t : Trail) {parent : Nat} (hparent : parent < t.size) (offset : Nat)
    (label : String) (anchor : Bool) (j : Nat) :
    (t.push parent offset label anchor).2.get? j =
      if j = t.size then some (opened parent offset label anchor)
      else if j = parent then
        (t.get? j).map fun a => { a with children := t.children parent ++ [t.size] }
      else t.get? j := by
  have hpushed (i : Nat) : (⟨t.attempts.push (opened parent offset label anchor)⟩ : Trail).get? i =
      if i = t.size then some (opened parent offset label anchor) else t.get? i :=
    Array.getElem?_push
  have hchildren :
      (⟨t.attempts.push (opened parent offset label anchor)⟩ : Trail).children parent =
        t.children parent := by
    rw [children, children, hpushed, if_neg (by omega)]
  have hpush : (t.push parent offset label anchor).2 =
      (⟨t.attempts.push (opened parent offset label anchor)⟩ : Trail).setChildren parent
        (t.children parent ++ [t.size]) := by
    rw [← hchildren]
    rfl
  rw [hpush, setChildren, get?_update, hpushed]
  -- The new attempt, the one it is opened below, and the others.
  by_cases hsize : j = t.size
  · have hne : parent ≠ j := by omega
    rw [if_neg hne, if_pos hsize, if_pos hsize]
  · rw [if_neg hsize, if_neg hsize]
    by_cases hj : j = parent
    · rw [if_pos hj, if_pos hj.symm]
    · rw [if_neg hj, if_neg fun h => hj h.symm]

/-! ### Where attempts start -/

/-- What leaves the start of an attempt leaves all starts. -/
theorem startOf_update (t : Trail) (id : Nat) {f : Attempt → Attempt}
    (hf : ∀ a, (f a).span.start = a.span.start) : (t.update id f).startOf = t.startOf := by
  funext j
  rw [startOf, startOf, get?_update]
  by_cases h : id = j
  · rw [if_pos h, Option.map_map]
    congr 2
    funext a
    exact hf a
  · rw [if_neg h]

/-- Attempts start where they did when others are put below them. -/
@[simp]
theorem startOf_setChildren (t : Trail) (id : Nat) (children : List Nat) :
    (t.setChildren id children).startOf = t.startOf :=
  startOf_update t id fun _ => rfl

/-- So they do when they are put below another. -/
@[simp]
theorem startOf_setParent (t : Trail) (parent? : Option Nat) (id : Nat) :
    (t.setParent parent? id).startOf = t.startOf :=
  startOf_update t id fun _ => rfl

/-- So they do when several are. -/
@[simp]
theorem startOf_adopt (t : Trail) (parent? : Option Nat) (ids : List Nat) :
    (t.adopt parent? ids).startOf = t.startOf := by
  induction ids generalizing t with
  | nil => rfl
  | cons id ids ih =>
    rw [adopt, List.foldl_cons]
    exact (ih _).trans (startOf_setParent t parent? id)

/-- Two trails have the same attempts as far as their number and their starts go. -/
structure SameStarts (t u : Trail) : Prop where
  size : u.size = t.size
  startOf : u.startOf = t.startOf

/-- Starts that stayed the same twice are the same. -/
theorem SameStarts.trans {t u v : Trail} (htu : t.SameStarts u) (huv : u.SameStarts v) :
    t.SameStarts v :=
  ⟨huv.size.trans htu.size, huv.startOf.trans htu.startOf⟩

/-- They stay the same whether or not something is done that keeps them. -/
theorem SameStarts.ite {t u : Trail} {f : Trail → Trail} (htu : t.SameStarts u)
    (hf : ∀ v : Trail, v.SameStarts (f v)) (condition : Prop) [Decidable condition] :
    t.SameStarts (if condition then f u else u) := by
  by_cases h : condition
  · rw [if_pos h]
    exact htu.trans (hf u)
  · rw [if_neg h]
    exact htu

/-- To close an attempt moves its end only. -/
theorem sameStarts_close (t : Trail) (id stop : Nat) (failed : Bool) :
    t.SameStarts (t.close id stop failed) :=
  ⟨size_update _ _ _, startOf_update t id fun _ => rfl⟩

/-- To drop the children of an attempt moves nothing. -/
theorem sameStarts_clearChildren (t : Trail) (id : Nat) : t.SameStarts (t.clearChildren id) :=
  ⟨by simp [clearChildren], by simp [clearChildren]⟩

/-- To mark attempts moves nothing. -/
theorem sameStarts_dissolveToAnchor (t : Trail) (id : Nat) :
    t.SameStarts (t.dissolveToAnchor id) := by
  rw [dissolveToAnchor]
  generalize (t.ancestors id).takeWhile (!t.isAnchor ·) = ids
  induction ids generalizing t with
  | nil => exact ⟨rfl, rfl⟩
  | cons id ids ih =>
    have hmark : t.SameStarts (t.update id fun a => { a with dissolving := true }) :=
      ⟨size_update _ _ _, startOf_update t id fun _ => rfl⟩
    exact hmark.trans (ih _)

/-- To put children in the place of their parent moves nothing. -/
theorem sameStarts_dissolve (t : Trail) (id : Nat) : t.SameStarts (t.dissolve id) := by
  rw [dissolve]
  split
  · exact ⟨rfl, rfl⟩
  · exact ⟨by simp, by simp⟩

/-- There are attempts, and all of them start between two offsets. -/
structure StartsWithin (t : Trail) (first last : Nat) : Prop where
  size : 0 < t.size
  first : ∀ id < t.size, first ≤ t.startOf id
  last : ∀ id < t.size, t.startOf id ≤ last

variable {first last first' last' offset : Nat} {u : Trail}

/-- The bounds may be wider. -/
theorem StartsWithin.mono (h : t.StartsWithin first last) (hfirst : first' ≤ first)
    (hlast : last ≤ last') : t.StartsWithin first' last' :=
  ⟨h.size, fun id hid => Nat.le_trans hfirst (h.first id hid),
    fun id hid => Nat.le_trans (h.last id hid) hlast⟩

/-- The bounds are those of the starts, whatever else has changed. -/
theorem StartsWithin.of_sameStarts (h : t.StartsWithin first last) (hu : t.SameStarts u) :
    u.StartsWithin first last := by
  refine ⟨hu.size ▸ h.size, ?_, ?_⟩
  · rw [hu.size, hu.startOf]
    exact h.first
  · rw [hu.size, hu.startOf]
    exact h.last

/-- A trail that has just started has nothing but its root. -/
theorem startsWithin_start (hfirst : first ≤ offset) (hlast : offset ≤ last) :
    (Trail.start offset).StartsWithin first last := by
  have hstart (id : Nat) (hid : id < (Trail.start offset).size) :
      (Trail.start offset).startOf id = offset := by
    rw [Nat.lt_one_iff.mp hid]
    rfl
  refine ⟨Nat.one_pos, fun id hid => ?_, fun id hid => ?_⟩
  · rw [hstart id hid]
    exact hfirst
  · rw [hstart id hid]
    exact hlast

/-- Opening an attempt between the two offsets. -/
theorem startsWithin_push (h : t.StartsWithin first last) (hfirst : first ≤ offset)
    (hlast : offset ≤ last) (parent : Nat) (label : String) (anchor : Bool) :
    (t.push parent offset label anchor).2.StartsWithin first last := by
  -- The only start that is new is the offset.
  have hstart (id : Nat) : (t.push parent offset label anchor).2.startOf id =
      if id = t.size then offset else t.startOf id := by
    rw [push, startOf_setChildren, startOf, startOf]
    change ((t.attempts.push _)[id]?.map _).getD 0 = _
    rw [Array.getElem?_push]
    by_cases hid : id = t.attempts.size
    · rw [if_pos hid]
      exact (if_pos hid).symm
    · rw [if_neg hid]
      exact (if_neg hid).symm
  refine ⟨by rw [size_push]; omega, fun id hid => ?_, fun id hid => ?_⟩
  · rw [size_push] at hid
    rw [hstart]
    split
    · exact hfirst
    · exact h.first id (by omega)
  · rw [size_push] at hid
    rw [hstart]
    split
    · exact hlast
    · exact h.last id (by omega)

/-! ### The furthest start -/

/-- What is not on the trail counts as starting at 0. -/
theorem startOf_of_size_le (h : t.size ≤ id) : t.startOf id = 0 := by
  rw [startOf, get?, Array.getElem?_eq_none h]
  rfl

/-- The walk begins with the root. -/
theorem zero_mem_preOrder (h : 0 < t.size) : 0 ∈ t.preOrder := by
  obtain ⟨n, hn⟩ : ∃ n, t.size = n + 1 := ⟨t.size - 1, by omega⟩
  rw [preOrder, hn, preOrderFrom]
  exact List.mem_cons_self

/-- A maximum is bounded if all are that it is taken of. -/
theorem foldl_max_le_iff (xs : List Nat) (m n : Nat) :
    xs.foldl max m ≤ n ↔ m ≤ n ∧ ∀ x ∈ xs, x ≤ n := by
  induction xs generalizing m with
  | nil => simp
  | cons x xs ih =>
    rw [List.foldl_cons, ih, List.forall_mem_cons, Nat.max_le, and_assoc]

/-- A maximum is one of those that it is taken of. -/
theorem foldl_max_eq_or_mem (xs : List Nat) (m : Nat) :
    xs.foldl max m = m ∨ xs.foldl max m ∈ xs := by
  induction xs generalizing m with
  | nil => exact .inl rfl
  | cons x xs ih =>
    rw [List.foldl_cons]
    -- The maximum so far is the old one or the head.
    rcases ih (max m x) with h | h
    · rw [h]
      rcases Nat.le_total m x with hle | hle
      · rw [Nat.max_eq_right hle]
        exact .inr List.mem_cons_self
      · exact .inl (Nat.max_eq_left hle)
    · exact .inr (List.mem_cons_of_mem _ h)

/-- The furthest start lies where all attempts start. -/
theorem StartsWithin.furthestStart (h : t.StartsWithin first last) :
    first ≤ t.furthestStart ∧ t.furthestStart ≤ last := by
  have hall (n : Nat) : t.furthestStart ≤ n ↔ ∀ id ∈ t.preOrder, t.startOf id ≤ n := by
    rw [Trail.furthestStart, foldl_max_le_iff]
    simp
  constructor
  · -- It starts no earlier than the root, which is always met.
    have hroot := (hall _).mp (Nat.le_refl _) 0 (zero_mem_preOrder h.size)
    exact Nat.le_trans (h.first 0 h.size) hroot
  · refine (hall last).mpr fun id _ => ?_
    by_cases hid : id < t.size
    · exact h.last id hid
    · rw [startOf_of_size_le (by omega)]
      exact Nat.zero_le last

end ParseTrail.Trail
