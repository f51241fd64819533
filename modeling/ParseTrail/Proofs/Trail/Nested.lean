import ParseTrail.Proofs.Trail.Reach

/-!
# Nested attempts

Attempts start no earlier than those they were made for, and an attempt that failed covers its
children. No more is said of the attempts further below: one that matched may stop short of what was
tried for it, and hide it from those above.

- `Nested.startOf_le`, `Nested.stopOf_le_or_exists_matched`: what an attempt covers of all those
  below it;
- `Nested.push`, `Nested.close`, `Nested.dissolve`: recording keeps attempts nested, as long as
  nothing is added below an attempt that has failed.
-/

namespace ParseTrail.Trail

variable {t u : Trail} {id parent c j x y offset : Nat}

/-! ### What attempts cover -/

/-- Where an attempt stops. -/
def stopOf (t : Trail) (id : Nat) : Nat :=
  ((t.get? id).map (·.span.stop)).getD 0

/-- Whether an attempt failed. -/
def failedAt (t : Trail) (id : Nat) : Bool :=
  (t.get? id).any (·.failed)

/-- What an attempt covered, and whether it failed. -/
def extent? (t : Trail) (id : Nat) : Option (Span × Bool) :=
  (t.get? id).map fun a => (a.span, a.failed)

/-- The extent of an attempt tells where it starts. -/
theorem startOf_eq_extent (t : Trail) (id : Nat) :
    t.startOf id = ((t.extent? id).map (·.1.start)).getD 0 := by
  rw [startOf, extent?, Option.map_map]
  rfl

/-- It tells where it stops. -/
theorem stopOf_eq_extent (t : Trail) (id : Nat) :
    t.stopOf id = ((t.extent? id).map (·.1.stop)).getD 0 := by
  rw [stopOf, extent?, Option.map_map]
  rfl

/-- It tells whether it failed. -/
theorem failedAt_eq_extent (t : Trail) (id : Nat) :
    t.failedAt id = (t.extent? id).any (·.2) := by
  rw [failedAt, extent?]
  cases t.get? id with
  | none => rfl
  | some a => rfl

/-- Attempts of one extent start at one offset. -/
theorem startOf_congr (h : u.extent? j = t.extent? c) : u.startOf j = t.startOf c := by
  rw [startOf_eq_extent, startOf_eq_extent, h]

/-- They stop at one offset. -/
theorem stopOf_congr (h : u.extent? j = t.extent? c) : u.stopOf j = t.stopOf c := by
  rw [stopOf_eq_extent, stopOf_eq_extent, h]

/-- They failed both, or neither. -/
theorem failedAt_congr (h : u.extent? j = t.extent? c) : u.failedAt j = t.failedAt c := by
  rw [failedAt_eq_extent, failedAt_eq_extent, h]

/-! ### Extents after each operation -/

/-- What leaves span and failure of an attempt leaves all extents. -/
theorem extent?_update (t : Trail) (id : Nat) {f : Attempt → Attempt}
    (hspan : ∀ a, (f a).span = a.span) (hfailed : ∀ a, (f a).failed = a.failed) :
    (t.update id f).extent? = t.extent? := by
  funext j
  rw [extent?, extent?, get?_update]
  split
  · rw [Option.map_map]
    congr 1
    funext a
    exact Prod.ext (hspan a) (hfailed a)
  · rfl

/-- The children of an attempt are not in its extent. -/
@[simp]
theorem extent?_setChildren (t : Trail) (id : Nat) (children : List Nat) :
    (t.setChildren id children).extent? = t.extent? :=
  extent?_update t id (fun _ => rfl) fun _ => rfl

/-- Neither is its parent. -/
@[simp]
theorem extent?_setParent (t : Trail) (parent? : Option Nat) (id : Nat) :
    (t.setParent parent? id).extent? = t.extent? :=
  extent?_update t id (fun _ => rfl) fun _ => rfl

/-- So to put attempts below another changes no extent. -/
@[simp]
theorem extent?_adopt (t : Trail) (parent? : Option Nat) (ids : List Nat) :
    (t.adopt parent? ids).extent? = t.extent? := by
  induction ids generalizing t with
  | nil => rfl
  | cons id ids ih =>
    rw [adopt, List.foldl_cons]
    exact (ih _).trans (extent?_setParent t parent? id)

/-- To drop the children of an attempt changes none. -/
@[simp]
theorem extent?_clearChildren (t : Trail) (id : Nat) : (t.clearChildren id).extent? = t.extent? := by
  rw [clearChildren, extent?_setChildren, extent?_adopt]

/-- To dissolve an attempt changes none. -/
@[simp]
theorem extent?_dissolve (t : Trail) (id : Nat) : (t.dissolve id).extent? = t.extent? := by
  rw [dissolve]
  split
  · rfl
  · dsimp only
    rw [extent?_setParent, extent?_setChildren, extent?_setChildren, extent?_adopt]

/-- Marking attempts changes neither what they cover nor how they are linked. -/
theorem marked_dissolveToAnchor (t : Trail) (id : Nat) :
    (t.dissolveToAnchor id).extent? = t.extent? ∧
      (t.dissolveToAnchor id).children = t.children ∧
      (t.dissolveToAnchor id).parent? = t.parent? := by
  rw [dissolveToAnchor]
  generalize (t.ancestors id).takeWhile (!t.isAnchor ·) = ids
  induction ids generalizing t with
  | nil => exact ⟨rfl, rfl, rfl⟩
  | cons id ids ih =>
    obtain ⟨hextent, hchildren, hparent⟩ := ih (t.update id fun a => { a with dissolving := true })
    refine ⟨hextent.trans ?_, hchildren.trans ?_, hparent.trans ?_⟩
    · exact extent?_update t id (fun _ => rfl) fun _ => rfl
    · exact children_update t id fun _ => rfl
    · exact parent?_update t id fun _ => rfl

/-- A new attempt covers nothing yet, and the others cover what they did. -/
theorem extent?_push (t : Trail) (parent offset : Nat) (label : String) (anchor : Bool) (j : Nat) :
    (t.push parent offset label anchor).2.extent? j =
      if j = t.size then some (Span.point offset, false) else t.extent? j := by
  rw [push, extent?_setChildren, extent?, get?, Array.getElem?_push]
  by_cases hsize : j = t.attempts.size
  · rw [if_pos hsize, if_pos (show j = t.size from hsize)]
    rfl
  · rw [if_neg hsize, if_neg (show j ≠ t.size from hsize)]
    rfl

/-- To close an attempt changes its own extent only. -/
theorem extent?_close_of_ne (h : j ≠ id) (stop : Nat) (failed : Bool) :
    (t.close id stop failed).extent? j = t.extent? j := by
  rw [extent?, close, get?_update, if_neg (Ne.symm h), extent?]

/-- It leaves all children. -/
theorem children_close (t : Trail) (id stop : Nat) (failed : Bool) :
    (t.close id stop failed).children = t.children :=
  children_update t id fun _ => rfl

/-- It leaves all parents. -/
theorem parent?_close (t : Trail) (id stop : Nat) (failed : Bool) :
    (t.close id stop failed).parent? = t.parent? :=
  parent?_update t id fun _ => rfl

/-- It leaves all starts. -/
theorem startOf_close (t : Trail) (id stop : Nat) (failed : Bool) :
    (t.close id stop failed).startOf = t.startOf :=
  (sameStarts_close t id stop failed).startOf

/-- A failed attempt is made to stop no earlier than its children, and none stops before it starts.
-/
theorem stopOf_close (hid : id < t.size) (stop : Nat) (failed : Bool) :
    (t.close id stop failed).stopOf id =
      max (if failed then t.furthestStop stop (t.children id) else stop) (t.startOf id) := by
  obtain ⟨a, ha⟩ : ∃ a, t.get? id = some a := ⟨_, Array.getElem?_eq_getElem hid⟩
  rw [stopOf, close, get?_update, if_pos rfl, ha, startOf, ha]
  rfl

/-- The furthest stop is a maximum. -/
theorem furthestStop_eq (t : Trail) (stop : Nat) (ids : List Nat) :
    t.furthestStop stop ids = (ids.map t.stopOf).foldl max stop := by
  rw [List.foldl_map]
  rfl

/-- The furthest stop of some attempts is no less than the stop of each. -/
theorem stopOf_le_furthestStop {ids : List Nat} (hc : c ∈ ids) (stop : Nat) :
    t.stopOf c ≤ t.furthestStop stop ids := by
  rw [furthestStop_eq]
  exact ((foldl_max_le_iff _ _ _).mp (Nat.le_refl _)).2 _ (List.mem_map_of_mem hc)

/-- The furthest stop is a given one, or that of an attempt. -/
theorem furthestStop_eq_or (t : Trail) (stop : Nat) (ids : List Nat) :
    t.furthestStop stop ids = stop ∨
      ∃ c ∈ ids, c < t.size ∧ t.furthestStop stop ids = t.stopOf c := by
  rw [furthestStop_eq]
  have hle := ((foldl_max_le_iff (ids.map t.stopOf) stop _).mp (Nat.le_refl _)).1
  rcases foldl_max_eq_or_mem (ids.map t.stopOf) stop with hstop | hmem
  · exact .inl hstop
  · obtain ⟨c, hc, heq⟩ := List.mem_map.mp hmem
    by_cases hsize : c < t.size
    · exact .inr ⟨c, hc, hsize, heq.symm⟩
    · -- An attempt that is not there stops nowhere.
      have hzero : t.stopOf c = 0 := by
        rw [stopOf, get?, Array.getElem?_eq_none (Nat.not_lt.mp hsize)]
        rfl
      exact .inl (by omega)

/-! ### Nested attempts -/

/-- Attempts start no earlier than those they were made for, and an attempt that failed covers its
children. -/
structure Nested (t : Trail) : Prop where
  start_le : ∀ parent, ∀ c ∈ t.children parent, t.startOf parent ≤ t.startOf c
  stop_le : ∀ parent, t.failedAt parent = true → ∀ c ∈ t.children parent,
    t.stopOf c ≤ t.stopOf parent

/-- A trail that has just started has a root without children. -/
theorem nested_start (offset : Nat) : (start offset).Nested where
  start_le parent c hc := by
    rcases parent with _ | parent
    · cases hc
    · cases hc
  stop_le parent _ c hc := by
    rcases parent with _ | parent
    · cases hc
    · cases hc

namespace Nested

/-- No attempt starts before one that it was made for, however far above. -/
theorem startOf_le (h : t.Nested) (hreach : t.Reaches x y) : t.startOf x ≤ t.startOf y := by
  induction hreach with
  | refl => exact Nat.le_refl _
  | child _ hc ih => exact Nat.le_trans ih (h.start_le _ _ hc)

/-- What stands below an attempt lies within it, or an attempt on the way, perhaps the first,
matched and stopped short of that. -/
theorem stopOf_le_or_exists_matched (h : t.Nested) (hreach : t.Reaches x y) :
    t.stopOf y ≤ t.stopOf x ∨
      ∃ m, t.Reaches x m ∧ t.Reaches m y ∧ t.failedAt m = false ∧ t.stopOf m < t.stopOf y := by
  -- Going up from `y` to `x`: if the attempt above does not cover `y` while the one below does, it
  -- cannot have failed.
  have hup (j : Nat) (hj : t.Reaches x j) : t.Reaches j y →
      (t.stopOf y ≤ t.stopOf j ∨
        ∃ m, t.Reaches j m ∧ t.Reaches m y ∧ t.failedAt m = false ∧ t.stopOf m < t.stopOf y) →
      t.stopOf y ≤ t.stopOf x ∨
        ∃ m, t.Reaches x m ∧ t.Reaches m y ∧ t.failedAt m = false ∧ t.stopOf m < t.stopOf y := by
    induction hj with
    | refl => exact fun _ hcase => hcase
    | @child j c _ hc ih =>
      intro hcy hcase
      have hjy : t.Reaches j y := .of_child hc hcy
      refine ih hjy ?_
      rcases hcase with hle | ⟨m, hcm, hmy, hmatched, hlt⟩
      · by_cases hcovered : t.stopOf c ≤ t.stopOf j
        · exact .inl (Nat.le_trans hle hcovered)
        · by_cases hstop : t.stopOf y ≤ t.stopOf j
          · exact .inl hstop
          · have hmatched : t.failedAt j = false := by
              rw [← Bool.not_eq_true]
              exact fun hfail => hcovered (h.stop_le j hfail c hc)
            exact .inr ⟨j, .refl, hjy, hmatched, Nat.not_le.mp hstop⟩
      · exact .inr ⟨m, .of_child hc hcm, hmy, hmatched, hlt⟩
  exact hup y hreach .refl (.inl (Nat.le_refl _))

/-! ### Operations keep attempts nested -/

/-- Attempts may be dropped from child lists. -/
theorem of_children_subset (h : t.Nested) (hextent : u.extent? = t.extent?)
    (hchildren : ∀ parent, u.children parent ⊆ t.children parent) : u.Nested where
  start_le parent c hc := by
    rw [startOf_congr (congrFun hextent parent), startOf_congr (congrFun hextent c)]
    exact h.start_le parent c (hchildren parent hc)
  stop_le parent hfailed c hc := by
    rw [failedAt_congr (congrFun hextent parent)] at hfailed
    rw [stopOf_congr (congrFun hextent parent), stopOf_congr (congrFun hextent c)]
    exact h.stop_le parent hfailed c (hchildren parent hc)

/-- Without its children an attempt has less to cover. -/
theorem clearChildren (h : t.Nested) (hid : id < t.size) : (t.clearChildren id).Nested := by
  refine h.of_children_subset (extent?_clearChildren t id) fun parent => ?_
  rw [children_clearChildren hid]
  split
  · exact List.nil_subset _
  · exact List.Subset.refl _

/-- Marks change nothing of what is covered. -/
theorem dissolveToAnchor (h : t.Nested) (id : Nat) : (t.dissolveToAnchor id).Nested := by
  obtain ⟨hextent, hchildren, -⟩ := marked_dissolveToAnchor t id
  refine h.of_children_subset hextent fun parent => ?_
  rw [hchildren]
  exact List.Subset.refl _

/-- An attempt may be opened below one that has not failed, and no earlier than that one starts. -/
theorem push (h : t.Nested) (hlinked : t.Linked) (hparent : parent < t.size)
    (hopen : t.failedAt parent = false) (hstart : t.startOf parent ≤ offset) (label : String)
    (anchor : Bool) : (t.push parent offset label anchor).2.Nested := by
  -- Nothing is listed below the new attempt, and it is listed below its parent alone.
  have hold {j : Nat} (hj : j < t.size) :
      (t.push parent offset label anchor).2.extent? j = t.extent? j := by
    rw [extent?_push, if_neg (Nat.ne_of_lt hj)]
  have hnew : (t.push parent offset label anchor).2.startOf t.size = offset := by
    rw [startOf_eq_extent, extent?_push, if_pos rfl]
    rfl
  have hlisted {p c : Nat} (hc : c ∈ (t.push parent offset label anchor).2.children p) :
      p = parent ∧ c = t.size ∨ c ∈ t.children p := by
    rw [children_push hparent] at hc
    split at hc
    · next hp =>
      rcases List.mem_append.mp hc with hc | hc
      · exact .inr (hp ▸ hc)
      · exact .inl ⟨hp, List.mem_singleton.mp hc⟩
    · exact .inr hc
  refine ⟨fun p c hc => ?_, fun p hfailed c hc => ?_⟩
  · rcases hlisted hc with ⟨rfl, rfl⟩ | hc
    · rw [hnew, startOf_congr (hold hparent)]
      exact hstart
    · rw [startOf_congr (hold (lt_size_of_mem_children hc)),
        startOf_congr (hold (hlinked.lt_size_of_mem hc))]
      exact h.start_le p c hc
  · rcases hlisted hc with ⟨rfl, rfl⟩ | hc
    · rw [failedAt_congr (hold hparent), hopen] at hfailed
      cases hfailed
    · rw [failedAt_congr (hold (lt_size_of_mem_children hc))] at hfailed
      rw [stopOf_congr (hold (lt_size_of_mem_children hc)),
        stopOf_congr (hold (hlinked.lt_size_of_mem hc))]
      exact h.stop_le p hfailed c hc

/-- An attempt may be closed below one that has not failed. If it failed, it covers its children
from then on. -/
theorem close (h : t.Nested) (hlinked : t.Linked) (hparent : t.parent? id = some parent)
    (hopen : t.failedAt parent = false) (stop : Nat) (failed : Bool) :
    (t.close id stop failed).Nested := by
  have hid : id < t.size := lt_size_of_parent? hparent
  refine ⟨fun p c hc => ?_, fun p hfailed c hc => ?_⟩
  · rw [children_close] at hc
    rw [startOf_close]
    exact h.start_le p c hc
  · rw [children_close] at hc
    have hlt : p < c := hlinked.parent_lt_of_mem hc
    by_cases hp : p = id
    · -- The attempt itself: only if it failed is there something to show.
      subst hp
      have hc' : c ≠ p := by omega
      have hfailed' : failed = true := by
        obtain ⟨a, ha⟩ : ∃ a, t.get? p = some a := ⟨_, Array.getElem?_eq_getElem hid⟩
        rw [failedAt, Trail.close, get?_update, if_pos rfl, ha] at hfailed
        exact hfailed
      rw [stopOf_congr (extent?_close_of_ne hc' stop failed), stopOf_close hid, if_pos hfailed']
      exact Nat.le_trans (stopOf_le_furthestStop hc stop) (Nat.le_max_left _ _)
    · rw [failedAt_congr (extent?_close_of_ne hp stop failed)] at hfailed
      by_cases hc' : c = id
      · -- Its parent has not failed.
        subst hc'
        rw [hlinked.mem_children_iff, hparent, Option.some.injEq] at hc
        rw [← hc, hopen] at hfailed
        cases hfailed
      · rw [stopOf_congr (extent?_close_of_ne hp stop failed),
          stopOf_congr (extent?_close_of_ne hc' stop failed)]
        exact h.stop_le p hfailed c hc

/-- An attempt may be dissolved below one that has not failed. -/
theorem dissolve (h : t.Nested) (hlinked : t.Linked) (hparent : t.parent? id = some parent)
    (hopen : t.failedAt parent = false) : (t.dissolve id).Nested := by
  obtain ⟨before, after, hsplit, hchildren, -⟩ := links_dissolve hlinked hparent
  have hextent := extent?_dissolve t id
  have hmem : id ∈ t.children parent := (hlinked.mem_children_iff _ _).mpr hparent
  -- What is listed after it was listed there before, except that the parent takes over.
  have hlisted {p c : Nat} (hc : c ∈ (t.dissolve id).children p) :
      c ∈ t.children p ∨ p = parent ∧ c ∈ t.children id := by
    rw [hchildren] at hc
    split at hc
    · next hp =>
      subst hp
      rw [hsplit]
      simp only [List.mem_append, List.mem_cons, true_and] at hc ⊢
      rcases hc with hc | hc | hc
      · exact .inl (.inl hc)
      · exact .inr hc
      · exact .inl (.inr (.inr hc))
    · split at hc
      · cases hc
      · exact .inl hc
  refine ⟨fun p c hc => ?_, fun p hfailed c hc => ?_⟩
  · rw [startOf_congr (congrFun hextent p), startOf_congr (congrFun hextent c)]
    rcases hlisted hc with hc | ⟨rfl, hc⟩
    · exact h.start_le p c hc
    · exact Nat.le_trans (h.start_le _ _ hmem) (h.start_le id c hc)
  · rw [failedAt_congr (congrFun hextent p)] at hfailed
    rw [stopOf_congr (congrFun hextent p), stopOf_congr (congrFun hextent c)]
    rcases hlisted hc with hc | ⟨rfl, -⟩
    · exact h.stop_le p hfailed c hc
    · rw [hopen] at hfailed
      cases hfailed

end Nested

end ParseTrail.Trail
