import ParseTrail.Proofs.Trail.Nested
import ParseTrail.Proofs.Trail.Walks

/-!
# Anchors and marks

Once an attempt is open it stays what it is, an anchor or not. Attempts are marked to be dissolved
only between another attempt and the nearest anchor above that, and no mark is taken off again.

- `Marked.push`, `Marked.dissolveToAnchor`, `flags_dissolve` and their companions: no operation
  changes an anchor or takes off a mark;
- `Linked.givesWay_dissolveToAnchor`: after marking, all that is between an attempt and the nearest
  anchor above it is going to be dissolved.
-/

namespace ParseTrail.Trail

variable {t u v : Trail} {id parent a c j p q : Nat}

/-- The nearest anchor above an attempt. -/
def nearestAnchor (t : Trail) (id : Nat) : Nat :=
  ((t.ancestors id).find? t.isAnchor).getD 0

/-- From an attempt up to an anchor, all but the anchor are to be dissolved. -/
inductive GivesWay (t : Trail) (a : Nat) : Nat → Prop
  | anchor : t.isAnchor a = true → GivesWay t a a
  | up {q p : Nat} : t.isDissolving q = true → t.parent? q = some p → GivesWay t a p →
    GivesWay t a q

/-! ### What operations keep -/

/-- The attempts of a trail are in another one, the same of them are anchors, and those that were
marked are. -/
structure Marked (t u : Trail) : Prop where
  size_le : t.size ≤ u.size
  isAnchor : ∀ j < t.size, u.isAnchor j = t.isAnchor j
  isDissolving : ∀ j < t.size, t.isDissolving j = true → u.isDissolving j = true

namespace Marked

/-- Nothing has been marked yet. -/
theorem refl (t : Trail) : t.Marked t :=
  ⟨Nat.le_refl _, fun _ _ => rfl, fun _ _ => id⟩

/-- Marks that are kept twice are kept. -/
theorem trans (htu : t.Marked u) (huv : u.Marked v) : t.Marked v where
  size_le := Nat.le_trans htu.size_le huv.size_le
  isAnchor j hj :=
    (huv.isAnchor j (Nat.lt_of_lt_of_le hj htu.size_le)).trans (htu.isAnchor j hj)
  isDissolving j hj hmark :=
    huv.isDissolving j (Nat.lt_of_lt_of_le hj htu.size_le) (htu.isDissolving j hj hmark)

/-- Marks are kept where the flags are the same. -/
theorem of_eq (hsize : u.size = t.size) (hanchor : u.isAnchor = t.isAnchor)
    (hdissolving : u.isDissolving = t.isDissolving) : t.Marked u := by
  refine ⟨Nat.le_of_eq hsize.symm, fun j _ => by rw [hanchor], fun j _ hmark => ?_⟩
  rw [hdissolving]
  exact hmark

/-- They are kept whether or not something is done that keeps them. -/
theorem ite {f : Trail → Trail} (htu : t.Marked u) (hf : ∀ v : Trail, v.Marked (f v)) (c : Prop)
    [Decidable c] : t.Marked (if c then f u else u) := by
  split
  · exact htu.trans (hf u)
  · exact htu

end Marked

/-- A change that leaves a flag of each attempt as it is. -/
theorem any_update (t : Trail) (id : Nat) {f : Attempt → Attempt} (flag : Attempt → Bool)
    (hf : ∀ a, flag (f a) = flag a) (j : Nat) :
    ((t.update id f).get? j).any flag = (t.get? j).any flag := by
  rw [get?_update]
  split
  · rcases t.get? j with _ | a
    · rfl
    · exact hf a
  · rfl

/-- What leaves the anchor flag of an attempt leaves all of them. -/
theorem isAnchor_update (t : Trail) (id : Nat) {f : Attempt → Attempt}
    (hf : ∀ a, (f a).anchor = a.anchor) : (t.update id f).isAnchor = t.isAnchor :=
  funext fun j => any_update t id (·.anchor) hf j

/-- So it is with the marks of attempts to be dissolved. -/
theorem isDissolving_update (t : Trail) (id : Nat) {f : Attempt → Attempt}
    (hf : ∀ a, (f a).dissolving = a.dissolving) : (t.update id f).isDissolving = t.isDissolving :=
  funext fun j => any_update t id (·.dissolving) hf j

/-- Changes of links alone. -/
theorem flags_adopt (t : Trail) (parent? : Option Nat) (ids : List Nat) :
    (t.adopt parent? ids).isAnchor = t.isAnchor ∧
      (t.adopt parent? ids).isDissolving = t.isDissolving := by
  induction ids generalizing t with
  | nil => exact ⟨rfl, rfl⟩
  | cons id ids ih =>
    rw [adopt, List.foldl_cons]
    obtain ⟨hanchor, hdissolving⟩ := ih (t.setParent parent? id)
    exact ⟨hanchor.trans (isAnchor_update t id fun _ => rfl),
      hdissolving.trans (isDissolving_update t id fun _ => rfl)⟩

/-- To close an attempt leaves all flags. -/
theorem flags_close (t : Trail) (id stop : Nat) (failed : Bool) :
    (t.close id stop failed).isAnchor = t.isAnchor ∧
      (t.close id stop failed).isDissolving = t.isDissolving :=
  ⟨isAnchor_update t id fun _ => rfl, isDissolving_update t id fun _ => rfl⟩

/-- To drop the children of an attempt leaves all flags. -/
theorem flags_clearChildren (t : Trail) (id : Nat) :
    (t.clearChildren id).isAnchor = t.isAnchor ∧
      (t.clearChildren id).isDissolving = t.isDissolving := by
  obtain ⟨hanchor, hdissolving⟩ := flags_adopt t none (t.children id)
  rw [clearChildren]
  dsimp only [setChildren]
  constructor
  · rw [isAnchor_update, hanchor]
    exact fun _ => rfl
  · rw [isDissolving_update, hdissolving]
    exact fun _ => rfl

/-- To dissolve an attempt leaves all flags, its own as well. -/
theorem flags_dissolve (t : Trail) (id : Nat) :
    (t.dissolve id).isAnchor = t.isAnchor ∧
      (t.dissolve id).isDissolving = t.isDissolving := by
  rw [dissolve]
  split
  · exact ⟨rfl, rfl⟩
  · next parent _ =>
    -- Parents and child lists are written, and nothing else.
    obtain ⟨hanchor, hdissolving⟩ := flags_adopt t (some parent) (t.children id)
    dsimp only [setParent, setChildren]
    constructor
    · rw [isAnchor_update, isAnchor_update, isAnchor_update, hanchor]
      · exact fun _ => rfl
      · exact fun _ => rfl
      · exact fun _ => rfl
    · rw [isDissolving_update, isDissolving_update, isDissolving_update, hdissolving]
      · exact fun _ => rfl
      · exact fun _ => rfl
      · exact fun _ => rfl

/-- So marks are kept when an attempt is closed. -/
theorem marked_close (t : Trail) (id stop : Nat) (failed : Bool) :
    t.Marked (t.close id stop failed) :=
  .of_eq (sameStarts_close t id stop failed).size (flags_close t id stop failed).1
    (flags_close t id stop failed).2

/-- They are kept when its children are dropped. -/
theorem marked_clearChildren (t : Trail) (id : Nat) : t.Marked (t.clearChildren id) :=
  .of_eq (sameStarts_clearChildren t id).size (flags_clearChildren t id).1
    (flags_clearChildren t id).2

/-- They are kept when it is dissolved. -/
theorem marked_dissolve (t : Trail) (id : Nat) : t.Marked (t.dissolve id) :=
  .of_eq (sameStarts_dissolve t id).size (flags_dissolve t id).1 (flags_dissolve t id).2

/-- Of the attempts before, a new one changes no flag. -/
theorem isAnchor_push (hparent : parent < t.size) (offset : Nat) (label : String) (anchor : Bool)
    (j : Nat) :
    (t.push parent offset label anchor).2.isAnchor j =
      if j = t.size then anchor else t.isAnchor j := by
  rw [isAnchor, get?_push t hparent]
  split
  · rfl
  · split
    · rw [isAnchor]
      rcases t.get? j with _ | a <;> rfl
    · rfl

/-- A new attempt is not marked. -/
theorem isDissolving_push (hparent : parent < t.size) (offset : Nat) (label : String)
    (anchor : Bool) (j : Nat) :
    (t.push parent offset label anchor).2.isDissolving j =
      if j = t.size then false else t.isDissolving j := by
  rw [isDissolving, get?_push t hparent]
  split
  · rfl
  · split
    · rw [isDissolving]
      rcases t.get? j with _ | a <;> rfl
    · rfl

/-- So marks are kept when an attempt is added. -/
theorem Marked.push (hparent : parent < t.size) (offset : Nat) (label : String) (anchor : Bool) :
    t.Marked (t.push parent offset label anchor).2 where
  size_le := by
    rw [size_push]
    exact Nat.le_succ _
  isAnchor j hj := by rw [isAnchor_push hparent, if_neg (Nat.ne_of_lt hj)]
  isDissolving j hj hmark := by
    rw [isDissolving_push hparent, if_neg (Nat.ne_of_lt hj)]
    exact hmark

/-! ### Marking -/

/-- To mark attempts one after the other marks these and no others, and makes no anchors. -/
theorem flags_markAll (t : Trail) (ids : List Nat) (j : Nat) :
    let u := ids.foldl (fun t id => t.update id fun a => { a with dissolving := true }) t
    u.isAnchor = t.isAnchor ∧
      (u.isDissolving j = true ↔ t.isDissolving j = true ∨ j ∈ ids ∧ j < t.size) := by
  -- By induction on the attempts to mark, of which each is marked by one update.
  induction ids generalizing t with
  | nil => exact ⟨rfl, by simp⟩
  | cons id ids ih =>
    obtain ⟨hanchor, hdissolving⟩ := ih (t.update id fun a => { a with dissolving := true })
    refine ⟨hanchor.trans (isAnchor_update t id fun _ => rfl), hdissolving.trans ?_⟩
    have hmark : (t.update id fun a => { a with dissolving := true }).isDissolving j = true ↔
        t.isDissolving j = true ∨ j = id ∧ j < t.size := by
      rw [isDissolving, isDissolving, get?_update]
      by_cases hid : id = j
      · subst hid
        rcases hget : t.get? id with _ | a
        · rw [get?_eq_none_iff] at hget
          simp [Nat.not_lt.mpr hget]
        · have hlt : id < t.size := by
            rw [← Nat.not_le, ← get?_eq_none_iff, hget]
            exact Option.some_ne_none a
          simp [hlt]
      · rw [if_neg hid]
        simp [Ne.symm hid]
    rw [hmark, size_update, List.mem_cons, or_and_right, or_assoc]

/-- To dissolve up to an anchor makes no anchors. -/
theorem isAnchor_dissolveToAnchor (t : Trail) (id : Nat) :
    (t.dissolveToAnchor id).isAnchor = t.isAnchor :=
  (flags_markAll t _ 0).1

/-- It marks what stands above the attempt and below the nearest anchor. -/
theorem isDissolving_dissolveToAnchor (t : Trail) (id j : Nat) :
    (t.dissolveToAnchor id).isDissolving j = true ↔ t.isDissolving j = true ∨
      j ∈ (t.ancestors id).takeWhile (!t.isAnchor ·) ∧ j < t.size :=
  (flags_markAll t _ j).2

/-- What was marked before stays marked. -/
theorem Marked.dissolveToAnchor (t : Trail) (id : Nat) : t.Marked (t.dissolveToAnchor id) where
  size_le := Nat.le_of_eq (sameStarts_dissolveToAnchor t id).size.symm
  isAnchor j _ := by rw [isAnchor_dissolveToAnchor]
  isDissolving j _ hmark := (isDissolving_dissolveToAnchor t id j).mpr (.inl hmark)

/-- Anchors are not marked. -/
theorem isDissolving_dissolveToAnchor_of_isAnchor (id : Nat) (hanchor : t.isAnchor j = true) :
    (t.dissolveToAnchor id).isDissolving j = t.isDissolving j := by
  rw [Bool.eq_iff_iff, isDissolving_dissolveToAnchor, or_iff_left_iff_imp]
  rintro ⟨hmem, -⟩
  have hnot := List.all_eq_true.mp List.all_takeWhile j hmem
  simp [hanchor] at hnot

/-! ### Ways to an anchor -/

namespace GivesWay

/-- What is below an attempt has no part in the way up from it. -/
theorem mono (h : t.GivesWay a q) (hlinked : t.Linked) (hsize : q < t.size) (hmarked : t.Marked u)
    (hparent : ∀ j ≤ q, u.parent? j = t.parent? j) : u.GivesWay a q := by
  induction h with
  | anchor hanchor => exact .anchor ((hmarked.isAnchor a hsize).trans hanchor)
  | @up q p hmark hp _ ih =>
    have hlt : p < q := hlinked.parent_lt p q hp
    exact .up (hmarked.isDissolving q hsize hmark) ((hparent q (Nat.le_refl q)).trans hp)
      (ih (Nat.lt_trans hlt hsize) fun j hj => hparent j (Nat.le_trans hj (Nat.le_of_lt hlt)))

end GivesWay

/-- Going up, all is marked until an anchor comes. -/
theorem givesWay_of_climbs {ids : List Nat} (h : t.Climbs (some p) ids)
    (hmarks : ∀ j ∈ ids.takeWhile (!t.isAnchor ·), u.isDissolving j = true)
    (hanchor : u.isAnchor = t.isAnchor) (hparent : u.parent? = t.parent?)
    (hexists : ∃ x ∈ ids, t.isAnchor x = true) :
    u.GivesWay ((ids.find? t.isAnchor).getD 0) p := by
  generalize hp : some p = parent? at h
  induction h generalizing p with
  | top => cases hp
  | @up id path hclimbs ih =>
    cases hp
    by_cases hid : t.isAnchor id = true
    · rw [List.find?_cons_of_pos hid, Option.getD_some]
      exact .anchor (hanchor ▸ hid)
    · have hmark := hmarks id (by
        rw [List.takeWhile_cons_of_pos (by simp [hid])]
        exact List.mem_cons_self)
      obtain ⟨x, hx, hxanchor⟩ := hexists
      have hxpath : x ∈ path := by
        rcases List.mem_cons.mp hx with rfl | hmem
        · exact absurd hxanchor hid
        · exact hmem
      -- There is an anchor further up, and so there is a parent.
      obtain ⟨q, hq⟩ : ∃ q, t.parent? id = some q := by
        rcases hparent : t.parent? id with _ | q
        · rw [hparent] at hclimbs
          cases hclimbs
          cases hxpath
        · exact ⟨q, rfl⟩
      rw [List.find?_cons_of_neg hid]
      refine .up hmark (hparent ▸ hq) (ih (fun j hj => hmarks j ?_) ⟨x, hxpath, hxanchor⟩ hq.symm)
      rw [List.takeWhile_cons_of_pos (by simp [hid])]
      exact List.mem_cons_of_mem _ hj

/-- After marking, all that is between an attempt and the nearest anchor above it is to be
dissolved. -/
theorem Linked.givesWay_dissolveToAnchor (h : t.Linked) (hroot : t.isAnchor 0 = true)
    (hreach : t.Reaches 0 p) (hparent : t.parent? id = some p) :
    (t.dissolveToAnchor id).GivesWay (t.nearestAnchor id) p := by
  obtain ⟨-, -, hparents⟩ := marked_dissolveToAnchor t id
  have hclimbs := h.climbs_ancestors id
  have hmem : 0 ∈ t.ancestors id := by
    have hself := h.mem_self_or_ancestors.mpr (hreach.child ((h.mem_children_iff p id).mpr hparent))
    have hpos := h.parent_lt p id hparent
    rcases List.mem_cons.mp hself with hzero | hmem
    · exact absurd hpos (hzero ▸ Nat.not_lt_zero p)
    · exact hmem
  rw [hparent] at hclimbs
  refine givesWay_of_climbs hclimbs (fun j hj => ?_) (isAnchor_dissolveToAnchor t id) hparents
    ⟨0, hmem, hroot⟩
  have hbelow := List.mem_cons_of_mem id ((List.takeWhile_prefix _).subset hj)
  have hle := (h.mem_self_or_ancestors.mp hbelow).le h
  have hid : id < t.size := lt_size_of_parent? hparent
  exact (isDissolving_dissolveToAnchor t id j).mpr (.inr ⟨hj, Nat.lt_of_le_of_lt hle hid⟩)

/-- The way up from an attempt does not depend on what is younger. -/
theorem Linked.chain_congr (h : t.Linked) {parent? : Option Nat}
    (hparent? : ∀ p, parent? = some p → p ≤ id)
    (hbelow : ∀ j ≤ id, u.parent? j = t.parent? j) (n : Nat) :
    u.chain n parent? = t.chain n parent? := by
  induction n generalizing parent? with
  | zero => rfl
  | succ n ih =>
    rcases parent? with _ | p
    · rfl
    · have hp := hparent? p rfl
      rw [chain, chain, hbelow p hp, ih]
      intro q hq
      exact Nat.le_trans (Nat.le_of_lt (h.parent_lt q p hq)) hp

/-- The nearest anchor is told by the ways up and by the anchors on them. -/
theorem Linked.nearestAnchor_congr (h : t.Linked) (hsize : u.size = t.size)
    (hanchor : u.isAnchor = t.isAnchor) (hbelow : ∀ j ≤ id, u.parent? j = t.parent? j) :
    u.nearestAnchor id = t.nearestAnchor id := by
  rw [nearestAnchor, nearestAnchor, ancestors, ancestors, hsize, hanchor,
    hbelow id (Nat.le_refl id), h.chain_congr (fun p hp => Nat.le_of_lt (h.parent_lt p id hp)) hbelow]

/-- To close an attempt moves no anchor. -/
theorem Linked.nearestAnchor_close (h : t.Linked) (stop : Nat) (failed : Bool) :
    (t.close id stop failed).nearestAnchor id = t.nearestAnchor id :=
  h.nearestAnchor_congr (sameStarts_close t id stop failed).size (flags_close t id stop failed).1
    fun j _ => by rw [parent?_close]

/-- Neither do marks. -/
theorem Linked.nearestAnchor_dissolveToAnchor (h : t.Linked) :
    (t.dissolveToAnchor id).nearestAnchor id = t.nearestAnchor id := by
  obtain ⟨-, -, hparent⟩ := marked_dissolveToAnchor t id
  exact h.nearestAnchor_congr (sameStarts_dissolveToAnchor t id).size
    (isAnchor_dissolveToAnchor t id) fun j _ => by rw [hparent]

/-- Neither does it to drop what stands below. -/
theorem Linked.nearestAnchor_clearChildren (h : t.Linked) :
    (t.clearChildren id).nearestAnchor id = t.nearestAnchor id := by
  refine h.nearestAnchor_congr (sameStarts_clearChildren t id).size (flags_clearChildren t id).1
    fun j hj => ?_
  rw [h.parent?_clearChildren, if_neg]
  exact fun hmem => Nat.not_lt.mpr hj (h.parent_lt_of_mem hmem)

end ParseTrail.Trail
