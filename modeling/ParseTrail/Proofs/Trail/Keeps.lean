import ParseTrail.Proofs.Trail.Nested

/-!
# What recording keeps

While an attempt is in progress, only that attempt and those made for it are worked on. What was
there before keeps its extent and its parent, until the attempt is dissolved and after.

- `Opens.push`, `Opens.close`, `Opens.clearChildren`, `Opens.dissolveToAnchor`: what happens to an
  attempt in progress;
- `Opens.keeps_dissolve`: and at its end.
-/

namespace ParseTrail.Trail

variable {t u v : Trail} {parent : Nat}

/-- A trail keeps the attempts of another, up to what is listed below them. -/
structure Keeps (t u : Trail) : Prop where
  size_le : t.size ≤ u.size
  extent? : ∀ j < t.size, u.extent? j = t.extent? j
  parent? : ∀ j < t.size, u.parent? j = t.parent? j

/-- A trail keeps what it has. -/
theorem Keeps.refl (t : Trail) : t.Keeps t :=
  ⟨Nat.le_refl _, fun _ _ => rfl, fun _ _ => rfl⟩

/-- What is kept twice is kept. -/
theorem Keeps.trans (htu : t.Keeps u) (huv : u.Keeps v) : t.Keeps v where
  size_le := Nat.le_trans htu.size_le huv.size_le
  extent? j hj := (huv.extent? j (Nat.lt_of_lt_of_le hj htu.size_le)).trans (htu.extent? j hj)
  parent? j hj := (huv.parent? j (Nat.lt_of_lt_of_le hj htu.size_le)).trans (htu.parent? j hj)

/-- The trail `u` has come from `t` by an attempt below `parent` and attempts made for it. -/
structure Opens (t u : Trail) (parent : Nat) : Prop where
  linked : u.Linked
  keeps : t.Keeps u
  parent? : u.parent? t.size = some parent

namespace Opens

/-- The attempt was opened below one that was there. -/
theorem parent_lt (h : t.Opens u parent) : parent < t.size :=
  h.linked.parent_lt _ _ h.parent?

/-- It is on the trail itself. -/
theorem lt_size (h : t.Opens u parent) : t.size < u.size :=
  lt_size_of_parent? h.parent?

/-- To add an attempt opens it. -/
theorem push (h : t.Linked) (hparent : parent < t.size) (offset : Nat) (label : String)
    (anchor : Bool) : t.Opens (t.push parent offset label anchor).2 parent where
  linked := h.push hparent offset label anchor
  keeps := by
    refine ⟨?_, fun j hj => ?_, fun j hj => ?_⟩
    · rw [size_push]
      exact Nat.le_succ _
    · rw [extent?_push, if_neg (Nat.ne_of_lt hj)]
    · rw [parent?_push hparent, if_neg (Nat.ne_of_lt hj)]
  parent? := by rw [parent?_push hparent, if_pos rfl]

/-- More is done for the attempt. -/
theorem mono (h : t.Opens u parent) (hv : v.Linked) (hkeeps : u.Keeps v) : t.Opens v parent where
  linked := hv
  keeps := h.keeps.trans hkeeps
  parent? := (hkeeps.parent? _ h.lt_size).trans h.parent?

/-- To close it leaves the attempts before. -/
theorem close (h : t.Opens u parent) (stop : Nat) (failed : Bool) :
    t.Opens (u.close t.size stop failed) parent where
  linked := h.linked.close _ _ _
  keeps := by
    refine ⟨?_, fun j hj => ?_, fun j hj => ?_⟩
    · rw [(sameStarts_close u t.size stop failed).size]
      exact h.keeps.size_le
    · rw [extent?_close_of_ne (Nat.ne_of_lt hj), h.keeps.extent? j hj]
    · rw [parent?_close, h.keeps.parent? j hj]
  parent? := by rw [parent?_close, h.parent?]

/-- So does it to drop what was made for it. -/
theorem clearChildren (h : t.Opens u parent) : t.Opens (u.clearChildren t.size) parent := by
  -- The children of the attempt are younger than it is, so that only they lose their parent.
  have hparent {j : Nat} (hj : j ≤ t.size) : (u.clearChildren t.size).parent? j = u.parent? j := by
    rw [h.linked.parent?_clearChildren, if_neg]
    exact fun hmem => Nat.not_lt.mpr hj (h.linked.parent_lt_of_mem hmem)
  refine ⟨h.linked.clearChildren h.lt_size, ⟨?_, fun j hj => ?_, fun j hj => ?_⟩, ?_⟩
  · rw [(sameStarts_clearChildren u t.size).size]
    exact h.keeps.size_le
  · rw [extent?_clearChildren, h.keeps.extent? j hj]
  · rw [hparent (Nat.le_of_lt hj), h.keeps.parent? j hj]
  · rw [hparent (Nat.le_refl _), h.parent?]

/-- Marks do not touch what is kept. -/
theorem dissolveToAnchor (h : t.Opens u parent) :
    t.Opens (u.dissolveToAnchor t.size) parent := by
  obtain ⟨hextent, -, hparent⟩ := marked_dissolveToAnchor u t.size
  refine ⟨h.linked.dissolveToAnchor _, ⟨?_, fun j hj => ?_, fun j hj => ?_⟩, ?_⟩
  · rw [(sameStarts_dissolveToAnchor u t.size).size]
    exact h.keeps.size_le
  · rw [hextent, h.keeps.extent? j hj]
  · rw [hparent, h.keeps.parent? j hj]
  · rw [hparent, h.parent?]

/-- Once the attempt is dissolved, its children are those of its parent. -/
theorem keeps_dissolve (h : t.Opens u parent) : t.Keeps (u.dissolve t.size) := by
  obtain ⟨-, -, -, -, hparents⟩ := links_dissolve h.linked h.parent?
  refine ⟨?_, fun j hj => ?_, fun j hj => ?_⟩
  · rw [(sameStarts_dissolve u t.size).size]
    exact h.keeps.size_le
  · rw [extent?_dissolve, h.keeps.extent? j hj]
  · have hmem : j ∉ u.children t.size := fun hmem =>
      Nat.lt_asymm hj (h.linked.parent_lt_of_mem hmem)
    rw [hparents, if_neg (Nat.ne_of_lt hj), if_neg hmem, h.keeps.parent? j hj]

end Opens

end ParseTrail.Trail
