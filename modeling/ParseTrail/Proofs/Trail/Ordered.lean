import ParseTrail.Proofs.Trail.Nested
import ParseTrail.Proofs.Trail.Walks

/-!
# Trails in order

Attempts are numbered in the order in which they are made. A trail is in order if the walk with
parents first meets them in that order: then whatever one child leads to was made before the next
child. New attempts are only opened at the edge of the trail, below an attempt that stands last
wherever it stands, and this keeps the order, as does every way of taking attempts away.

- `Ordered.pairwise_preOrder`: the walk with parents first goes up in numbers;
- `Siblings.push`, `Siblings.dissolve`, `Siblings.clearChildren`: what an operation keeps between an
  attempt and those listed after it;
- `AtEdge.above`: the attempts above one at the edge are at the edge.
-/

namespace ParseTrail.Trail

variable {t u : Trail} {Q : Nat → Nat → Prop} {id parent c d j x : Nat}

/-- Whatever a child leads to stands in a relation to each child listed after it. -/
def Siblings (t : Trail) (Q : Nat → Nat → Prop) : Prop :=
  ∀ parent, (t.children parent).Pairwise fun c d => ∀ j, t.Reaches c j → Q j d

/-- Whatever a child leads to is older than the children listed after it. -/
def Ordered (t : Trail) : Prop :=
  t.Siblings (· < ·)

/-- No child that has another after it leads to `x`. -/
def AtEdge (t : Trail) (x : Nat) : Prop :=
  t.Siblings fun j _ => j ≠ x

/-- The walk with parents first meets attempts in the order in which they were made. -/
theorem Ordered.pairwise_preOrder (h : t.Ordered) (hlinked : t.Linked) (hsize : 0 < t.size) :
    t.preOrder.Pairwise (· < ·) := by
  refine hlinked.pairwise_preOrderFrom ?_ ?_ hsize (by omega)
  · intro p c j hc hreach
    exact Nat.lt_of_lt_of_le (hlinked.parent_lt_of_mem hc) (hreach.le hlinked)
  · intro p
    refine (h p).imp ?_
    intro c d hlt j k hj hk
    exact Nat.lt_of_lt_of_le (hlt j hj) (hk.le hlinked)

/-- The attempt above one at the edge is at the edge. -/
theorem AtEdge.above (h : t.AtEdge id) (hid : id ∈ t.children parent) : t.AtEdge parent := by
  intro p
  refine (h p).imp ?_
  rintro c d hedge j hj rfl
  exact hedge id (hj.child hid) rfl

/-! ### What leads where after each operation -/

/-- What an attempt leads to is told by the children. -/
theorem reaches_of_children_eq (h : u.children = t.children) : u.Reaches x j ↔ t.Reaches x j := by
  have hsub {t u : Trail} (h : u.children = t.children) (hreach : u.Reaches x j) :
      t.Reaches x j := by
    induction hreach with
    | refl => exact .refl
    | child _ hc ih => exact ih.child (h ▸ hc)
  exact ⟨hsub h, hsub h.symm⟩

/-- The new attempt is reached through its parent. -/
theorem reaches_push (hparent : parent < t.size) {offset : Nat} {label : String} {anchor : Bool}
    (hreach : (t.push parent offset label anchor).2.Reaches x j) :
    t.Reaches x j ∨ j = t.size ∧ t.Reaches x parent := by
  induction hreach with
  | refl => exact .inl .refl
  | @child j c _ hc ih =>
    rw [children_push hparent] at hc
    have hleaf : c ∉ t.children t.size := by
      rw [children_eq_nil (Nat.le_refl _)]
      exact List.not_mem_nil
    rcases ih with hj | ⟨rfl, hj⟩
    · split at hc
      · next hp =>
        subst hp
        rcases List.mem_append.mp hc with hc | hc
        · exact .inl (hj.child hc)
        · exact .inr ⟨List.mem_singleton.mp hc, hj⟩
      · exact .inl (hj.child hc)
    · -- Nothing is listed below the new attempt.
      rw [if_neg (by omega)] at hc
      exact absurd hc hleaf

/-- Fewer children lead to nothing new. -/
theorem reaches_of_reaches_clearChildren (hid : id < t.size)
    (hreach : (t.clearChildren id).Reaches x j) : t.Reaches x j := by
  induction hreach with
  | refl => exact .refl
  | child _ hc ih =>
    rw [children_clearChildren hid] at hc
    split at hc
    · cases hc
    · exact ih.child hc

/-- Dissolving an attempt makes ways shorter, and no new ones. -/
theorem reaches_of_reaches_dissolve (hlinked : t.Linked)
    (hreach : (t.dissolve id).Reaches x j) : t.Reaches x j := by
  cases hparent : t.parent? id with
  | none =>
    rw [dissolve, hparent] at hreach
    exact hreach
  | some parent =>
    obtain ⟨before, after, hsplit, hchildren, -⟩ := links_dissolve hlinked hparent
    have hid : id ∈ t.children parent := (hlinked.mem_children_iff _ _).mpr hparent
    -- A step of the way was there before, or it passes over the dissolved attempt.
    induction hreach with
    | refl => exact .refl
    | @child j c _ hc ih =>
      rw [hchildren] at hc
      split at hc
      · next hp =>
        subst hp
        rcases List.mem_append.mp hc with hc | hc
        · exact ih.child (hsplit ▸ List.mem_append_left _ hc)
        · rcases List.mem_append.mp hc with hc | hc
          · exact (ih.child hid).child hc
          · exact ih.child (hsplit ▸ List.mem_append_right _ (List.mem_cons_of_mem _ hc))
      · split at hc
        · cases hc
        · exact ih.child hc

/-! ### Operations keep the order -/

namespace Siblings

/-- What siblings lead to is told by the children, too. -/
theorem of_children_eq (h : t.Siblings Q) (hchildren : u.children = t.children) : u.Siblings Q := by
  intro p
  rw [hchildren]
  refine (h p).imp ?_
  intro c d hQ j hj
  exact hQ j ((reaches_of_children_eq hchildren).mp hj)

/-- To close an attempt leaves all children. -/
theorem close (h : t.Siblings Q) (id stop : Nat) (failed : Bool) :
    (t.close id stop failed).Siblings Q :=
  h.of_children_eq (children_close t id stop failed)

/-- So do marks. -/
theorem dissolveToAnchor (h : t.Siblings Q) (id : Nat) : (t.dissolveToAnchor id).Siblings Q :=
  h.of_children_eq (marked_dissolveToAnchor t id).2.1

/-- Without some of its children an attempt has fewer siblings below it. -/
theorem clearChildren (h : t.Siblings Q) (hid : id < t.size) : (t.clearChildren id).Siblings Q := by
  intro p
  rw [children_clearChildren hid]
  split
  · exact .nil
  · refine (h p).imp ?_
    intro c d hQ j hj
    exact hQ j (reaches_of_reaches_clearChildren hid hj)

/-- Opening an attempt at the edge. It is listed last, and nothing that has another child after it
leads there. -/
theorem push (h : t.Siblings Q) (hlinked : t.Linked) (hparent : parent < t.size)
    (hedge : t.AtEdge parent) (hlast : ∀ j < t.size, Q j t.size) (offset : Nat) (label : String)
    (anchor : Bool) : (t.push parent offset label anchor).2.Siblings Q := by
  have hold (p : Nat) : (t.children p).Pairwise fun c d =>
      ∀ j, (t.push parent offset label anchor).2.Reaches c j → Q j d := by
    refine List.Pairwise.imp_of_mem ?_ ((h p).and (hedge p))
    rintro c d hc - ⟨hQ, hne⟩ j hj
    rcases reaches_push hparent hj with hj | ⟨-, hj⟩
    · exact hQ j hj
    · exact absurd rfl (hne parent hj)
  intro p
  rw [children_push hparent]
  split
  · rw [List.pairwise_append]
    refine ⟨hold parent, List.pairwise_singleton _ _, ?_⟩
    intro c hc d hd j hj
    rw [List.mem_singleton.mp hd]
    have hsize := hlinked.lt_size_of_mem hc
    -- A child of the parent leads only to what was there before.
    rcases reaches_push hparent hj with hj | ⟨-, hj⟩
    · exact hlast j (hj.lt_size hlinked hsize)
    · have hlt := hlinked.parent_lt_of_mem hc
      have hle := hj.le hlinked
      omega
  · exact hold p

/-- Dissolving an attempt, if its children may stand where it stands. -/
theorem dissolve (h : t.Siblings Q) (hlinked : t.Linked)
    (hdown : ∀ j, ∀ c ∈ t.children id, Q j id → Q j c) : (t.dissolve id).Siblings Q := by
  cases hparent : t.parent? id with
  | none =>
    rw [Trail.dissolve, hparent]
    exact h
  | some parent =>
    obtain ⟨before, after, hsplit, hchildren, -⟩ := links_dissolve hlinked hparent
    have hlist := h parent
    rw [hsplit, List.pairwise_append, List.pairwise_cons] at hlist
    obtain ⟨hbefore, ⟨hid, hafter⟩, hacross⟩ := hlist
    intro p
    -- No way is new, so that what held of the old ways holds of those that are left.
    suffices hold : ((t.dissolve id).children p).Pairwise fun c d => ∀ j, t.Reaches c j → Q j d by
      refine hold.imp ?_
      intro c d hQ j hj
      exact hQ j (reaches_of_reaches_dissolve hlinked hj)
    rw [hchildren]
    split
    · rw [List.pairwise_append, List.pairwise_append]
      refine ⟨hbefore, ⟨h id, hafter, ?_⟩, ?_⟩
      · intro c hc d hd j hj
        exact hid d hd j (.of_child hc hj)
      · intro c hc d hd j hj
        rcases List.mem_append.mp hd with hd | hd
        · exact hdown j d hd (hacross c hc id List.mem_cons_self j hj)
        · exact hacross c hc d (List.mem_cons_of_mem _ hd) j hj
    · split
      · exact .nil
      · exact h p

end Siblings

/-! ### The order of a trail -/

/-- The root has no children yet. -/
theorem siblings_start (offset : Nat) (Q : Nat → Nat → Prop) : (start offset).Siblings Q := by
  intro parent
  rcases parent with _ | parent
  · exact .nil
  · exact .nil

/-- A new attempt is younger than all that is there, so that it may come last. -/
theorem Ordered.push (h : t.Ordered) (hlinked : t.Linked) (hparent : parent < t.size)
    (hedge : t.AtEdge parent) (offset : Nat) (label : String) (anchor : Bool) :
    (t.push parent offset label anchor).2.Ordered :=
  Siblings.push h hlinked hparent hedge (fun _ hj => hj) offset label anchor

/-- The attempt just opened is at the edge. -/
theorem AtEdge.push (h : t.AtEdge parent) (hlinked : t.Linked) (hparent : parent < t.size)
    (offset : Nat) (label : String) (anchor : Bool) :
    (t.push parent offset label anchor).2.AtEdge t.size := by
  have hold : t.Siblings fun j _ => j ≠ t.size := by
    intro p
    refine (h p).imp_of_mem ?_
    rintro c d hc - - j hj
    exact Nat.ne_of_lt (hj.lt_size hlinked (hlinked.lt_size_of_mem hc))
  exact Siblings.push hold hlinked hparent h (fun _ hj => Nat.ne_of_lt hj) offset label anchor

/-- Children in the place of their parent are in order with what comes after it. -/
theorem Ordered.dissolve (h : t.Ordered) (hlinked : t.Linked) : (t.dissolve id).Ordered :=
  Siblings.dissolve h hlinked fun _ _ hc hlt => Nat.lt_trans hlt (hlinked.parent_lt_of_mem hc)

/-- What was at the edge stays there. -/
theorem AtEdge.dissolve (h : t.AtEdge x) (hlinked : t.Linked) : (t.dissolve id).AtEdge x :=
  Siblings.dissolve h hlinked fun _ _ _ hne => hne

end ParseTrail.Trail
