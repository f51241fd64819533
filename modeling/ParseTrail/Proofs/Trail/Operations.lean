import ParseTrail.Proofs.Trail.Nested
import ParseTrail.Proofs.Trail.Walks

/-!
# Operations in any order

A trail is never written but through five operations, and they may be applied in any order, to
attempts within reach and to attempts that have been detached. Whatever they build is linked, so
that every walk over it comes to an end.

- `Operation.linked_apply`, `Linked.after`: one operation keeps a trail linked, and so do several;
- `operations_leave_walks_sound`: the links agree afterwards, and the walks end, having met every
  attempt within reach once and in order.
-/

namespace ParseTrail.Trail

/-- An operation on a trail. -/
inductive Operation where
  /-- Open an attempt below another. -/
  | push (parent offset : Nat) (label : String) (anchor : Bool)
  /-- Close an attempt. -/
  | close (id stop : Nat) (failed : Bool)
  /-- Drop the children of an attempt. -/
  | clearChildren (id : Nat)
  /-- Mark the attempts between another and the nearest anchor above it. -/
  | dissolveToAnchor (id : Nat)
  /-- Put the children of an attempt in its place. -/
  | dissolve (id : Nat)

namespace Operation

/-- The attempt that an operation is applied to. -/
def target : Operation → Nat
  | push parent _ _ _ => parent
  | close id _ _ => id
  | clearChildren id => id
  | dissolveToAnchor id => id
  | dissolve id => id

/-- The trail after an operation. -/
def apply : Operation → Trail → Trail
  | push parent offset label anchor, t => (t.push parent offset label anchor).2
  | close id stop failed, t => t.close id stop failed
  | clearChildren id, t => t.clearChildren id
  | dissolveToAnchor id, t => t.dissolveToAnchor id
  | dissolve id, t => t.dissolve id

variable {t : Trail}

/-- No operation removes an attempt from the arena. -/
theorem size_le_apply (o : Operation) (t : Trail) : t.size ≤ (o.apply t).size := by
  cases o with
  | push parent offset label anchor =>
    rw [apply, size_push]
    omega
  | close id stop failed => exact Nat.le_of_eq (sameStarts_close t id stop failed).size.symm
  | clearChildren id => exact Nat.le_of_eq (sameStarts_clearChildren t id).size.symm
  | dissolveToAnchor id => exact Nat.le_of_eq (sameStarts_dissolveToAnchor t id).size.symm
  | dissolve id => exact Nat.le_of_eq (sameStarts_dissolve t id).size.symm

/-- An operation on an attempt of a trail keeps the trail linked. -/
theorem linked_apply (o : Operation) (h : t.Linked) (htarget : o.target < t.size) :
    (o.apply t).Linked := by
  cases o with
  | push parent offset label anchor => exact h.push htarget offset label anchor
  | close id stop failed => exact h.close id stop failed
  | clearChildren id => exact h.clearChildren htarget
  | dissolveToAnchor id => exact h.dissolveToAnchor id
  | dissolve id => exact h.dissolve id

end Operation

/-- The trail after several operations, if each of them finds the attempt it is applied to. -/
def after : Trail → List Operation → Option Trail
  | t, [] => some t
  | t, o :: os => if o.target < t.size then (o.apply t).after os else none

/-- Operations that find their attempts keep a trail linked, and it keeps its attempts. -/
theorem Linked.after {t u : Trail} {os : List Operation} (h : t.Linked)
    (hu : t.after os = some u) : u.Linked ∧ t.size ≤ u.size := by
  induction os generalizing t with
  | nil =>
    cases hu
    exact ⟨h, Nat.le_refl _⟩
  | cons o os ih =>
    rw [Trail.after] at hu
    split at hu
    · next htarget =>
      obtain ⟨hlinked, hle⟩ := ih (o.linked_apply h htarget) hu
      exact ⟨hlinked, Nat.le_trans (o.size_le_apply t) hle⟩
    · cases hu

/-! ### What walks rely on, and what they give -/

/-- Child lists and parents say the same thing, with the root on top. -/
structure LinksAgree (t : Trail) : Prop where
  /-- The root has no parent. -/
  root : t.parent? 0 = none
  /-- An attempt is the parent of those it lists. -/
  parent_iff : ∀ p c, t.parent? c = some p ↔ c ∈ t.children p
  /-- What is listed is listed once. -/
  once : ∀ p, ∀ c ∈ t.children p, (t.children p).count c = 1
  /-- It is listed nowhere else. -/
  nowhere_else : ∀ p q, ∀ c ∈ t.children p, c ∈ t.children q → q = p
  /-- Parents are older than their children. -/
  older : ∀ p c, t.parent? c = some p → p < c

/-- The loops over a trail come to an end, and the walks tell what the loops give. -/
structure WalksEnd (t : Trail) : Prop where
  /-- Going up from an attempt gives those above it. -/
  climbs : ∀ id, t.Climbs (t.parent? id) (t.ancestors id)
  /-- Going down from the root gives the walk with parents first. -/
  descends : t.Descends [0] t.preOrder
  /-- Coming back up to the root gives the walk with children first, and then the root. -/
  ascends : t.Ascends [0] (t.postOrder ++ [0])
  /-- Copying never needs more levels than it has. -/
  copies : ∀ wanted n out, t.size ≤ n →
    t.copyWanted wanted n 0 0 out = t.copyWanted wanted t.size 0 0 out

/-- The walks meet what is within reach, once and in order. -/
structure WalksMeetOnce (t : Trail) : Prop where
  /-- The walk with parents first meets what the root leads to. -/
  mem_preOrder : ∀ id, id ∈ t.preOrder ↔ t.Reaches 0 id
  /-- It meets nothing twice. -/
  nodup_preOrder : t.preOrder.Nodup
  /-- It meets an attempt before its children. -/
  parents_first : ∀ p, t.Reaches 0 p → ∀ c ∈ t.children p, [p, c].Sublist t.preOrder
  /-- The walk with children first meets the same attempts, except the root. -/
  perm_postOrder : t.preOrder.Perm (0 :: t.postOrder)
  /-- It meets an attempt after its children. -/
  children_first : ∀ p, t.Reaches 0 p → p ≠ 0 → ∀ c ∈ t.children p, [c, p].Sublist t.postOrder

variable {t : Trail}

theorem Linked.linksAgree (h : t.Linked) : t.LinksAgree where
  root := by
    rcases hroot : t.parent? 0 with _ | p
    · rfl
    · exact absurd (h.parent_lt p 0 hroot) (Nat.not_lt_zero p)
  parent_iff p c := (h.mem_children_iff p c).symm
  once p c hc := (h.nodup_children p).count.trans (if_pos hc)
  nowhere_else p q c hp hq := by
    rw [h.mem_children_iff] at hp hq
    exact Option.some.inj (hq.symm.trans hp)
  older := h.parent_lt

theorem Linked.walksEnd (h : t.Linked) (hsize : 0 < t.size) : t.WalksEnd where
  climbs := h.climbs_ancestors
  descends := h.descends_preOrder hsize
  ascends := h.ascends_postOrder hsize
  copies wanted n out hn := h.copyWanted_eq wanted (by omega) (by omega) 0 out

theorem Linked.walksMeetOnce (h : t.Linked) (hsize : 0 < t.size) : t.WalksMeetOnce where
  mem_preOrder _ := h.mem_preOrder hsize
  nodup_preOrder := h.nodup_preOrder hsize
  parents_first _ hreach _ hc := h.sublist_preOrder hsize hreach hc
  perm_postOrder := (Trail.perm_postOrder hsize).symm
  children_first _ hreach hne _ hc := h.sublist_postOrder hsize hreach hne hc

/-- Whatever operations are applied to a new trail, in any order and to any of its attempts, child
lists and parents agree afterwards, all loops over the trail end, and the walks meet every attempt
within reach once, parents before children or children before parents. -/
theorem operations_leave_walks_sound (offset : Nat) (os : List Operation)
    (h : (start offset).after os = some t) :
    t.LinksAgree ∧ t.WalksEnd ∧ t.WalksMeetOnce := by
  obtain ⟨hlinked, hsize⟩ := (linked_start offset).after h
  exact ⟨hlinked.linksAgree, hlinked.walksEnd hsize, hlinked.walksMeetOnce hsize⟩

/-- Operations on attempts within reach and on detached ones: 2 and 3 come to stand below the root
in the place of 1 and are then dropped, 5 is opened below 2 and dissolved, and only 6 and 7 are
opened within reach. -/
def detours : List Operation :=
  [.push 0 0 "a" false, .push 1 0 "b" false, .push 1 1 "c" true, .push 3 1 "d" false,
    .dissolveToAnchor 4, .dissolve 1, .dissolve 1, .clearChildren 0, .push 2 1 "e" false,
    .close 2 4 true, .dissolve 5, .dissolve 2, .push 0 2 "f" false, .push 6 2 "g" false,
    .dissolve 0, .close 6 3 false]

/-- They apply, and the walks over what they leave are sound. -/
theorem operations_leave_walks_sound_detours :
    ∃ t, (start 0).after detours = some t ∧ t.preOrder = [0, 6, 7] ∧ t.postOrder = [7, 6] ∧
      t.children 3 = [4] ∧ t.LinksAgree ∧ t.WalksEnd ∧ t.WalksMeetOnce := by
  obtain ⟨t, ht⟩ : ∃ t, (start 0).after detours = some t := Option.isSome_iff_exists.mp (by decide)
  have hwalks : ((start 0).after detours).map
      (fun t => (t.preOrder, t.postOrder, t.children 3)) = some ([0, 6, 7], [7, 6], [4]) := by
    decide
  rw [ht, Option.map_some, Option.some.injEq, Prod.mk.injEq, Prod.mk.injEq] at hwalks
  exact ⟨t, ht, hwalks.1, hwalks.2.1, hwalks.2.2, operations_leave_walks_sound 0 detours ht⟩

end ParseTrail.Trail
