import ParseTrail.Proofs.Trail.Linked

/-!
# Reach

What leads from one attempt to another. On a linked trail the walks are deep enough, so that they
meet just the attempts within reach, and going up from an attempt meets just those that reach it:

- `Linked.mem_preOrder`, `Linked.mem_postOrder`: what the walks list;
- `Linked.mem_self_or_ancestors`: an attempt and those above it.
-/

namespace ParseTrail.Trail

variable {t : Trail} {id c j x n m : Nat}

/-- Child lists lead from one attempt to another. -/
inductive Reaches (t : Trail) (x : Nat) : Nat → Prop
  | refl : Reaches t x x
  | child {j c : Nat} : Reaches t x j → c ∈ t.children j → Reaches t x c

namespace Reaches

/-- Ways down go on from each other. -/
theorem trans (hxj : t.Reaches x j) (hjc : t.Reaches j c) : t.Reaches x c := by
  induction hjc with
  | refl => exact hxj
  | child _ hc ih => exact ih.child hc

/-- What a child leads to its parent leads to. -/
theorem of_child (hc : c ∈ t.children x) (h : t.Reaches c j) : t.Reaches x j :=
  (refl.child hc).trans h

/-- The first step of the way. -/
theorem head_iff : t.Reaches x j ↔ j = x ∨ ∃ c ∈ t.children x, t.Reaches c j := by
  constructor
  · intro h
    induction h with
    | refl => exact .inl rfl
    | child _ hc ih =>
      rcases ih with rfl | ⟨c, hmem, hreach⟩
      · exact .inr ⟨_, hc, .refl⟩
      · exact .inr ⟨c, hmem, hreach.child hc⟩
  · rintro (rfl | ⟨c, hc, h⟩)
    · exact .refl
    · exact of_child hc h

/-- Ways lead from older attempts to younger ones. -/
theorem le (h : t.Linked) (hreach : t.Reaches x j) : x ≤ j := by
  induction hreach with
  | refl => exact Nat.le_refl _
  | child _ hc ih => exact Nat.le_trans ih (Nat.le_of_lt (h.parent_lt_of_mem hc))

/-- They do not lead off the trail. -/
theorem lt_size (h : t.Linked) (hx : x < t.size) (hreach : t.Reaches x j) : j < t.size := by
  cases hreach with
  | refl => exact hx
  | child _ hc => exact h.lt_size_of_mem hc

end Reaches

/-! ### Walks -/

/-- Below a level that no attempt is on, there are no children. -/
theorem children_eq_nil (hid : t.size ≤ id) : t.children id = [] := by
  rw [children, get?_eq_none_iff.mpr hid]
  rfl

namespace Linked

/-- A walk that goes down far enough meets what is within reach. -/
theorem mem_preOrderFrom (h : t.Linked) (hid : id < t.size) (hn : t.size ≤ id + n) :
    j ∈ t.preOrderFrom n id ↔ t.Reaches id j := by
  -- By induction on the levels left. Children are younger, so each level needs one less.
  induction n generalizing id with
  | zero => omega
  | succ n ih =>
    rw [preOrderFrom, List.mem_cons, List.mem_flatMap, Reaches.head_iff]
    have hchild {c : Nat} (hc : c ∈ t.children id) :
        j ∈ t.preOrderFrom n c ↔ t.Reaches c j := by
      have hlt := h.parent_lt_of_mem hc
      exact ih (h.lt_size_of_mem hc) (by omega)
    constructor
    · rintro (hj | ⟨c, hc, hj⟩)
      · exact .inl hj
      · exact .inr ⟨c, hc, (hchild hc).mp hj⟩
    · rintro (hj | ⟨c, hc, hj⟩)
      · exact .inl hj
      · exact .inr ⟨c, hc, (hchild hc).mpr hj⟩

/-- The walk with children first meets just what the attempt leads to. -/
theorem mem_postOrderFrom (h : t.Linked) (hid : id < t.size) (hn : t.size ≤ id + n) :
    j ∈ t.postOrderFrom n id ↔ t.Reaches id j := by
  induction n generalizing id with
  | zero => omega
  | succ n ih =>
    rw [postOrderFrom, List.mem_append, List.mem_flatMap, List.mem_singleton, or_comm,
      Reaches.head_iff]
    have hchild {c : Nat} (hc : c ∈ t.children id) :
        j ∈ t.postOrderFrom n c ↔ t.Reaches c j := by
      have hlt := h.parent_lt_of_mem hc
      exact ih (h.lt_size_of_mem hc) (by omega)
    constructor
    · rintro (hj | ⟨c, hc, hj⟩)
      · exact .inl hj
      · exact .inr ⟨c, hc, (hchild hc).mp hj⟩
    · rintro (hj | ⟨c, hc, hj⟩)
      · exact .inl hj
      · exact .inr ⟨c, hc, (hchild hc).mpr hj⟩

/-- The walk with parents first meets what can be reached from the root. -/
theorem mem_preOrder (h : t.Linked) (hsize : 0 < t.size) :
    j ∈ t.preOrder ↔ t.Reaches 0 j :=
  h.mem_preOrderFrom hsize (by omega)

/-- Below the root there are its children and what they reach. -/
theorem reaches_zero_and_ne_iff (h : t.Linked) :
    (∃ c ∈ t.children 0, t.Reaches c j) ↔ t.Reaches 0 j ∧ j ≠ 0 := by
  rw [Reaches.head_iff]
  constructor
  · rintro ⟨c, hc, hj⟩
    have hlt := h.parent_lt_of_mem hc
    have hle := hj.le h
    exact ⟨.inr ⟨c, hc, hj⟩, by omega⟩
  · rintro ⟨hj | hj, hne⟩
    · exact absurd hj hne
    · exact hj

/-- After its start it meets all of that but the root. -/
theorem mem_preOrder_tail (h : t.Linked) (hsize : 0 < t.size) :
    j ∈ t.preOrder.tail ↔ t.Reaches 0 j ∧ j ≠ 0 := by
  obtain ⟨n, hn⟩ : ∃ n, t.size = n + 1 := ⟨t.size - 1, by omega⟩
  rw [preOrder, hn, preOrderFrom, List.tail_cons, List.mem_flatMap, ← h.reaches_zero_and_ne_iff]
  refine exists_congr fun c => and_congr_right fun hc => ?_
  have hlt := h.parent_lt_of_mem hc
  exact h.mem_preOrderFrom (h.lt_size_of_mem hc) (by omega)

/-- The walk with children first leaves out the root. -/
theorem mem_postOrder (h : t.Linked) (hsize : 0 < t.size) :
    j ∈ t.postOrder ↔ t.Reaches 0 j ∧ j ≠ 0 := by
  obtain ⟨n, hn⟩ : ∃ n, t.size = n + 1 := ⟨t.size - 1, by omega⟩
  rw [postOrder, hn, postOrderFrom, List.dropLast_concat, List.mem_flatMap,
    ← h.reaches_zero_and_ne_iff]
  refine exists_congr fun c => and_congr_right fun hc => ?_
  have hlt := h.parent_lt_of_mem hc
  exact h.mem_postOrderFrom (h.lt_size_of_mem hc) (by omega)

/-! ### Going up -/

/-- The way up from a parent meets all that leads there. -/
theorem mem_chain (h : t.Linked) {parent? : Option Nat} (hn : ∀ p, parent? = some p → p < n) :
    x ∈ t.chain n parent? ↔ ∃ p, parent? = some p ∧ t.Reaches x p := by
  induction n generalizing parent? with
  | zero =>
    refine ⟨fun hx => absurd hx List.not_mem_nil, ?_⟩
    rintro ⟨p, hp, -⟩
    exact absurd (hn p hp) (Nat.not_lt_zero p)
  | succ n ih =>
    rcases parent? with _ | p
    · refine ⟨fun hx => absurd hx List.not_mem_nil, ?_⟩
      rintro ⟨p, hp, -⟩
      cases hp
    · have hp : p < n + 1 := hn p rfl
      -- Parents are older, so the steps left are enough for the rest of the way up.
      rw [chain, List.mem_cons, ih fun q hq => by have := h.parent_lt q p hq; omega]
      constructor
      · rintro (rfl | ⟨q, hq, hreach⟩)
        · exact ⟨x, rfl, .refl⟩
        · exact ⟨p, rfl, hreach.child ((h.mem_children_iff q p).mpr hq)⟩
      · rintro ⟨_, ⟨⟩, hreach⟩
        -- The last step of the way down is the first of the way up.
        cases hreach with
        | refl => exact .inl rfl
        | child hreach hc => exact .inr ⟨_, (h.mem_children_iff _ _).mp hc, hreach⟩

/-- An attempt and those above it are those that reach it. -/
theorem mem_self_or_ancestors (h : t.Linked) : x ∈ j :: t.ancestors j ↔ t.Reaches x j := by
  have hbound (p : Nat) (hp : t.parent? j = some p) : p < t.size :=
    Nat.lt_trans (h.parent_lt p j hp) (lt_size_of_parent? hp)
  rw [List.mem_cons, ancestors, h.mem_chain hbound]
  constructor
  · rintro (rfl | ⟨p, hp, hreach⟩)
    · exact .refl
    · exact hreach.child ((h.mem_children_iff p j).mpr hp)
  · intro hreach
    cases hreach with
    | refl => exact .inl rfl
    | child hreach hc => exact .inr ⟨_, (h.mem_children_iff _ _).mp hc, hreach⟩

end Linked

end ParseTrail.Trail
