import ParseTrail.Proofs.Session.Labelled
import ParseTrail.Proofs.Trimming

/-!
# Trails with one attempt below the root

If all attempts stand below a single one, and it failed, then a report shows it last, and names it
if none of the others starts after it.

- `Trail.children_zero_eq`: when the first attempt is the only one below the root;
- `Trail.Crowned`: a trail whose root has one child that failed and starts where the root does;
- `Trail.Crowned.getLast?_entriesOf`, `Report.headline?_eq`: what is reported of it.
-/

namespace ParseTrail

/-! ### The only child of the root -/

namespace Trail

variable {t : Trail} {x y : Nat} {label : String}

/-- A child of the root in progress is its only one, if those before it left nothing. -/
theorem children_zero_eq (h : t.Linked) (hordered : t.Ordered) (hedge : t.AtEdge 1)
    (hparent : t.parent? 1 = some 0) : t.children 0 = [1] := by
  obtain ⟨before, after, hsplit⟩ := List.append_of_mem ((h.mem_children_iff 0 1).mpr hparent)
  have holder := hordered 0
  have hlast := hedge 0
  rw [hsplit, List.pairwise_append] at holder hlast
  -- What is listed before it is older, and so is the root.
  have hbefore : before = [] := by
    refine List.eq_nil_iff_forall_not_mem.mpr fun c hc => ?_
    have hlt : c < 1 := holder.2.2 c hc 1 List.mem_cons_self c .refl
    have hpos : 0 < c := h.parent_lt_of_mem (hsplit ▸ List.mem_append_left _ hc)
    omega
  -- What is listed after it would take it from the edge.
  have hafter : after = [] := by
    refine List.eq_nil_iff_forall_not_mem.mpr fun c hc => ?_
    exact (List.pairwise_cons.mp hlast.2.1).1 c hc 1 .refl rfl
  rw [hsplit, hbefore, hafter, List.nil_append]

/-- Below the root there is one failed attempt with a label, which starts where the root does, with
all others below it. -/
structure Crowned (t : Trail) (label : String) (x : Nat) : Prop where
  linked : t.Linked
  children : t.children 0 = [x]
  failedAt : t.failedAt x = true
  labelOf? : t.labelOf? x = some label
  startOf : t.startOf x = t.startOf 0

/-- The only attempt below the root fails. -/
theorem crowned_close (h : t.Linked) (hchildren : t.children 0 = [x])
    (hlabel : t.labelOf? x = some label) (hstart : t.startOf x = t.startOf 0) (stop : Nat) :
    (t.close x stop true).Crowned label x where
  linked := h.close x stop true
  children := (congrFun (children_close t x stop true) 0).trans hchildren
  failedAt :=
    failedAt_close (h.lt_size_of_mem (hchildren ▸ List.mem_singleton_self x)) stop true
  labelOf? := (congrFun (labelOf?_close t x stop true) x).trans hlabel
  startOf := by rw [startOf_close, hstart]

namespace Crowned

variable (h : t.Crowned label x)

include h

theorem mem_children : x ∈ t.children 0 := by
  rw [h.children]
  exact List.mem_singleton_self x

theorem parent? : t.parent? x = some 0 :=
  (h.linked.mem_children_iff 0 x).mp h.mem_children

theorem pos : 0 < x :=
  h.linked.parent_lt 0 x h.parent?

theorem lt_size : x < t.size :=
  lt_size_of_parent? h.parent?

theorem size : 0 < t.size :=
  Nat.zero_lt_of_lt h.lt_size

/-- It may lose its children. -/
theorem clearChildren : (t.clearChildren x).Crowned label x where
  linked := h.linked.clearChildren h.lt_size
  children := by
    rw [children_clearChildren h.lt_size, if_neg (Nat.ne_of_lt h.pos), h.children]
  failedAt := (failedAt_congr (congrFun (extent?_clearChildren t x) x)).trans h.failedAt
  labelOf? := (congrFun (labelOf?_clearChildren t x) x).trans h.labelOf?
  startOf := by rw [(sameStarts_clearChildren t x).startOf, h.startOf]

/-- The only child of the root is an attempt that failed at its start. -/
theorem exists_attempt :
    ∃ a, t.get? x = some a ∧ a.failed = true ∧ a.label = label ∧ a.span.start = t.startOf 0 := by
  obtain ⟨a, ha⟩ : ∃ a, t.get? x = some a := ⟨_, Array.getElem?_eq_getElem h.lt_size⟩
  have hfailed := h.failedAt
  have hlabel := h.labelOf?
  have hstart := h.startOf
  rw [Trail.failedAt, ha] at hfailed
  rw [Trail.labelOf?, ha] at hlabel
  rw [Trail.startOf, ha] at hstart
  exact ⟨a, ha, hfailed, Option.some.inj hlabel, hstart⟩

/-- All that can be reached, apart from the root, is reached from that child. -/
theorem mem_preOrder_tail_iff : y ∈ t.preOrder.tail ↔ t.Reaches x y := by
  rw [h.linked.mem_preOrder_tail h.size, ← h.linked.reaches_zero_and_ne_iff, h.children]
  simp

/-- Some attempt that starts furthest is below it. -/
theorem exists_mem_atFurthest : ∃ y ∈ t.atFurthest, t.Reaches x y := by
  obtain ⟨y, hy, hstart⟩ := exists_startOf_eq_furthestStart h.size
  rcases Reaches.head_iff.mp ((h.linked.mem_preOrder h.size).mp hy) with rfl | ⟨c, hc, hreach⟩
  · -- If it is the root, then the child of the root starts there, too.
    exact ⟨x, mem_atFurthest.mpr ⟨h.mem_preOrder_tail_iff.mpr .refl, h.startOf.trans hstart⟩, .refl⟩
  · rw [h.children, List.mem_singleton] at hc
    rw [hc] at hreach
    exact ⟨y, mem_atFurthest.mpr ⟨h.mem_preOrder_tail_iff.mpr hreach, hstart⟩, hreach⟩

/-- That child is a culprit: whatever starts furthest is reached from it. -/
theorem culprit : t.Culprit x := by
  obtain ⟨y, hy, hreach⟩ := h.exists_mem_atFurthest
  exact ⟨h.mem_preOrder_tail_iff.mpr .refl, h.failedAt, y, hy,
    h.linked.mem_self_or_ancestors.mpr hreach⟩

/-! ### Its place in a report -/

/-- The walk with children first meets it last. -/
theorem exists_postOrder_eq : ∃ ids, t.postOrder = ids ++ [x] := by
  have hlt := h.lt_size
  have hpos := h.pos
  obtain ⟨n, hn⟩ : ∃ n, t.size = n + 1 + 1 := ⟨t.size - 2, by omega⟩
  rw [postOrder, hn, postOrderFrom, List.dropLast_concat, h.children, List.flatMap_singleton,
    postOrderFrom]
  exact ⟨_, rfl⟩

/-- Among attempts listed in the order of this walk, each at most once, it comes last. -/
theorem getLast?_of_sublist {ids : List Nat} (hids : ids.Sublist t.postOrder) (hx : x ∈ ids) :
    ids.getLast? = some x := by
  obtain ⟨walked, hwalk⟩ := h.exists_postOrder_eq
  have hnodup := (List.nodup_cons.mp ((perm_postOrder h.size).nodup_iff.mpr
    (h.linked.nodup_preOrder h.size))).2
  rw [hwalk] at hids hnodup
  obtain ⟨first, last, rfl, hfirst, hlast⟩ := List.sublist_append_iff.mp hids
  rcases List.sublist_singleton.mp hlast with rfl | rfl
  · -- The walk meets it once, at its end, and so not before.
    rw [List.append_nil] at hx
    have hdisjoint := (List.nodup_append.mp hnodup).2.2 x (hfirst.subset hx) x
      (List.mem_singleton_self x)
    exact absurd rfl hdisjoint
  · exact List.getLast?_concat

/-- It is shown last. -/
theorem getLast?_entriesOf {a : Attempt} (ha : t.get? x = some a) :
    (Report.entriesOf t).getLast? = some (Report.entryOf a) := by
  obtain ⟨ids, haround, hshows⟩ := Report.shows_entriesOf h.linked h.size
  have hmem : x ∈ ids := by
    obtain ⟨y, hy, hreach⟩ := h.exists_mem_atFurthest
    exact (haround.mem_iff x).mpr ⟨.of_child h.mem_children .refl, Nat.ne_of_gt h.pos, y, hreach,
      (mem_atFurthest.mp hy).2⟩
  have hlast := h.getLast?_of_sublist haround.sublist hmem
  have hentry := congrArg List.getLast? hshows
  rw [List.getLast?_map, List.getLast?_map, hlast, Option.map_some, ha, Option.map_some] at hentry
  obtain ⟨e, he, heq⟩ := Option.map_eq_some_iff.mp hentry
  rw [he, Option.some.inj heq]

end Crowned

/-- What is below an attempt is deeper than it. -/
theorem Reaches.depth_lt (h : t.Linked) (hreach : t.Reaches x y) (hne : y ≠ x) :
    t.depth x < t.depth y := by
  induction hreach with
  | refl => exact absurd rfl hne
  | @child j c _ hc ih =>
    rw [h.depth_of_parent? ((h.mem_children_iff j c).mp hc)]
    by_cases hj : j = x
    · rw [hj]
      exact Nat.lt_succ_self _
    · exact Nat.lt_succ_of_lt (ih hj)

end Trail

/-! ### The headline -/

namespace Report

variable {t : Trail} {line : Line} {report : Report} {x : Nat} {label : String}

/-- An attempt with all others below it is the best of them. -/
theorem foldl_preferred_eq {ids : List Nat} {best? : Option Nat} (hx : best? = some x ∨ x ∈ ids)
    (hbest : ∀ y, best? = some y → y = x ∨ t.depth x < t.depth y)
    (hids : ∀ y ∈ ids, y = x ∨ t.depth x < t.depth y) :
    ids.foldl (preferred t) best? = some x := by
  -- By induction on the attempts left: the best so far is this one, or this one is yet to come.
  induction ids generalizing best? with
  | nil => exact hx.resolve_right List.not_mem_nil
  | cons y ids ih =>
    obtain ⟨hy, hids⟩ := List.forall_mem_cons.mp hids
    refine ih ?_ (fun z hz => ?_) hids
    · rcases hx with rfl | hmem
      · have hkeeps : outranks t y x = false := by
          rcases hy with rfl | hlt
          · simp [outranks]
          · simp [outranks, Nat.not_lt_of_lt hlt, Nat.ne_of_gt hlt]
        exact .inl (by rw [preferred, if_neg (by simp [hkeeps])])
      · rcases List.mem_cons.mp hmem with rfl | hmem
        · -- It comes now, and replaces what was best so far.
          rcases best? with _ | z
          · exact .inl rfl
          · rcases hbest z rfl with rfl | hlt
            · exact .inl (by rw [preferred, ite_self])
            · exact .inl (by rw [preferred, if_pos (by simp [outranks, hlt])])
        · exact .inr hmem
    · rcases preferred_eq t best? y with heq | heq
      · exact hbest z (heq ▸ hz)
      · rw [heq, Option.some.injEq] at hz
        exact hz ▸ hy

/-- If the parse got no further than its start, the headline is the label below the root. -/
theorem headline?_eq (h : t.Crowned label x) (hfurthest : t.furthestStart = t.startOf 0) :
    headline? t = some label := by
  obtain ⟨a, ha, -, rfl, -⟩ := h.exists_attempt
  have hbest : headline? t = (((t.atFurthest.filter fun id => (t.get? id).any (·.failed)).foldl
      (preferred t) none).bind t.get?).map (·.label) := rfl
  have hfold : (t.atFurthest.filter fun id => (t.get? id).any (·.failed)).foldl (preferred t) none =
      some x := by
    -- The attempt is a candidate itself, and all others stand below it.
    refine foldl_preferred_eq (.inr ?_) (fun y hy => nomatch hy) fun y hy => ?_
    · rw [List.mem_filter, Trail.mem_atFurthest, h.mem_preOrder_tail_iff]
      exact ⟨⟨.refl, h.startOf.trans hfurthest.symm⟩, h.failedAt⟩
    · have hreach := h.mem_preOrder_tail_iff.mp
        (Trail.mem_atFurthest.mp (List.mem_filter.mp hy).1).1
      by_cases hne : y = x
      · exact .inl hne
      · exact .inr (hreach.depth_lt h.linked hne)
  rw [hbest, hfold, Option.bind_some, ha, Option.map_some]

end Report

end ParseTrail
