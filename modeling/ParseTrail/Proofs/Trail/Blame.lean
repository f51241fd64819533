import ParseTrail.Parser
import ParseTrail.Proofs.Report
import ParseTrail.Proofs.Trail.Forest

/-!
# Who is to blame

Whether a report names a failed attempt depends on where the attempts started that failed. A forest
is `Covered` from an offset on if whatever starts further starts no further than something that
failed or was made for an attempt that failed, and it `Blames` the mismatch on an attempt if its
outermost attempts include one that failed.

- `Covered.append`, `Blames.append`, `Blames.back`: how blame goes on as parsing goes on;
- `exists_culprit`: a forest that blames what is furthest holds a culprit.
-/

namespace ParseTrail

namespace Forest

/-- Whatever starts past an offset starts no further than something that is blamed. -/
def Covered (F : Forest) (offset : Nat) : Prop :=
  ∀ n ∈ F.starts, n ≤ offset ∨ ∃ m ∈ F.blamed, n ≤ m

/-- How a forest accounts for a mismatch that left the cursor at an offset. -/
structure Blames (F : Forest) (strict : Prop) (offset : Nat) : Prop where
  covered : strict → F.Covered offset
  exists_failure : ∃ n ∈ F.failures, strict → offset ≤ n

variable {F G : Forest} {strict : Prop} {first offset last : Nat}

theorem covered_nil (offset : Nat) : Covered nil offset :=
  fun _ hn => nomatch hn

/-- What lies past an offset that is passed later on is covered then. -/
theorem Covered.append (hF : F.Covered offset) (hle : offset ≤ last) (hG : G.Covered last) :
    (F ++ G).Covered last := by
  intro n hn
  rw [starts_append, List.mem_append] at hn
  rw [blamed_append]
  rcases hn with hn | hn
  · rcases hF n hn with hoffset | ⟨m, hm, hle⟩
    · exact .inl (Nat.le_trans hoffset hle)
    · exact .inr ⟨m, List.mem_append_left _ hm, hle⟩
  · rcases hG n hn with hlast | ⟨m, hm, hle⟩
    · exact .inl hlast
    · exact .inr ⟨m, List.mem_append_right _ hm, hle⟩

theorem Blames.append (hF : strict → F.Covered offset) (hle : offset ≤ last)
    (hG : G.Blames strict last) : (F ++ G).Blames strict last where
  covered hstrict := (hF hstrict).append hle (hG.covered hstrict)
  exists_failure := by
    obtain ⟨n, hn, hlast⟩ := hG.exists_failure
    exact ⟨n, by rw [failures_append]; exact List.mem_append_right _ hn, hlast⟩

/-- After a mismatch the cursor may go back as far as the forest starts: the attempt that failed
starts no earlier than the cursor got. -/
theorem Blames.back (h : F.Blames strict offset) (hfirst : ∀ n ∈ F.starts, first ≤ n) :
    F.Blames strict first := by
  obtain ⟨n, hn, hoffset⟩ := h.exists_failure
  have hblamed := mem_blamed_of_mem_failures hn
  refine ⟨fun hstrict k hk => ?_, n, hn, fun _ => hfirst n (mem_starts_of_mem_blamed hblamed)⟩
  -- What the cursor no longer covers starts no further than the attempt that failed.
  rcases h.covered hstrict k hk with hle | hcovered
  · exact .inr ⟨n, hblamed, Nat.le_trans hle (hoffset hstrict)⟩
  · exact .inr hcovered

/-! ### The forest of an attempt -/

/-- What an attempt leaves: itself above those made for it, unless it is dissolved or drops them. -/
def left (F : Forest) (shape : Shape) (start : Nat) (failed : Bool) : Forest :=
  if shape.dissolve then F else cons start failed (if shape.leaf then nil else F) nil

variable {shape : Shape} {start n : Nat} {failed : Bool}

theorem mem_starts_left (h : n ∈ (F.left shape start failed).starts) :
    n = start ∨ n ∈ F.starts := by
  unfold left at h
  split at h
  · exact .inr h
  · rw [starts, List.mem_cons, starts, List.append_nil] at h
    refine h.imp_right fun hn => ?_
    split at hn
    · cases hn
    · exact hn

/-- An attempt that matched leaves no more uncovered than those made for it. -/
theorem Covered.left (h : F.Covered offset) (hstart : start ≤ offset) :
    (F.left shape start false).Covered offset := by
  unfold Forest.left
  split
  · exact h
  · intro n hn
    rw [starts, List.mem_cons, starts, List.append_nil] at hn
    rw [blamed, if_neg Bool.false_ne_true, blamed, List.append_nil]
    -- The attempt itself started before the cursor. Those below it count only if they are kept.
    rcases hn with rfl | hn
    · exact .inl hstart
    · split at hn
      · cases hn
      · next hleaf =>
        rw [if_neg hleaf]
        exact h n hn

/-- An attempt that failed is blamed itself, with all that was made for it. One that is dissolved
leaves the blame to those, and the cursor goes back to where it started. -/
theorem Blames.left (h : shape.dissolve → F.Blames strict offset)
    (hfirst : ∀ n ∈ F.starts, start ≤ n) :
    (F.left shape start true).Blames strict start := by
  unfold Forest.left
  split
  · next hdissolve => exact (h hdissolve).back hfirst
  · refine ⟨fun _ n hn => .inr ⟨n, ?_, Nat.le_refl n⟩, start, List.mem_cons_self,
      fun _ => Nat.le_refl start⟩
    -- All starts of a failed attempt are blamed.
    rw [starts, starts, List.append_nil] at hn
    rw [blamed, if_pos rfl, blamed, List.append_nil]
    exact hn

/-- An attempt that failed is among the failed ones it leaves, unless it is dissolved. -/
theorem start_mem_allFailures_left (h : shape.dissolve = false) :
    start ∈ (F.left shape start true).allFailures := by
  rw [left, h]
  exact List.mem_cons_self

/-- So are the failed ones made for it, unless it drops them. -/
theorem mem_allFailures_left (h : shape.leaf = false) (hn : n ∈ F.allFailures) :
    n ∈ (F.left shape start failed).allFailures := by
  rw [left, h]
  split
  · exact hn
  · exact List.mem_append_right _ (List.mem_append_left _ hn)

end Forest


namespace Trail

variable {t : Trail} {lo first m n : Nat} {F : Forest} {strict : Prop}

/-! ### The furthest start -/

theorem startOf_le_furthestStart {id : Nat} (hid : id ∈ t.preOrder) :
    t.startOf id ≤ t.furthestStart := by
  have hall := (foldl_max_le_iff (t.preOrder.map t.startOf) 0 _).mp (Nat.le_refl t.furthestStart)
  exact hall.2 _ (List.mem_map_of_mem hid)

/-- Some attempt within reach starts furthest. -/
theorem exists_startOf_eq_furthestStart (hsize : 0 < t.size) :
    ∃ id ∈ t.preOrder, t.startOf id = t.furthestStart := by
  rcases foldl_max_eq_or_mem (t.preOrder.map t.startOf) 0 with h | h
  · refine ⟨0, zero_mem_preOrder hsize, ?_⟩
    have hle := startOf_le_furthestStart (zero_mem_preOrder hsize)
    have hzero : t.furthestStart = 0 := h
    omega
  · exact List.mem_map.mp h

/-! ### Culprits -/

theorem mem_preOrder_tail_of_child (h : t.Linked) {c j : Nat} (hc : c ∈ t.children 0)
    (hj : t.Reaches c j) : j ∈ t.preOrder.tail := by
  have hsize := lt_size_of_mem_children hc
  exact (h.mem_preOrder_tail hsize).mpr (h.reaches_zero_and_ne_iff.mp ⟨c, hc, hj⟩)

/-- A forest below the root that has a failed attempt shows it within reach. -/
theorem exists_failed_of_holds (h : t.Linked) (hF : t.Holds lo (t.children 0) F)
    (hn : n ∈ F.failures) : ∃ x ∈ t.preOrder.tail, (t.get? x).any (·.failed) := by
  obtain ⟨c, hc, x, j, hx, hfailed, -, -⟩ :=
    hF.exists_failed_of_mem_blamed (Forest.mem_blamed_of_mem_failures hn)
  exact ⟨x, mem_preOrder_tail_of_child h hc hx, hfailed⟩

/-- Where what starts furthest is blamed, there is a culprit. -/
theorem exists_culprit_of_mem_blamed (h : t.Linked) (hF : t.Holds lo (t.children 0) F)
    (hblamed : t.furthestStart ∈ F.blamed) : ∃ x, t.Culprit x := by
  obtain ⟨c, hc, x, j, hx, hfailed, hj, hstart⟩ := hF.exists_failed_of_mem_blamed hblamed
  -- An attempt that starts furthest was made for one that failed.
  have hreach := mem_preOrder_tail_of_child h hc (hx.trans hj)
  exact ⟨x, mem_preOrder_tail_of_child h hc hx, hfailed, j, mem_atFurthest.mpr ⟨hreach, hstart⟩,
    h.mem_self_or_ancestors.mpr hj⟩

/-- A forest that covers all from the start of the parse on holds a culprit. -/
theorem exists_culprit (h : t.Linked) (hsize : 0 < t.size) (hF : t.Holds lo (t.children 0) F)
    (hfirst : t.startOf 0 = first) (hblames : F.Blames strict first) (hstrict : strict) :
    ∃ x, t.Culprit x := by
  obtain ⟨n, hn, hle⟩ := hblames.exists_failure
  have hn := Forest.mem_blamed_of_mem_failures hn
  have hbound (m : Nat) (hm : m ∈ F.blamed) : m ≤ t.furthestStart := by
    obtain ⟨c, hc, j, hj, rfl⟩ := hF.mem_starts_iff.mp (Forest.mem_starts_of_mem_blamed hm)
    exact startOf_le_furthestStart (List.mem_of_mem_tail (mem_preOrder_tail_of_child h hc hj))
  -- The attempt that starts furthest is the root or in the forest.
  have hcovered : t.furthestStart ≤ first ∨ ∃ m ∈ F.blamed, t.furthestStart ≤ m := by
    obtain ⟨j, hj, hstart⟩ := exists_startOf_eq_furthestStart hsize
    rcases Reaches.head_iff.mp ((h.mem_preOrder hsize).mp hj) with rfl | ⟨c, hc, hreach⟩
    · exact .inl (Nat.le_of_eq (hstart.symm.trans hfirst))
    · exact hblames.covered hstrict _ (hF.mem_starts_iff.mpr ⟨c, hc, j, hreach, hstart⟩)
  obtain ⟨m, hm, hfurthest⟩ : ∃ m ∈ F.blamed, t.furthestStart ≤ m := by
    rcases hcovered with hroot | hcovered
    · exact ⟨n, hn, Nat.le_trans hroot (hle hstrict)⟩
    · exact hcovered
  -- Nothing starts further than the furthest, so what is blamed is just that.
  have heq : m = t.furthestStart := Nat.le_antisymm (hbound m hm) hfurthest
  exact exists_culprit_of_mem_blamed h hF (heq ▸ hm)

end Trail

end ParseTrail
