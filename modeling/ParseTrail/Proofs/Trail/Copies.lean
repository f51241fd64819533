import ParseTrail.Proofs.Trail.Operations

/-!
# Copies in a trimmed trail

Trimming copies the root, the attempts to keep and those above them, one by one, each below the copy
of its parent. What comes of it is a trail of its own, linked and all within reach, and its copies
are met in the order of what they are copies of.

- `Linked.whole_trimTo`: a trimmed trail is linked, and nothing in it is out of reach;
- `Linked.copied_trimTo`: which attempts are copied, in which order, and how the copies are linked;
- `Built`: the trails that come of operations and trimming, all of them linked.
-/

namespace ParseTrail.Trail

variable {t u out : Trail} {wanted keep cs ks : List Nat} {target id c k p j n m lo : Nat}

/-! ### Linked copies -/

/-- A linked trail with nothing out of reach. -/
structure Whole (t : Trail) : Prop where
  linked : t.Linked
  size : 0 < t.size
  reaches : ∀ id < t.size, t.Reaches 0 id

/-- A trail of one attempt that has no links. -/
theorem whole_single {a : Attempt} (hparent : a.parent? = none) (hchildren : a.children = []) :
    (⟨#[a]⟩ : Trail).Whole where
  linked := by
    refine (linked_start 0).of_same_links ?_ ?_
    · funext id
      rcases id with _ | id
      · exact hchildren
      · rfl
    · funext id
      rcases id with _ | id
      · exact hparent
      · rfl
  size := Nat.one_pos
  reaches id hid := by
    rw [Nat.lt_one_iff.mp hid]
    exact .refl

/-- A copy that is grafted comes last below its target. -/
theorem children_graft (htarget : target < out.size) (a : Attempt) (j : Nat) :
    (out.graft target a).children j =
      if j = target then out.children target ++ [out.size] else out.children j := by
  rw [children, get?_graft htarget]
  by_cases hsize : j = out.size
  · rw [if_pos hsize, if_neg (by omega), children_eq_nil (by omega)]
    rfl
  · rw [if_neg hsize]
    by_cases hj : j = target
    · subst hj
      obtain ⟨b, hb⟩ : ∃ b, out.get? j = some b := ⟨_, Array.getElem?_eq_getElem htarget⟩
      rw [if_pos rfl, if_pos rfl, children, hb]
      rfl
    · rw [if_neg hj, if_neg hj]
      rfl

/-- The target is its parent. -/
theorem parent?_graft (htarget : target < out.size) (a : Attempt) (j : Nat) :
    (out.graft target a).parent? j = if j = out.size then some target else out.parent? j := by
  rw [parent?, get?_graft htarget]
  by_cases hsize : j = out.size
  · rw [if_pos hsize, if_pos hsize]
    rfl
  · rw [if_neg hsize, if_neg hsize]
    by_cases hj : j = target
    · rw [if_pos hj, parent?]
      rcases out.get? j with _ | b
      · rfl
      · rfl
    · rw [if_neg hj]
      rfl

/-- A copy is linked like an attempt that is opened in its place. -/
theorem Linked.graft (h : out.Linked) (htarget : target < out.size) (a : Attempt) :
    (out.graft target a).Linked := by
  refine (h.push htarget 0 "" false).of_same_links ?_ ?_
  · funext j
    rw [children_graft htarget, children_push htarget]
  · funext j
    rw [parent?_graft htarget, parent?_push htarget]

/-- What was within reach stays so when more children are listed. -/
theorem Reaches.mono_children (h : ∀ p c, c ∈ t.children p → c ∈ u.children p)
    (hreach : t.Reaches id j) : u.Reaches id j := by
  induction hreach with
  | refl => exact .refl
  | child _ hc ih => exact ih.child (h _ _ hc)

namespace Whole

/-- A trail on which all can be reached stays so. -/
theorem graft (h : out.Whole) (htarget : target < out.size) (a : Attempt) :
    (out.graft target a).Whole where
  linked := h.linked.graft htarget a
  size := by
    rw [size_graft]
    omega
  reaches id hid := by
    have hkept (p c : Nat) (hc : c ∈ out.children p) : c ∈ (out.graft target a).children p := by
      rw [children_graft htarget]
      split
      · next hp => exact List.mem_append_left _ (hp ▸ hc)
      · exact hc
    rw [size_graft] at hid
    rcases Nat.lt_succ_iff_lt_or_eq.mp hid with hold | rfl
    · exact (h.reaches id hold).mono_children hkept
    · -- The copy stands below an attempt that was within reach.
      refine ((h.reaches target htarget).mono_children hkept).child ?_
      rw [children_graft htarget, if_pos rfl]
      exact List.mem_append_right _ List.mem_cons_self

/-- Copying adds to a trail without harm. -/
theorem copyWanted (h : out.Whole) (htarget : target < out.size) (t : Trail) (wanted : List Nat)
    (n id : Nat) :
    (t.copyWanted wanted n id target out).Whole ∧
      out.size ≤ (t.copyWanted wanted n id target out).size := by
  induction n generalizing id target out with
  | zero => exact ⟨h, Nat.le_refl _⟩
  | succ n ih =>
    rw [copyWanted_succ]
    -- The loop over the children keeps what it has made so far.
    induction t.children id generalizing out with
    | nil => exact ⟨h, Nat.le_refl _⟩
    | cons c cs ihcs =>
      have hstep : (t.copyStep wanted n target out c).Whole ∧
          out.size ≤ (t.copyStep wanted n target out c).size := by
        rw [copyStep]
        split
        · next a _ =>
          split
          · obtain ⟨hwhole, hsize⟩ := ih (h.graft htarget a)
              (show out.size < (out.graft target a).size by rw [size_graft]; omega) c
            rw [size_graft] at hsize
            exact ⟨hwhole, by omega⟩
          · exact ⟨h, Nat.le_refl _⟩
        · exact ⟨h, Nat.le_refl _⟩
      rw [List.foldl_cons]
      obtain ⟨hwhole, hsize⟩ := ihcs hstep.1 (Nat.lt_of_lt_of_le htarget hstep.2)
      exact ⟨hwhole, Nat.le_trans hstep.2 hsize⟩

end Whole

/-- The root stands below nothing. -/
theorem Linked.parent?_zero (h : t.Linked) : t.parent? 0 = none := by
  rcases hroot : t.parent? 0 with _ | p
  · rfl
  · exact absurd (h.parent_lt p 0 hroot) (Nat.not_lt_zero p)

/-- A trimmed trail is linked, and nothing in it is out of reach. -/
theorem Linked.whole_trimTo (h : t.Linked) (keep : List Nat) : (t.trimTo keep).Whole := by
  have hroot : (⟨#[{ (t.get? 0).getD default with children := [] }]⟩ : Trail).Whole := by
    refine whole_single ?_ rfl
    have hparent := h.parent?_zero
    rw [parent?] at hparent
    rcases hget : t.get? 0 with _ | a
    · rfl
    · rw [hget] at hparent
      exact hparent
  exact (hroot.copyWanted Nat.one_pos t _ t.size 0).1

/-! ### What is copied -/

/-- What an attempt says of itself, its links apart. -/
def bare? (t : Trail) (id : Nat) : Option Attempt :=
  (t.get? id).map Attempt.bare

/-- Whether an attempt is the root, one of those to keep, or above one of them. -/
def isKept (t : Trail) (keep : List Nat) (id : Nat) : Bool :=
  id == 0 || (keep.flatMap fun j => j :: t.ancestors j).contains id

/-- What is wanted leads to something that is to be kept. -/
theorem Linked.mem_wanted (h : t.Linked) :
    id ∈ (keep.flatMap fun j => j :: t.ancestors j) ↔ ∃ j ∈ keep, t.Reaches id j := by
  rw [List.mem_flatMap]
  exact exists_congr fun j => and_congr_right fun _ => h.mem_self_or_ancestors

/-- An attempt is kept if it leads to something that is to be kept, and so is the root. -/
theorem Linked.isKept_iff (h : t.Linked) :
    t.isKept keep id = true ↔ id = 0 ∨ ∃ j ∈ keep, t.Reaches id j := by
  rw [isKept, Bool.or_eq_true, beq_iff_eq, List.contains_iff_mem, h.mem_wanted]

/-- Nothing is wanted below what is not wanted. -/
theorem filter_preOrderFrom_eq_nil (h : t.Linked)
    (hclosed : ∀ x j, t.Reaches x j → j ∈ wanted → x ∈ wanted) (hsize : c < t.size)
    (hn : t.size ≤ c + n) (hc : c ∉ wanted) :
    (t.preOrderFrom n c).filter wanted.contains = [] := by
  have hpost := filter_postOrderFrom_eq_nil h hclosed hsize hn hc
  exact List.nil_perm.mp (hpost ▸ (t.perm_postOrderFrom n c).filter wanted.contains)

/-- Attempts are paired with their copies: a copy says what the attempt says, and both are among
some that are given, or stand below another pair. -/
def Paired (t out : Trail) (cs ks : List Nat) (pairs : List (Nat × Nat)) : Prop :=
  ∀ c k, (c, k) ∈ pairs → out.bare? k = t.bare? c ∧
    (c ∈ cs ∧ k ∈ ks ∨ ∃ p j, (p, j) ∈ pairs ∧ c ∈ t.children p ∧ k ∈ out.children j)

namespace Paired

variable {pairs below rest : List (Nat × Nat)}

/-- A child that is not copied has no partner. -/
theorem skip (h : Paired t out cs ks pairs) (c : Nat) : Paired t out (c :: cs) ks pairs := by
  intro x y hmem
  obtain ⟨hsame, hplace⟩ := h x y hmem
  exact ⟨hsame, hplace.imp_left fun hmem => ⟨List.mem_cons_of_mem c hmem.1, hmem.2⟩⟩

/-- An attempt and its copy go with the pairs below them and those beside them. -/
theorem copy (hsame : out.bare? k = t.bare? c)
    (hbelow : Paired t out (t.children c) (out.children k) below)
    (hrest : Paired t out cs ks rest) :
    Paired t out (c :: cs) (k :: ks) ((c, k) :: (below ++ rest)) := by
  intro x y hmem
  rcases List.mem_cons.mp hmem with heq | hmem
  · cases heq
    exact ⟨hsame, .inl ⟨List.mem_cons_self, List.mem_cons_self⟩⟩
  rcases List.mem_append.mp hmem with hmem | hmem
  · obtain ⟨hsame, hplace⟩ := hbelow x y hmem
    refine ⟨hsame, .inr ?_⟩
    -- What is below the attempt is below it at once, or further down.
    rcases hplace with ⟨hx, hy⟩ | ⟨p, j, hmem, hx, hy⟩
    · exact ⟨c, k, List.mem_cons_self, hx, hy⟩
    · exact ⟨p, j, List.mem_cons_of_mem _ (List.mem_append_left _ hmem), hx, hy⟩
  · obtain ⟨hsame, hplace⟩ := hrest x y hmem
    refine ⟨hsame, ?_⟩
    rcases hplace with ⟨hx, hy⟩ | ⟨p, j, hmem, hx, hy⟩
    · exact .inl ⟨List.mem_cons_of_mem _ hx, List.mem_cons_of_mem _ hy⟩
    · exact .inr ⟨p, j, List.mem_cons_of_mem _ (List.mem_append_right _ hmem), hx, hy⟩

end Paired

/-- The attempts wanted are paired with their copies in the order in which both walks meet them. -/
theorem Mirrors.exists_pairs (h : t.Linked)
    (hclosed : ∀ x j, t.Reaches x j → j ∈ wanted → x ∈ wanted)
    (hmirrors : Mirrors t out wanted lo cs ks)
    (hcs : ∀ c ∈ cs, c < t.size ∧ t.size ≤ c + n) (hks : out.size ≤ lo + m) :
    ∃ pairs : List (Nat × Nat),
      pairs.map Prod.fst = (cs.flatMap (t.preOrderFrom n)).filter wanted.contains ∧
      pairs.map Prod.snd = ks.flatMap (out.preOrderFrom m) ∧ Paired t out cs ks pairs := by
  induction hmirrors generalizing n m with
  | nil => exact ⟨[], rfl, rfl, fun _ _ hmem => absurd hmem List.not_mem_nil⟩
  | @skip _ c _ _ hc _ ih =>
    obtain ⟨⟨hsize, hn⟩, hcs'⟩ := List.forall_mem_cons.mp hcs
    obtain ⟨pairs, hfst, hsnd, hpaired⟩ := ih hcs' hks
    refine ⟨pairs, ?_, hsnd, hpaired.skip c⟩
    rw [List.flatMap_cons, List.filter_append, filter_preOrderFrom_eq_nil h hclosed hsize hn hc,
      List.nil_append, hfst]
  | @copy lo c k cs ks a b hc ha hb hbare hk _ _ ihbelow ihrest =>
    obtain ⟨⟨hsize, hn⟩, hcs'⟩ := List.forall_mem_cons.mp hcs
    have hkSize : k < out.size := by
      rw [← Nat.not_le, ← get?_eq_none_iff, hb]
      exact Option.some_ne_none b
    have hchildren : a.children = t.children c := by
      rw [children, ha]
      rfl
    have hchildren' : b.children = out.children k := by
      rw [children, hb]
      rfl
    have hsame : out.bare? k = t.bare? c := by
      rw [bare?, bare?, ha, hb, Option.map_some, Option.map_some, hbare]
    rw [hchildren, hchildren'] at ihbelow
    -- Both walks go down one level.
    obtain ⟨n, rfl⟩ : ∃ i, n = i + 1 := ⟨n - 1, by omega⟩
    obtain ⟨m, rfl⟩ : ∃ i, m = i + 1 := ⟨m - 1, by omega⟩
    obtain ⟨below, hfst, hsnd, hbelow⟩ := ihbelow (n := n) (m := m)
      (fun x hx => h.level_of_mem hn hx) (by omega)
    obtain ⟨rest, hfst', hsnd', hrest⟩ := ihrest hcs' hks
    refine ⟨(c, k) :: (below ++ rest), ?_, ?_, .copy hsame hbelow hrest⟩
    · rw [List.flatMap_cons, List.filter_append, ← hfst', preOrderFrom, List.filter_cons,
        if_pos (List.contains_iff_mem.mpr hc), ← hfst, List.map_cons, List.map_append,
        List.cons_append]
    · rw [List.flatMap_cons, ← hsnd', preOrderFrom, ← hsnd, List.map_cons, List.map_append,
        List.cons_append]

/-- The depth of an attempt is one more than that of its parent. -/
theorem Linked.depth_of_parent? (h : t.Linked) (hparent : t.parent? c = some p) :
    t.depth c = t.depth p + 1 := by
  have hclimbs := h.climbs_ancestors c
  rw [hparent] at hclimbs
  -- The first step up leads to the parent, and the rest is the way up from there.
  generalize hpath : t.ancestors c = path at hclimbs
  cases hclimbs with
  | up hrest => rw [depth, hpath, List.length_cons, hrest.unique (h.climbs_ancestors p), depth]

/-- What has no parent is at the top. -/
theorem depth_of_parent?_eq_none (hparent : t.parent? c = none) : t.depth c = 0 := by
  rw [depth, ancestors, hparent]
  cases t.size with
  | zero => rfl
  | succ n => rfl

/-- Some attempts of a trail, in the order of the walk with parents first, and their copies in
another trail, in the order of that walk there. -/
structure Copied (t u : Trail) (ids : List Nat) (pairs : List (Nat × Nat)) : Prop where
  /-- These attempts are copied. -/
  originals : pairs.map Prod.fst = ids
  /-- The walk over the other trail meets their copies, in the same order. -/
  copies : pairs.map Prod.snd = u.preOrder
  /-- Links apart, a copy says what the attempt says. -/
  bare? : ∀ c k, (c, k) ∈ pairs → u.bare? k = t.bare? c
  /-- The parent of a copy is the copy of the parent. -/
  parent : ∀ c k, (c, k) ∈ pairs →
    t.parent? c = none ∧ u.parent? k = none ∨
      ∃ p j, (p, j) ∈ pairs ∧ t.parent? c = some p ∧ u.parent? k = some j
  /-- They stand as far below the root. -/
  depth : ∀ c k, (c, k) ∈ pairs → u.depth k = t.depth c

/-- Copies that stand below copies stand as deep as what they are copies of. -/
theorem depth_eq_of_parents {pairs : List (Nat × Nat)} (h : t.Linked) (hu : u.Linked)
    (hparent : ∀ c k, (c, k) ∈ pairs →
      t.parent? c = none ∧ u.parent? k = none ∨
        ∃ p j, (p, j) ∈ pairs ∧ t.parent? c = some p ∧ u.parent? k = some j)
    (hmem : (c, k) ∈ pairs) : u.depth k = t.depth c := by
  -- Going up leads to older attempts.
  induction c using Nat.strongRecOn generalizing k with
  | ind c ih =>
    rcases hparent c k hmem with ⟨hc, hk⟩ | ⟨p, j, hmem, hc, hk⟩
    · rw [depth_of_parent?_eq_none hc, depth_of_parent?_eq_none hk]
    · rw [h.depth_of_parent? hc, hu.depth_of_parent? hk, ih p (h.parent_lt p c hc) hmem]

/-- The walk with parents first meets the root and then what is below it. -/
theorem preOrder_eq_cons (hsize : 0 < t.size) :
    t.preOrder = 0 :: (t.children 0).flatMap (t.preOrderFrom (t.size - 1)) := by
  obtain ⟨n, hn⟩ : ∃ n, t.size = n + 1 := ⟨t.size - 1, by omega⟩
  rw [preOrder, hn, preOrderFrom, Nat.add_sub_cancel]

/-- The attempts kept are the root and, below it, those to keep and those above them. -/
theorem Linked.filter_isKept (h : t.Linked) (hsize : 0 < t.size) (keep : List Nat) :
    t.preOrder.filter (t.isKept keep) =
      0 :: ((t.children 0).flatMap (t.preOrderFrom (t.size - 1))).filter
        (keep.flatMap fun id => id :: t.ancestors id).contains := by
  have htail := congrArg List.tail (preOrder_eq_cons hsize)
  rw [List.tail_cons] at htail
  rw [preOrder_eq_cons hsize, List.filter_cons, if_pos (h.isKept_iff.mpr (.inl rfl)), ← htail]
  congr 1
  refine List.filter_congr fun id hid => ?_
  -- The root is not met again.
  have hne : id ≠ 0 := ((h.mem_preOrder_tail hsize).mp hid).2
  rw [isKept, beq_eq_false_iff_ne.mpr hne, Bool.false_or]

/-- Trimming copies, in order, the attempts that are kept. -/
theorem Linked.copied_trimTo (h : t.Linked) (hsize : 0 < t.size) (keep : List Nat) :
    ∃ pairs, Copied t (t.trimTo keep) (t.preOrder.filter (t.isKept keep)) pairs := by
  obtain ⟨hsize', hroot, hmirrors⟩ := h.mirrors_trimTo hsize keep
  have hlinked := (h.whole_trimTo keep).linked
  obtain ⟨pairs, hfst, hsnd, hpairs⟩ := hmirrors.exists_pairs h (h.wanted_of_reaches keep)
    (n := t.size - 1) (m := (t.trimTo keep).size - 1)
    (fun c hc => h.level_of_mem (by omega) hc) (by omega)
  -- The roots are paired, and every other copy stands below a copy.
  have hparent (c k : Nat) (hmem : (c, k) ∈ (0, 0) :: pairs) :
      t.parent? c = none ∧ (t.trimTo keep).parent? k = none ∨
        ∃ p j, (p, j) ∈ (0, 0) :: pairs ∧ t.parent? c = some p ∧
          (t.trimTo keep).parent? k = some j := by
    rcases List.mem_cons.mp hmem with heq | hmem
    · cases heq
      exact .inl ⟨h.parent?_zero, hlinked.parent?_zero⟩
    · refine .inr ?_
      rcases (hpairs c k hmem).2 with ⟨hc, hk⟩ | ⟨p, j, hmem, hc, hk⟩
      · exact ⟨0, 0, List.mem_cons_self, (h.mem_children_iff 0 c).mp hc,
          (hlinked.mem_children_iff 0 k).mp hk⟩
      · exact ⟨p, j, List.mem_cons_of_mem _ hmem, (h.mem_children_iff p c).mp hc,
          (hlinked.mem_children_iff j k).mp hk⟩
  refine ⟨(0, 0) :: pairs, ?_, ?_, fun c k hmem => ?_, hparent, fun c k hmem => ?_⟩
  · rw [h.filter_isKept hsize, ← hfst, List.map_cons]
  · rw [preOrder_eq_cons hsize', ← hsnd, List.map_cons]
  · rcases List.mem_cons.mp hmem with heq | hmem
    · cases heq
      exact hroot
    · exact (hpairs c k hmem).1
  · exact depth_eq_of_parents h hlinked hparent hmem

/-! ### What can be built -/

/-- The trails that operations and trimming make of new ones. -/
inductive Built : Trail → Prop
  /-- A new trail. -/
  | start (offset : Nat) : Built (start offset)
  /-- A trail after an operation on one of its attempts. -/
  | operation {t : Trail} (o : Operation) : Built t → o.target < t.size → Built (o.apply t)
  /-- A trail cut down to some of its attempts. -/
  | trimmed {t : Trail} (keep : List Nat) :
    Built t → (∀ id ∈ keep, id < t.size) → Built (t.trimTo keep)

namespace Built

/-- Trails that can be built are linked. -/
theorem linked (h : Built t) : t.Linked ∧ 0 < t.size := by
  induction h with
  | start offset => exact ⟨linked_start offset, Nat.one_pos⟩
  | operation o _ htarget ih =>
    exact ⟨o.linked_apply ih.1 htarget, Nat.lt_of_lt_of_le ih.2 (o.size_le_apply _)⟩
  | trimmed keep _ _ ih =>
    have hwhole := ih.1.whole_trimTo keep
    exact ⟨hwhole.linked, hwhole.size⟩

/-- Operations one after the other build on what was built. -/
theorem after {os : List Operation} (h : Built t) (hu : t.after os = some u) : Built u := by
  induction os generalizing t with
  | nil =>
    cases hu
    exact h
  | cons o os ih =>
    rw [Trail.after] at hu
    split at hu
    · next htarget => exact ih (h.operation o htarget) hu
    · cases hu

end Built

end ParseTrail.Trail
