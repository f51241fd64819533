import Mathlib.Data.List.Perm.Basic
import ParseTrail.Proofs.Trail.Trim

/-!
# Walks that come to an end

The walks over a trail are cut off after as many levels as there are attempts. The loops they stand
for know no such bound: they go on until there is nothing left to visit. Here each loop is a
relation that holds only if the loop comes to an end, and on a linked trail the bounded walk is what
the loop gives.

- `Linked.climbs_ancestors`, `Linked.descends_preOrder`, `Linked.ascends_postOrder`,
  `Linked.copyWanted_eq`: no walk is cut off;
- `Linked.nodup_preOrder`, `Linked.sublist_preOrder`: every attempt within reach is met once, after
  its parent;
- `perm_postOrder`, `Linked.sublist_postOrder`: the other walk meets the same ones, each before its
  parent.
-/

namespace ParseTrail.Trail

variable {t : Trail} {id c d j k n m parent : Nat} {ids stack met : List Nat}

/-! ### Loops without a bound -/

/-- Going from parent to parent ends at an attempt without one, with the attempts met on the way. -/
inductive Climbs (t : Trail) : Option Nat → List Nat → Prop
  | top : Climbs t none []
  | up {id : Nat} {path : List Nat} : Climbs t (t.parent? id) path → Climbs t (some id) (id :: path)

/-- Working off a stack of attempts ends with those met. The attempt on top is met, and its children
take its place. -/
inductive Descends (t : Trail) : List Nat → List Nat → Prop
  | done : Descends t [] []
  | next {id : Nat} {stack met : List Nat} :
      Descends t (t.children id ++ stack) met → Descends t (id :: stack) (id :: met)

/-- Visiting some attempts one after the other, each after its children, ends with those met. -/
inductive Ascends (t : Trail) : List Nat → List Nat → Prop
  | done : Ascends t [] []
  | next {id : Nat} {ids below after : List Nat} :
      Ascends t (t.children id) below → Ascends t ids after →
      Ascends t (id :: ids) (below ++ id :: after)

/-- Going up gives one list. -/
theorem Climbs.unique {id? : Option Nat} {path path' : List Nat} (h : t.Climbs id? path)
    (h' : t.Climbs id? path') : path = path' := by
  induction h generalizing path' with
  | top =>
    cases h'
    rfl
  | up _ ih =>
    cases h' with
    | up h' => rw [ih h']

/-- Working off a stack gives one list. -/
theorem Descends.unique {met' : List Nat} (h : t.Descends stack met)
    (h' : t.Descends stack met') : met = met' := by
  induction h generalizing met' with
  | done =>
    cases h'
    rfl
  | next _ ih =>
    cases h' with
    | next h' => rw [ih h']

/-- Visiting attempts after their children gives one list. -/
theorem Ascends.unique {met' : List Nat} (h : t.Ascends ids met) (h' : t.Ascends ids met') :
    met = met' := by
  induction h generalizing met' with
  | done =>
    cases h'
    rfl
  | next _ _ ihbelow ihafter =>
    cases h' with
    | next hbelow hafter => rw [ihbelow hbelow, ihafter hafter]

/-- Attempts visited one after the other, in two lots. -/
theorem Ascends.append {ids' met' : List Nat} (h : t.Ascends ids met) (h' : t.Ascends ids' met') :
    t.Ascends (ids ++ ids') (met ++ met') := by
  induction h with
  | done => exact h'
  | next hbelow _ _ ihafter =>
    rw [List.append_assoc, List.cons_append]
    exact .next hbelow ihafter

namespace Linked

/-- The way up that is computed climbs from parent to parent. -/
theorem climbs_chain (h : t.Linked) {parent? : Option Nat} (hn : ∀ p, parent? = some p → p < n) :
    t.Climbs parent? (t.chain n parent?) := by
  -- Parents are older, so each step up leaves enough of the bound for the rest.
  induction n generalizing parent? with
  | zero =>
    rcases parent? with _ | p
    · exact .top
    · exact absurd (hn p rfl) (Nat.not_lt_zero p)
  | succ n ih =>
    rcases parent? with _ | p
    · exact .top
    · have hp : p < n + 1 := hn p rfl
      refine .up (ih fun q hq => ?_)
      have hlt := h.parent_lt q p hq
      omega

/-- The way up from an attempt ends, and the attempts above it are those on the way. -/
theorem climbs_ancestors (h : t.Linked) (id : Nat) : t.Climbs (t.parent? id) (t.ancestors id) :=
  h.climbs_chain fun p hp => Nat.lt_trans (h.parent_lt p id hp) (lt_size_of_parent? hp)

/-- What holds of an attempt at a level holds of its children one level down. -/
theorem level_of_mem (h : t.Linked) (hn : t.size ≤ id + (n + 1)) (hc : c ∈ t.children id) :
    c < t.size ∧ t.size ≤ c + n := by
  have hlt := h.parent_lt_of_mem hc
  exact ⟨h.lt_size_of_mem hc, by omega⟩

/-- The walk that is computed descends, and goes on with the stack that it was given. -/
theorem descends_preOrderFrom (h : t.Linked) (hid : id < t.size) (hn : t.size ≤ id + n)
    (hrest : t.Descends stack met) : t.Descends (id :: stack) (t.preOrderFrom n id ++ met) := by
  induction n generalizing id stack met with
  | zero => omega
  | succ n ih =>
    rw [preOrderFrom, List.cons_append]
    refine .next ?_
    -- The children come off the stack one by one, each with all that is below it.
    have hlevel := fun c hc => h.level_of_mem (c := c) hn hc
    generalize t.children id = cs at hlevel
    induction cs with
    | nil => exact hrest
    | cons c cs ihcs =>
      obtain ⟨hc, hcs⟩ := List.forall_mem_cons.mp hlevel
      rw [List.flatMap_cons, List.cons_append, List.append_assoc]
      exact ih hc.1 hc.2 (ihcs hcs)

/-- The walk with parents first ends. -/
theorem descends_preOrder (h : t.Linked) (hsize : 0 < t.size) : t.Descends [0] t.preOrder := by
  have hwalk := h.descends_preOrderFrom hsize (show t.size ≤ 0 + t.size by omega) .done
  rwa [List.append_nil] at hwalk

/-- The walk with children first that is computed ascends, and goes on with what it was given. -/
theorem ascends_postOrderFrom (h : t.Linked) (hid : id < t.size) (hn : t.size ≤ id + n)
    (hrest : t.Ascends ids met) : t.Ascends (id :: ids) (t.postOrderFrom n id ++ met) := by
  induction n generalizing id ids met with
  | zero => omega
  | succ n ih =>
    rw [postOrderFrom, List.append_assoc, List.singleton_append]
    refine .next ?_ hrest
    have hlevel := fun c hc => h.level_of_mem (c := c) hn hc
    generalize t.children id = cs at hlevel
    induction cs with
    | nil => exact .done
    | cons c cs ihcs =>
      obtain ⟨hc, hcs⟩ := List.forall_mem_cons.mp hlevel
      rw [List.flatMap_cons]
      exact ih hc.1 hc.2 (ihcs hcs)

end Linked

/-- The walk from the root ends with the root. -/
theorem postOrderFrom_size (hsize : 0 < t.size) :
    t.postOrderFrom t.size 0 = t.postOrder ++ [0] := by
  obtain ⟨n, hn⟩ : ∃ n, t.size = n + 1 := ⟨t.size - 1, by omega⟩
  rw [postOrder, hn, postOrderFrom, List.dropLast_concat]

/-- The walk with children first ends. -/
theorem Linked.ascends_postOrder (h : t.Linked) (hsize : 0 < t.size) :
    t.Ascends [0] (t.postOrder ++ [0]) := by
  have hwalk := h.ascends_postOrderFrom hsize (show t.size ≤ 0 + t.size by omega) .done
  rwa [List.append_nil, postOrderFrom_size hsize] at hwalk

/-- What is not on the trail is not copied. -/
theorem copyWanted_of_size_le (hid : t.size ≤ id) (wanted : List Nat) (n target : Nat)
    (out : Trail) : t.copyWanted wanted n id target out = out := by
  cases n with
  | zero => rfl
  | succ n =>
    rw [copyWanted_succ, children_eq_nil hid]
    rfl

/-- Copying is not cut off: more levels than it takes to go all the way down change nothing. -/
theorem Linked.copyWanted_eq (h : t.Linked) (wanted : List Nat) (hn : t.size ≤ id + n)
    (hm : t.size ≤ id + m) (target : Nat) (out : Trail) :
    t.copyWanted wanted n id target out = t.copyWanted wanted m id target out := by
  induction n generalizing id m target out with
  | zero => rw [copyWanted_of_size_le (by omega), copyWanted_of_size_le (by omega)]
  | succ n ih =>
    cases m with
    | zero => rw [copyWanted_of_size_le (by omega), copyWanted_of_size_le (by omega)]
    | succ m =>
      -- Both loops go through the same children, with enough levels left for each.
      rw [copyWanted_succ, copyWanted_succ]
      refine List.foldl_ext _ _ _ fun out c hc => ?_
      rw [copyStep, copyStep]
      split
      · rw [ih (h.level_of_mem hn hc).2 (h.level_of_mem hm hc).2]
      · rfl

/-! ### Each attempt once -/

/-- What is met below one of several attempts is met, in the same order, below all of them. -/
theorem sublist_flatMap {f : Nat → List Nat} (hc : c ∈ ids) : (f c).Sublist (ids.flatMap f) :=
  List.sublist_flatten_of_mem (List.mem_map_of_mem hc)

/-- Of two attempts that lead to a third, one leads to the other. -/
theorem Reaches.comparable (h : t.Linked) (hc : t.Reaches c j) (hd : t.Reaches d j) :
    t.Reaches c d ∨ t.Reaches d c := by
  induction hc with
  | refl => exact .inr hd
  | @child p j hc hmem ih =>
    cases hd with
    | refl => exact .inl (hc.child hmem)
    | @child q _ hd hmem' =>
      -- Both ways come through the one parent.
      rw [h.mem_children_iff] at hmem hmem'
      rw [hmem, Option.some.injEq] at hmem'
      subst hmem'
      exact ih hd

namespace Linked

/-- A child of an attempt does not lead to another child of it. -/
theorem eq_of_reaches_sibling (h : t.Linked) (hc : c ∈ t.children parent)
    (hd : d ∈ t.children parent) (hreach : t.Reaches c d) : c = d := by
  cases hreach with
  | refl => rfl
  | @child q _ hreach hmem =>
    -- The way would come through the parent of both, which is older.
    have hlt := h.parent_lt_of_mem hc
    have hle := hreach.le h
    rw [h.mem_children_iff] at hd hmem
    rw [hd, Option.some.injEq] at hmem
    omega

/-- Two children of an attempt lead to different attempts. -/
theorem ne_of_reaches_siblings (h : t.Linked) (hc : c ∈ t.children parent)
    (hd : d ∈ t.children parent) (hne : c ≠ d) (hj : t.Reaches c j) (hk : t.Reaches d k) :
    j ≠ k := by
  rintro rfl
  rcases hj.comparable h hk with hreach | hreach
  · exact hne (h.eq_of_reaches_sibling hc hd hreach)
  · exact hne (h.eq_of_reaches_sibling hd hc hreach).symm

/-- What holds between an attempt and those below it, and between what is below one child and what
is below a later one, holds between any two attempts met one after the other. -/
theorem pairwise_preOrderFrom (h : t.Linked) {R : Nat → Nat → Prop}
    (hbelow : ∀ p c j, c ∈ t.children p → t.Reaches c j → R p j)
    (hbeside : ∀ p, (t.children p).Pairwise fun c d =>
      ∀ j k, t.Reaches c j → t.Reaches d k → R j k)
    (hid : id < t.size) (hn : t.size ≤ id + n) : (t.preOrderFrom n id).Pairwise R := by
  induction n generalizing id with
  | zero => omega
  | succ n ih =>
    have hmem {c j : Nat} (hc : c ∈ t.children id) :
        j ∈ t.preOrderFrom n c ↔ t.Reaches c j := by
      obtain ⟨hsize, hlevel⟩ := h.level_of_mem hn hc
      exact h.mem_preOrderFrom hsize hlevel
    rw [preOrderFrom, List.pairwise_cons, List.pairwise_flatMap]
    refine ⟨?_, ?_, ?_⟩
    · intro j hj
      obtain ⟨c, hc, hj⟩ := List.mem_flatMap.mp hj
      exact hbelow id c j hc ((hmem hc).mp hj)
    · intro c hc
      obtain ⟨hsize, hlevel⟩ := h.level_of_mem hn hc
      exact ih hsize hlevel
    · refine (hbeside id).imp_of_mem ?_
      intro c d hc hd hR j hj k hk
      exact hR j k ((hmem hc).mp hj) ((hmem hd).mp hk)

/-- No attempt is met twice. -/
theorem nodup_preOrder (h : t.Linked) (hsize : 0 < t.size) : t.preOrder.Nodup := by
  refine h.pairwise_preOrderFrom ?_ ?_ hsize (by omega)
  · intro p c j hc hreach
    have hlt := h.parent_lt_of_mem hc
    have hle := hreach.le h
    omega
  · intro p
    refine (h.nodup_children p).imp_of_mem ?_
    intro c d hc hd hne j k hj hk
    exact h.ne_of_reaches_siblings hc hd hne hj hk

/-- A parent comes before its children. -/
theorem sublist_preOrderFrom (h : t.Linked) (hid : id < t.size) (hn : t.size ≤ id + n)
    (hreach : t.Reaches id parent) (hc : c ∈ t.children parent) :
    [parent, c].Sublist (t.preOrderFrom n id) := by
  induction n generalizing id with
  | zero => omega
  | succ n ih =>
    rw [preOrderFrom]
    rcases Reaches.head_iff.mp hreach with rfl | ⟨d, hd, hreach⟩
    · -- The attempt comes first, and its child among what follows.
      refine List.Sublist.cons_cons _ (List.singleton_sublist.mpr ?_)
      obtain ⟨hsize, hlevel⟩ := h.level_of_mem hn hc
      exact List.mem_flatMap.mpr ⟨c, hc, (h.mem_preOrderFrom hsize hlevel).mpr .refl⟩
    · obtain ⟨hsize, hlevel⟩ := h.level_of_mem hn hd
      exact ((ih hsize hlevel hreach).trans (sublist_flatMap hd)).cons _

/-- An attempt within reach is met before its children. -/
theorem sublist_preOrder (h : t.Linked) (hsize : 0 < t.size) (hreach : t.Reaches 0 parent)
    (hc : c ∈ t.children parent) : [parent, c].Sublist t.preOrder :=
  h.sublist_preOrderFrom hsize (by omega) hreach hc

/-- Children come before their parent. -/
theorem sublist_postOrderFrom (h : t.Linked) (hid : id < t.size) (hn : t.size ≤ id + n)
    (hreach : t.Reaches id parent) (hc : c ∈ t.children parent) :
    [c, parent].Sublist (t.postOrderFrom n id) := by
  induction n generalizing id with
  | zero => omega
  | succ n ih =>
    rw [postOrderFrom]
    rcases Reaches.head_iff.mp hreach with rfl | ⟨d, hd, hreach⟩
    · refine List.Sublist.append (List.singleton_sublist (a := c).mpr ?_)
        (List.Sublist.refl [parent])
      obtain ⟨hsize, hlevel⟩ := h.level_of_mem hn hc
      exact List.mem_flatMap.mpr ⟨c, hc, (h.mem_postOrderFrom hsize hlevel).mpr .refl⟩
    · obtain ⟨hsize, hlevel⟩ := h.level_of_mem hn hd
      exact ((ih hsize hlevel hreach).trans (sublist_flatMap hd)).trans
        (List.sublist_append_left _ _)

/-- An attempt within reach, unless it is the root, is met after its children by the other walk. -/
theorem sublist_postOrder (h : t.Linked) (hsize : 0 < t.size) (hreach : t.Reaches 0 parent)
    (hne : parent ≠ 0) (hc : c ∈ t.children parent) : [c, parent].Sublist t.postOrder := by
  have hwalk := h.sublist_postOrderFrom hsize (show t.size ≤ 0 + t.size by omega) hreach hc
  -- The walk from the root ends with the root, so both come before it.
  rw [postOrderFrom_size hsize, List.sublist_append_iff] at hwalk
  obtain ⟨front, back, hsplit, hfront, hback⟩ := hwalk
  rcases List.sublist_singleton.mp hback with rfl | rfl
  · rw [List.append_nil] at hsplit
    rwa [hsplit]
  · have hlast := congrArg List.getLast? hsplit
    rw [List.getLast?_append] at hlast
    exact absurd (Option.some.inj hlast) hne

end Linked

/-- Both walks meet the same attempts. -/
theorem perm_postOrderFrom (t : Trail) (n id : Nat) :
    (t.postOrderFrom n id).Perm (t.preOrderFrom n id) := by
  induction n generalizing id with
  | zero => exact .refl []
  | succ n ih =>
    rw [postOrderFrom, preOrderFrom]
    have hbelow : ((t.children id).flatMap (t.postOrderFrom n)).Perm
        ((t.children id).flatMap (t.preOrderFrom n)) :=
      List.Perm.flatMap_left _ fun c _ => ih c
    exact (List.perm_append_singleton id _).trans (hbelow.cons id)

/-- The two walks meet the same attempts. -/
theorem perm_postOrder (hsize : 0 < t.size) : (0 :: t.postOrder).Perm t.preOrder := by
  have hwalk := t.perm_postOrderFrom t.size 0
  rw [postOrderFrom_size hsize] at hwalk
  exact (List.perm_append_singleton 0 t.postOrder).symm.trans hwalk

end ParseTrail.Trail
