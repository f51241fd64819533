import ParseTrail.Proofs.Trail.Copies
import ParseTrail.Proofs.Trail.Ordered

/-!
# Trails with an attempt dissolved

Dissolving an attempt puts its children in its place. It is then out of reach, and nothing else has
changed: the walks pass over it and meet all the others as before, the others stand above and below
each other as before, and every attempt says of itself what it said.

- `Descends.dissolve`, `Ascends.dissolve`: walks after an attempt has been dissolved;
- `Linked.reaches_dissolve_iff`: what leads where;
- `bare?_dissolve`: what attempts say of themselves;
- `dissolving_takes_one_out`: all of this, for every trail that can be built.
-/

namespace ParseTrail.Trail

variable {t u : Trail} {id parent c x y : Nat} {ids stack met : List Nat}

/-! ### Walks -/

/-- Some attempts, with the children of `id` in the place of `id`. -/
def promoted (t : Trail) (id : Nat) (ids : List Nat) : List Nat :=
  ids.flatMap fun c => if c = id then t.children id else [c]

/-- Lists of children are replaced one after the other. -/
theorem promoted_append (t : Trail) (id : Nat) (ids ids' : List Nat) :
    t.promoted id (ids ++ ids') = t.promoted id ids ++ t.promoted id ids' :=
  List.flatMap_append

/-- The attempt itself gives way to its children. -/
theorem promoted_cons_self (t : Trail) (id : Nat) (ids : List Nat) :
    t.promoted id (id :: ids) = t.children id ++ t.promoted id ids := by
  rw [promoted, List.flatMap_cons, if_pos rfl, promoted]

/-- The others stay. -/
theorem promoted_cons_of_ne (hne : c ≠ id) (t : Trail) (ids : List Nat) :
    t.promoted id (c :: ids) = c :: t.promoted id ids := by
  rw [promoted, List.flatMap_cons, if_neg hne, promoted, List.singleton_append]

/-- No attempt is its own child. -/
theorem Linked.promoted_children (h : t.Linked) (id : Nat) :
    t.promoted id (t.children id) = t.children id :=
  flatMap_single _ (fun hmem => Nat.lt_irrefl id (h.parent_lt_of_mem hmem)) _

/-- In every list of children but its own the dissolved attempt gives way to its children. -/
theorem Linked.children_dissolve (h : t.Linked) (hparent : t.parent? id = some parent)
    (hne : x ≠ id) : (t.dissolve id).children x = t.promoted id (t.children x) := by
  obtain ⟨before, after, hsplit, hchildren, -⟩ := links_dissolve h hparent
  rw [hchildren]
  split
  · next hx =>
    have hnodup := h.nodup_children parent
    rw [hsplit, List.nodup_append, List.nodup_cons] at hnodup
    have hbefore : id ∉ before := fun hmem => hnodup.2.2 id hmem id List.mem_cons_self rfl
    rw [hx, hsplit, promoted, flatMap_replace hbefore hnodup.2.1.1]
  · next hx =>
    -- It is listed below its parent only.
    have hother : id ∉ t.children x := by
      rw [h.mem_children_iff, hparent, Option.some.injEq]
      exact fun heq => hx heq.symm
    rw [promoted, flatMap_single _ hother]

/-- A walk with parents first passes over the attempt that is dissolved. -/
theorem Descends.dissolve (hlinked : t.Linked) (hparent : t.parent? id = some parent)
    (h : t.Descends stack met) :
    (t.dissolve id).Descends (t.promoted id stack) (met.filter (· != id)) := by
  induction h with
  | done => exact .done
  | @next x stack met _ ih =>
    rw [promoted_append] at ih
    by_cases hx : x = id
    · -- The attempt is not met, but its children are, where it was.
      subst hx
      rw [hlinked.promoted_children] at ih
      rw [promoted_cons_self, List.filter_cons_of_neg (by simp)]
      exact ih
    · rw [promoted_cons_of_ne hx, List.filter_cons_of_pos (by simpa using hx)]
      rw [← hlinked.children_dissolve hparent hx] at ih
      exact .next ih

/-- So does a walk with children first. -/
theorem Ascends.dissolve (hlinked : t.Linked) (hparent : t.parent? id = some parent)
    (h : t.Ascends ids met) :
    (t.dissolve id).Ascends (t.promoted id ids) (met.filter (· != id)) := by
  induction h with
  | done => exact .done
  | @next x ids below after _ _ ihbelow ihafter =>
    rw [List.filter_append]
    by_cases hx : x = id
    · subst hx
      rw [hlinked.promoted_children] at ihbelow
      rw [promoted_cons_self, List.filter_cons_of_neg (by simp)]
      exact ihbelow.append ihafter
    · rw [promoted_cons_of_ne hx, List.filter_cons_of_pos (by simpa using hx)]
      rw [← hlinked.children_dissolve hparent hx] at ihbelow
      exact .next ihbelow ihafter

/-- The walks meet the others as before. -/
theorem Linked.walks_dissolve (h : t.Linked) (hparent : t.parent? id = some parent) :
    (t.dissolve id).preOrder = t.preOrder.filter (· != id) ∧
      (t.dissolve id).postOrder = t.postOrder.filter (· != id) := by
  have hlt := h.parent_lt parent id hparent
  have hne : 0 ≠ id := by omega
  have hsize : 0 < t.size := Nat.zero_lt_of_lt (lt_size_of_parent? hparent)
  have hsize' : 0 < (t.dissolve id).size := (sameStarts_dissolve t id).size ▸ hsize
  have hroot : t.promoted id [0] = [0] := promoted_cons_of_ne hne t []
  -- Both trails have one walk of each kind.
  have hdescends := (h.descends_preOrder hsize).dissolve h hparent
  have hascends := (h.ascends_postOrder hsize).dissolve h hparent
  rw [hroot] at hdescends hascends
  refine ⟨((h.dissolve id).descends_preOrder hsize').unique hdescends, ?_⟩
  have hwalk := ((h.dissolve id).ascends_postOrder hsize').unique hascends
  rw [List.filter_append, List.filter_cons_of_pos (by simpa using hne)] at hwalk
  exact List.append_cancel_right hwalk

/-! ### Ways -/

/-- Dissolving an attempt leaves the ways between the others: what led to it now leads to its
parent, and from there on to its children. -/
theorem reaches_dissolve_of_reaches (hlinked : t.Linked) (hparent : t.parent? id = some parent)
    (hx : x ≠ id) (hreach : t.Reaches x y) :
    (t.dissolve id).Reaches x (if y = id then parent else y) := by
  have hne : parent ≠ id := Nat.ne_of_lt (hlinked.parent_lt parent id hparent)
  -- A child is listed where it was, and a child of the attempt dissolved below the parent.
  have hchild {p c : Nat} (hp : p ≠ id) (hc : c ∈ t.promoted id (t.children p)) :
      c ∈ (t.dissolve id).children p := by
    rwa [hlinked.children_dissolve hparent hp]
  induction hreach with
  | refl =>
    rw [if_neg hx]
    exact .refl
  | @child j c _ hc ih =>
    by_cases hj : j = id
    · subst hj
      rw [if_pos rfl] at ih
      have hcid : c ≠ j := Nat.ne_of_gt (hlinked.parent_lt_of_mem hc)
      rw [if_neg hcid]
      refine ih.child (hchild hne (List.mem_flatMap.mpr ⟨j, ?_, ?_⟩))
      · exact (hlinked.mem_children_iff parent j).mpr hparent
      · rwa [if_pos rfl]
    · rw [if_neg hj] at ih
      by_cases hcid : c = id
      · subst hcid
        rw [hlinked.mem_children_iff, hparent, Option.some.injEq] at hc
        rwa [if_pos rfl, hc]
      · rw [if_neg hcid]
        refine ih.child (hchild hj (List.mem_flatMap.mpr ⟨c, hc, ?_⟩))
        rw [if_neg hcid]
        exact List.mem_singleton_self c

/-- One attempt leads to another as it did before a third was dissolved. -/
theorem Linked.reaches_dissolve_iff (h : t.Linked) (hx : x ≠ id) (hy : y ≠ id) :
    (t.dissolve id).Reaches x y ↔ t.Reaches x y := by
  refine ⟨reaches_of_reaches_dissolve h, fun hreach => ?_⟩
  cases hparent : t.parent? id with
  | none =>
    rw [Trail.dissolve, hparent]
    exact hreach
  | some parent =>
    have hreach' := reaches_dissolve_of_reaches h hparent hx hreach
    rwa [if_neg hy] at hreach'

/-! ### What attempts say -/

/-- A change of links alone. -/
theorem bare?_update (t : Trail) (id : Nat) {f : Attempt → Attempt}
    (hf : ∀ a, (f a).bare = a.bare) : (t.update id f).bare? = t.bare? := by
  funext j
  rw [bare?, bare?, get?_update]
  split
  · rw [Option.map_map]
    congr 1
    funext a
    exact hf a
  · rfl

/-- Bare data leave out the children. -/
@[simp]
theorem bare?_setChildren (t : Trail) (id : Nat) (children : List Nat) :
    (t.setChildren id children).bare? = t.bare? :=
  bare?_update t id fun _ => rfl

/-- They leave out the parent. -/
@[simp]
theorem bare?_setParent (t : Trail) (parent? : Option Nat) (id : Nat) :
    (t.setParent parent? id).bare? = t.bare? :=
  bare?_update t id fun _ => rfl

/-- So to put attempts below another changes none of them. -/
@[simp]
theorem bare?_adopt (t : Trail) (parent? : Option Nat) (ids : List Nat) :
    (t.adopt parent? ids).bare? = t.bare? := by
  induction ids generalizing t with
  | nil => rfl
  | cons id ids ih =>
    rw [adopt, List.foldl_cons]
    exact (ih _).trans (bare?_setParent t parent? id)

/-- To dissolve an attempt changes none, its own included. -/
@[simp]
theorem bare?_dissolve (t : Trail) (id : Nat) : (t.dissolve id).bare? = t.bare? := by
  rw [dissolve]
  split
  · rfl
  · simp only [bare?_setParent, bare?_setChildren, bare?_adopt]

/-! ### Every trail -/

/-- An attempt is taken out of a trail, and its children stand in its place. -/
structure TakenOut (t : Trail) (id : Nat) (u : Trail) : Prop where
  /-- The walk with parents first misses this attempt, and is as it was otherwise. -/
  preOrder : id ∈ t.preOrder ∧ u.preOrder = t.preOrder.erase id
  /-- So does the walk with children first. -/
  postOrder : id ∈ t.postOrder ∧ u.postOrder = t.postOrder.erase id
  /-- Of the others, each stands above those that it stood above. -/
  reaches_iff : ∀ x y, x ≠ id → y ≠ id → (u.Reaches x y ↔ t.Reaches x y)

/-- To dissolve an attempt takes it out of the trail, and nothing else. -/
theorem Linked.takenOut_dissolve (h : t.Linked) (hsize : 0 < t.size) (hreach : t.Reaches 0 id)
    (hne : id ≠ 0) : t.TakenOut id (t.dissolve id) := by
  have hpre := h.nodup_preOrder hsize
  have hpost := (List.nodup_cons.mp ((perm_postOrder hsize).nodup_iff.mpr hpre)).2
  -- Of the attempts within reach only the root has no parent.
  obtain ⟨parent, hparent⟩ : ∃ parent, t.parent? id = some parent := by
    cases hreach with
    | refl => exact absurd rfl hne
    | @child p _ _ hmem => exact ⟨p, (h.mem_children_iff p id).mp hmem⟩
  obtain ⟨hwalk, hwalk'⟩ := h.walks_dissolve hparent
  refine ⟨⟨(h.mem_preOrder hsize).mpr hreach, ?_⟩, ⟨(h.mem_postOrder hsize).mpr ⟨hreach, hne⟩, ?_⟩,
    fun x y => h.reaches_dissolve_iff⟩
  · rw [hwalk, hpre.erase_eq_filter]
  · rw [hwalk', hpost.erase_eq_filter]

/-- The root and what is out of reach is not taken out of any walk. -/
theorem Linked.walks_dissolve_of_not_reaches (h : t.Linked) (hsize : 0 < t.size)
    (hout : id = 0 ∨ ¬t.Reaches 0 id) :
    (t.dissolve id).preOrder = t.preOrder ∧ (t.dissolve id).postOrder = t.postOrder := by
  rcases hparent : t.parent? id with _ | parent
  · rw [Trail.dissolve, hparent]
    exact ⟨rfl, rfl⟩
  · have hne : id ≠ 0 := Nat.ne_of_gt (Nat.zero_lt_of_lt (h.parent_lt parent id hparent))
    have hreach := hout.resolve_left hne
    obtain ⟨hwalk, hwalk'⟩ := h.walks_dissolve hparent
    rw [hwalk, hwalk', List.filter_eq_self, List.filter_eq_self]
    constructor
    · rintro x hx
      refine bne_iff_ne.mpr ?_
      rintro rfl
      exact hreach ((h.mem_preOrder hsize).mp hx)
    · rintro x hx
      refine bne_iff_ne.mpr ?_
      rintro rfl
      exact hreach ((h.mem_postOrder hsize).mp hx).1

/-- Dissolving an attempt within reach takes it out of every trail that can be built, and the others
stay as they are. Dissolving the root or an attempt out of reach leaves all walks as they are. In
any case the attempts of the arena say of themselves what they said. -/
theorem dissolving_takes_one_out (h : Built t) (id : Nat) :
    (t.Reaches 0 id → id ≠ 0 → t.TakenOut id (t.dissolve id)) ∧
    (id = 0 ∨ ¬t.Reaches 0 id →
      (t.dissolve id).preOrder = t.preOrder ∧ (t.dissolve id).postOrder = t.postOrder) ∧
    (t.dissolve id).size = t.size ∧ (t.dissolve id).bare? = t.bare? := by
  obtain ⟨hlinked, hsize⟩ := h.linked
  exact ⟨hlinked.takenOut_dissolve hsize, hlinked.walks_dissolve_of_not_reaches hsize,
    (sameStarts_dissolve t id).size, bare?_dissolve t id⟩

/-- Attempts in two branches; the last is out of reach. -/
def branching : List Operation :=
  [.push 0 0 "a" false, .push 1 0 "b" false, .push 2 0 "c" false, .push 1 1 "d" true,
    .push 0 1 "e" false, .push 5 1 "f" false, .clearChildren 5]

/-- The trail of these attempts. -/
def branches : Trail :=
  branching.foldl (fun t o => o.apply t) (start 0)

/-- The first of them is dissolved, and its two children stand in its place; nothing comes of
dissolving the last. -/
theorem dissolving_takes_one_out_branches :
    branches.preOrder = [0, 1, 2, 3, 4, 5] ∧ branches.TakenOut 1 (branches.dissolve 1) ∧
      (branches.dissolve 1).preOrder = [0, 2, 3, 4, 5] ∧
      (branches.dissolve 1).postOrder = [3, 2, 4, 5] ∧
      (branches.dissolve 6).preOrder = branches.preOrder := by
  have hafter : (start 0).after branching = some branches := rfl
  have hbuilt := (Built.start 0).after hafter
  obtain ⟨hlinked, hsize⟩ := hbuilt.linked
  have hreach (id : Nat) : branches.Reaches 0 id ↔ id ∈ branches.preOrder :=
    (hlinked.mem_preOrder hsize).symm
  obtain ⟨hout, -, -⟩ := dissolving_takes_one_out hbuilt 1
  obtain ⟨-, hsame, -⟩ := dissolving_takes_one_out hbuilt 6
  refine ⟨by decide, hout ((hreach 1).mpr (by decide)) (by decide), by decide, by decide, ?_⟩
  refine (hsame (.inr ?_)).1
  rw [hreach]
  decide

end ParseTrail.Trail
