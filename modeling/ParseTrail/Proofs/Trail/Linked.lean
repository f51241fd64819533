import ParseTrail.Proofs.Trail.Basic

/-!
# Linked trails

Child lists and parents say the same thing, every attempt is younger than its parent, and no child
is listed twice: a trail is linked at its start, and every operation keeps it so.

- `linked_start`, `Linked.push`, `Linked.close`, `Linked.clearChildren`, `Linked.dissolve`,
  `Linked.dissolveToAnchor`.
-/

namespace ParseTrail.Trail

variable {t u : Trail} {id parent c j : Nat} {ids : List Nat}

/-- The links between attempts agree. -/
structure Linked (t : Trail) : Prop where
  mem_children_iff : ∀ parent c, c ∈ t.children parent ↔ t.parent? c = some parent
  parent_lt : ∀ parent c, t.parent? c = some parent → parent < c
  nodup_children : ∀ parent, (t.children parent).Nodup

/-! ### Links after each operation -/

/-- What is not below the size of the trail is not on it. -/
theorem get?_eq_none_iff : t.get? id = none ↔ t.size ≤ id :=
  Array.getElem?_eq_none_iff

/-- Only attempts on the trail have parents. -/
theorem lt_size_of_parent? (h : t.parent? c = some parent) : c < t.size := by
  rw [← Nat.not_le, ← get?_eq_none_iff]
  intro hnone
  rw [parent?, hnone] at h
  cases h

/-- Only attempts on the trail have children. -/
theorem lt_size_of_mem_children (h : c ∈ t.children parent) : parent < t.size := by
  rw [← Nat.not_le, ← get?_eq_none_iff]
  intro hnone
  rw [children, hnone] at h
  cases h

/-- A change that keeps the children of an attempt keeps all children. -/
theorem children_update (t : Trail) (id : Nat) {f : Attempt → Attempt}
    (hf : ∀ a, (f a).children = a.children) : (t.update id f).children = t.children := by
  funext j
  rw [children, children, get?_update]
  split
  · rw [Option.map_map]
    congr 2
    funext a
    exact hf a
  · rfl

/-- A change that keeps the parent of an attempt keeps all parents. -/
theorem parent?_update (t : Trail) (id : Nat) {f : Attempt → Attempt}
    (hf : ∀ a, (f a).parent? = a.parent?) : (t.update id f).parent? = t.parent? := by
  funext j
  rw [parent?, parent?, get?_update]
  split
  · rcases t.get? j with _ | a
    · rfl
    · exact hf a
  · rfl

/-- To set a parent leaves all children. -/
@[simp]
theorem children_setParent (t : Trail) (parent? : Option Nat) (id : Nat) :
    (t.setParent parent? id).children = t.children :=
  children_update t id fun _ => rfl

/-- To set children leaves all parents. -/
@[simp]
theorem parent?_setChildren (t : Trail) (id : Nat) (children : List Nat) :
    (t.setChildren id children).parent? = t.parent? :=
  parent?_update t id fun _ => rfl

/-- To put attempts below another leaves all children, as it sets their parents only. -/
@[simp]
theorem children_adopt (t : Trail) (parent? : Option Nat) (ids : List Nat) :
    (t.adopt parent? ids).children = t.children := by
  induction ids generalizing t with
  | nil => rfl
  | cons id ids ih =>
    rw [adopt, List.foldl_cons]
    exact (ih _).trans (children_setParent t parent? id)

/-- To set children sets those of one attempt. -/
theorem children_setChildren (hid : id < t.size) (children : List Nat) (j : Nat) :
    (t.setChildren id children).children j = if j = id then children else t.children j := by
  rw [Trail.children, setChildren, get?_update]
  by_cases h : j = id
  · subst h
    obtain ⟨a, ha⟩ : ∃ a, t.get? j = some a := ⟨_, Array.getElem?_eq_getElem hid⟩
    rw [if_pos rfl, if_pos rfl, ha]
    rfl
  · rw [if_neg h, if_neg fun heq => h heq.symm]
    rfl

/-- To set a parent sets that of one attempt. -/
theorem parent?_setParent (hid : id < t.size) (parent? : Option Nat) (j : Nat) :
    (t.setParent parent? id).parent? j = if j = id then parent? else t.parent? j := by
  rw [Trail.parent?, setParent, get?_update]
  by_cases h : j = id
  · subst h
    obtain ⟨a, ha⟩ : ∃ a, t.get? j = some a := ⟨_, Array.getElem?_eq_getElem hid⟩
    rw [if_pos rfl, if_pos rfl, ha]
    rfl
  · rw [if_neg h, if_neg fun heq => h heq.symm]
    rfl

/-- To put attempts below another sets the parent of each. -/
theorem parent?_adopt (hids : ∀ id ∈ ids, id < t.size) (parent? : Option Nat) (j : Nat) :
    (t.adopt parent? ids).parent? j = if j ∈ ids then parent? else t.parent? j := by
  rw [Trail.parent?, get?_adopt]
  by_cases h : j ∈ ids
  · obtain ⟨a, ha⟩ : ∃ a, t.get? j = some a := ⟨_, Array.getElem?_eq_getElem (hids j h)⟩
    rw [if_pos h, if_pos h, ha]
    rfl
  · rw [if_neg h, if_neg h]
    rfl

/-- A new attempt comes after the children that its parent has. -/
theorem children_push (hparent : parent < t.size) (offset : Nat) (label : String) (anchor : Bool)
    (j : Nat) :
    (t.push parent offset label anchor).2.children j =
      if j = parent then t.children parent ++ [t.size] else t.children j := by
  rw [children, get?_push t hparent]
  by_cases hsize : j = t.size
  · rw [if_pos hsize, if_neg (by omega), children, get?_eq_none_iff.mpr (by omega)]
    rfl
  · rw [if_neg hsize]
    by_cases hj : j = parent
    · subst hj
      obtain ⟨a, ha⟩ : ∃ a, t.get? j = some a := ⟨_, Array.getElem?_eq_getElem hparent⟩
      rw [if_pos rfl, if_pos rfl, ha]
      rfl
    · rw [if_neg hj, if_neg hj]
      rfl

/-- It is the only one whose parent changes. -/
theorem parent?_push (hparent : parent < t.size) (offset : Nat) (label : String) (anchor : Bool)
    (j : Nat) :
    (t.push parent offset label anchor).2.parent? j =
      if j = t.size then some parent else t.parent? j := by
  rw [parent?, get?_push t hparent]
  by_cases hsize : j = t.size
  · rw [if_pos hsize, if_pos hsize]
    rfl
  · rw [if_neg hsize, if_neg hsize]
    by_cases hj : j = parent
    · subst hj
      obtain ⟨a, ha⟩ : ∃ a, t.get? j = some a := ⟨_, Array.getElem?_eq_getElem hparent⟩
      rw [if_pos rfl, parent?, ha]
      rfl
    · rw [if_neg hj]
      rfl

/-- To drop the children of an attempt drops those of no other. -/
theorem children_clearChildren (hid : id < t.size) (p : Nat) :
    (t.clearChildren id).children p = if p = id then [] else t.children p := by
  rw [clearChildren, children_setChildren (by rwa [size_adopt]), children_adopt]

/-! ### Operations keep trails linked -/

/-- A trail that has just started has no links. -/
theorem linked_start (offset : Nat) : (start offset).Linked where
  mem_children_iff parent c := by
    constructor
    · intro h
      rcases parent with _ | parent
      · cases h
      · cases h
    · intro h
      rcases c with _ | c
      · cases h
      · cases h
  parent_lt parent c h := by
    rcases c with _ | c
    · cases h
    · cases h
  nodup_children parent := by
    rcases parent with _ | parent
    · exact List.nodup_nil
    · exact List.nodup_nil

namespace Linked

/-- Parents are older than their children. -/
theorem parent_lt_of_mem (h : t.Linked) (hc : c ∈ t.children parent) : parent < c :=
  h.parent_lt parent c ((h.mem_children_iff parent c).mp hc)

/-- Children are on the trail. -/
theorem lt_size_of_mem (h : t.Linked) (hc : c ∈ t.children parent) : c < t.size :=
  lt_size_of_parent? ((h.mem_children_iff parent c).mp hc)

/-- An operation that changes no link. -/
theorem of_same_links (h : t.Linked) (hchildren : u.children = t.children)
    (hparent : u.parent? = t.parent?) : u.Linked where
  mem_children_iff := by
    rw [hchildren, hparent]
    exact h.mem_children_iff
  parent_lt := by
    rw [hparent]
    exact h.parent_lt
  nodup_children := by
    rw [hchildren]
    exact h.nodup_children

/-- The links of a new attempt agree. -/
theorem push (h : t.Linked) (hparent : parent < t.size) (offset : Nat) (label : String)
    (anchor : Bool) : (t.push parent offset label anchor).2.Linked := by
  -- The new attempt has no links yet.
  have hnew (p : Nat) : t.size ∉ t.children p := fun hmem =>
    Nat.lt_irrefl _ (h.lt_size_of_mem hmem)
  refine ⟨fun p c => ?_, fun p c => ?_, fun p => ?_⟩
  · -- The new attempt is listed below `parent`, and says so.
    rw [children_push hparent, parent?_push hparent]
    by_cases hc : c = t.size
    · subst hc
      by_cases hp : p = parent
      · simp [hp]
      · simp [hp, hnew p, Ne.symm hp]
    · rw [if_neg hc, ← h.mem_children_iff]
      by_cases hp : p = parent
      · simp [hp, hc]
      · simp [hp]
  · -- It is younger than all there were.
    rw [parent?_push hparent]
    by_cases hc : c = t.size
    · rw [if_pos hc, Option.some.injEq]
      omega
    · rw [if_neg hc]
      exact h.parent_lt p c
  · rw [children_push hparent]
    by_cases hp : p = parent
    · rw [if_pos hp, List.nodup_append]
      refine ⟨h.nodup_children parent, by simp, ?_⟩
      intro a ha b hb heq
      rw [List.mem_singleton] at hb
      exact hnew parent (hb ▸ heq ▸ ha)
    · rw [if_neg hp]
      exact h.nodup_children p

/-- To close an attempt touches no link. -/
theorem close (h : t.Linked) (id stop : Nat) (failed : Bool) : (t.close id stop failed).Linked :=
  h.of_same_links (children_update t id fun _ => rfl) (parent?_update t id fun _ => rfl)

/-- The children that are dropped have no parent any more. -/
theorem parent?_clearChildren (h : t.Linked) (id c : Nat) :
    (t.clearChildren id).parent? c = if c ∈ t.children id then none else t.parent? c := by
  rw [Trail.clearChildren, parent?_setChildren, parent?_adopt fun c => h.lt_size_of_mem]

/-- So the links agree without them. -/
theorem clearChildren (h : t.Linked) (hid : id < t.size) : (t.clearChildren id).Linked := by
  -- The children of `id` lose their parent, and it loses them.
  have hchildren := children_clearChildren hid
  have hparent := h.parent?_clearChildren id
  refine ⟨fun p c => ?_, fun p c => ?_, fun p => ?_⟩
  · rw [hchildren, hparent]
    by_cases hc : c ∈ t.children id
    · -- A child of `id` is a child of no other attempt.
      have hother : p ≠ id → c ∉ t.children p := by
        intro hp hmem
        rw [h.mem_children_iff] at hc hmem
        rw [hc, Option.some.injEq] at hmem
        exact hp hmem.symm
      by_cases hp : p = id
      · simp [hc, hp]
      · simp [hc, hp, hother hp]
    · rw [if_neg hc, ← h.mem_children_iff]
      by_cases hp : p = id
      · rw [if_pos hp, hp]
        simp [hc]
      · rw [if_neg hp]
  · rw [hparent]
    by_cases hc : c ∈ t.children id
    · simp [hc]
    · rw [if_neg hc]
      exact h.parent_lt p c
  · rw [hchildren]
    by_cases hp : p = id
    · rw [if_pos hp]
      exact List.nodup_nil
    · rw [if_neg hp]
      exact h.nodup_children p

/-- Marks touch no link. -/
theorem dissolveToAnchor (h : t.Linked) (id : Nat) : (t.dissolveToAnchor id).Linked := by
  rw [Trail.dissolveToAnchor]
  generalize (t.ancestors id).takeWhile (!t.isAnchor ·) = ids
  -- Attempts are only marked, one after the other.
  induction ids generalizing t with
  | nil => exact h
  | cons id ids ih =>
    exact ih (h.of_same_links (children_update t id fun _ => rfl)
      (parent?_update t id fun _ => rfl))

end Linked

/-! ### Dissolving -/

/-- To replace what does not occur changes nothing. -/
theorem flatMap_single (ids : List Nat) (hid : id ∉ ids) (others : List Nat) :
    (ids.flatMap fun c => if c = id then others else [c]) = ids := by
  induction ids with
  | nil => rfl
  | cons c ids ih =>
    rw [List.mem_cons, not_or] at hid
    rw [List.flatMap_cons, ih hid.2, if_neg fun heq => hid.1 heq.symm, List.singleton_append]

/-- Putting other attempts in the place of one. -/
theorem flatMap_replace {before after : List Nat} (hbefore : id ∉ before) (hafter : id ∉ after)
    (others : List Nat) :
    ((before ++ id :: after).flatMap fun c => if c = id then others else [c]) =
      before ++ (others ++ after) := by
  rw [List.flatMap_append, List.flatMap_cons, flatMap_single _ hbefore, flatMap_single _ hafter,
    if_pos rfl]

/-- The links after an attempt has been dissolved: its children stand where it stood. -/
theorem links_dissolve (h : t.Linked) (hparent : t.parent? id = some parent) :
    ∃ before after, t.children parent = before ++ id :: after ∧
      (∀ p, (t.dissolve id).children p =
        if p = parent then before ++ (t.children id ++ after)
        else if p = id then [] else t.children p) ∧
      ∀ c, (t.dissolve id).parent? c =
        if c = id then none else if c ∈ t.children id then some parent else t.parent? c := by
  have hid : id < t.size := lt_size_of_parent? hparent
  have hlt : parent < id := h.parent_lt _ _ hparent
  have hids : ∀ c ∈ t.children id, c < t.size := fun c => h.lt_size_of_mem
  have hne : parent ≠ id := by omega
  obtain ⟨before, after, hsplit⟩ := List.append_of_mem ((h.mem_children_iff _ _).mpr hparent)
  have hnodup := h.nodup_children parent
  rw [hsplit, List.nodup_append, List.nodup_cons] at hnodup
  have hbefore : id ∉ before := fun hmem => hnodup.2.2 id hmem id List.mem_cons_self rfl
  refine ⟨before, after, hsplit, ?_⟩
  -- Adopting writes parents, replacing writes two child lists, and last the attempt loses its own
  -- parent. The attempts written to are different ones.
  rw [dissolve, hparent]
  dsimp only
  constructor
  · intro p
    rw [children_setParent, children_setChildren (by simp; omega),
      children_setChildren (by simpa using hid), children_adopt, if_neg hne,
      children_setChildren (by simpa using hid), children_adopt, hsplit,
      flatMap_replace hbefore hnodup.2.1.1]
  · intro c
    rw [parent?_setParent (by simpa using hid), parent?_setChildren, parent?_setChildren,
      parent?_adopt hids]

/-- The links agree once the children stand in the place of their parent. -/
theorem Linked.dissolve (h : t.Linked) (id : Nat) : (t.dissolve id).Linked := by
  cases hparent : t.parent? id with
  | none =>
    rw [Trail.dissolve, hparent]
    exact h
  | some parent =>
    obtain ⟨before, after, hsplit, hchildren, hparents⟩ := links_dissolve h hparent
    have hlt : parent < id := h.parent_lt _ _ hparent
    have hself : id ∉ t.children id := fun hc => Nat.lt_irrefl _ (h.parent_lt_of_mem hc)
    have hnodup := h.nodup_children parent
    rw [hsplit] at hnodup
    -- No attempt is a child of both `id` and another.
    have honly {p c : Nat} (hc : c ∈ t.children id) : c ∈ t.children p ↔ p = id := by
      rw [h.mem_children_iff] at hc ⊢
      rw [hc, Option.some.injEq]
      exact eq_comm
    have hdisjoint {c : Nat} (hc : c ∈ t.children id) : c ∉ before ∧ c ∉ after := by
      have hother : c ∉ before ++ id :: after := by
        rw [← hsplit, honly hc]
        omega
      simp only [List.mem_append, List.mem_cons, not_or] at hother
      exact ⟨hother.1, hother.2.2⟩
    -- Child lists and parents are compared at the parent, at the attempt itself, and elsewhere.
    refine ⟨fun p c => ?_, fun p c => ?_, fun p => ?_⟩
    · have hiff := h.mem_children_iff p c
      rw [hchildren, hparents]
      by_cases hp : p = parent
      · subst hp
        rw [hsplit] at hiff
        by_cases hc : c = id
        · subst hc
          simp only [List.nodup_append, List.nodup_cons] at hnodup
          simp only [if_pos, List.mem_append, reduceCtorEq, iff_false, not_or]
          exact ⟨fun hmem => hnodup.2.2 c hmem c List.mem_cons_self rfl, hself, hnodup.2.1.1⟩
        · by_cases hchild : c ∈ t.children id
          · simp [hc, hchild]
          · simp only [List.mem_append, List.mem_cons, hc, false_or] at hiff
            simp [hc, hchild, hiff]
      · rw [if_neg hp]
        by_cases hp' : p = id
        · subst hp'
          by_cases hc : c = p
          · simp [hc]
          · by_cases hchild : c ∈ t.children p
            · simp [hc, hchild]
              omega
            · simp [hc, hchild, ← hiff]
        · rw [if_neg hp', hiff]
          by_cases hc : c = id
          · subst hc
            simp [hparent, Ne.symm hp]
          · by_cases hchild : c ∈ t.children id
            · have hp'' := (h.mem_children_iff id c).mp hchild
              simp [hc, hchild, hp'', Ne.symm hp, Ne.symm hp']
            · simp [hc, hchild]
    · rw [hparents]
      split
      · rintro ⟨⟩
      · split
        · next hchild =>
          rw [Option.some.injEq]
          -- A child moves up to an attempt that is older still.
          rintro rfl
          exact Nat.lt_trans hlt (h.parent_lt_of_mem hchild)
        · exact h.parent_lt p c
    · rw [hchildren]
      split
      · simp only [List.nodup_append, List.nodup_cons, List.mem_cons, List.mem_append] at hnodup ⊢
        refine ⟨hnodup.1, ⟨h.nodup_children id, hnodup.2.1.2, ?_⟩, ?_⟩
        · rintro a ha b hb rfl
          exact (hdisjoint ha).2 hb
        · rintro a ha b (hb | hb) rfl
          · exact (hdisjoint hb).1 ha
          · exact hnodup.2.2 a ha a (.inr hb) rfl
      · split
        · exact List.nodup_nil
        · exact h.nodup_children p

end ParseTrail.Trail
