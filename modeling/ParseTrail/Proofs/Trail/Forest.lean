import ParseTrail.Proofs.Trail.Reach

/-!
# Forests of attempts

What a stretch of parsing adds to a trail, as plain trees: where each attempt starts, whether it
failed, and what was made for it. A trail holds a forest below an attempt as a list of children.
Two facts carry everything else:

- `Holds.of_same`: a forest stays as it is while attempts elsewhere change;
- `Standing.push` and its companions: how the attempt in progress, with the forest below it, goes
  through each operation on the trail, down to `Standing.dissolve`, where the forest takes the
  place of the attempt.
-/

namespace ParseTrail

/-- Attempts side by side, each with those made for it. -/
inductive Forest where
  | nil
  | cons (start : Nat) (failed : Bool) (below rest : Forest)

namespace Forest

/-- Two forests side by side. -/
def append : Forest → Forest → Forest
  | nil, G => G
  | cons start failed below rest, G => cons start failed below (rest.append G)

instance : Append Forest := ⟨append⟩

/-- Where the attempts start. -/
def starts : Forest → List Nat
  | nil => []
  | cons start _ below rest => start :: (below.starts ++ rest.starts)

/-- Where those attempts start that failed, or were made for one that failed. -/
def blamed : Forest → List Nat
  | nil => []
  | cons start failed below rest =>
    (if failed then start :: below.starts else below.blamed) ++ rest.blamed

/-- Where the outermost attempts start that failed. -/
def failures : Forest → List Nat
  | nil => []
  | cons start failed _ rest => (if failed then [start] else []) ++ rest.failures

/-- Where all attempts start that failed, at whatever depth. -/
def allFailures : Forest → List Nat
  | nil => []
  | cons start failed below rest =>
    (if failed then [start] else []) ++ (below.allFailures ++ rest.allFailures)

variable {n start : Nat} {failed : Bool} {F G below rest : Forest}

@[simp]
theorem nil_append (G : Forest) : nil ++ G = G := rfl

@[simp]
theorem cons_append (start : Nat) (failed : Bool) (below rest G : Forest) :
    cons start failed below rest ++ G = cons start failed below (rest ++ G) := rfl

/-- Forests side by side have the starts of both. -/
@[simp]
theorem starts_append (F G : Forest) : (F ++ G).starts = F.starts ++ G.starts := by
  induction F with
  | nil => rfl
  | cons start failed below rest _ ih =>
    rw [cons_append, starts, starts, ih, List.cons_append, List.append_assoc]

/-- They have the starts to blame of both. -/
@[simp]
theorem blamed_append (F G : Forest) : (F ++ G).blamed = F.blamed ++ G.blamed := by
  induction F with
  | nil => rfl
  | cons start failed below rest _ ih =>
    rw [cons_append, blamed, blamed, ih, List.append_assoc]

/-- They have the outermost failures of both. -/
@[simp]
theorem failures_append (F G : Forest) : (F ++ G).failures = F.failures ++ G.failures := by
  induction F with
  | nil => rfl
  | cons start failed below rest _ ih =>
    rw [cons_append, failures, failures, ih, List.append_assoc]

/-- The outermost failures are to blame. -/
theorem mem_blamed_of_mem_failures (h : n ∈ F.failures) : n ∈ F.blamed := by
  induction F with
  | nil => exact h
  | cons start failed below rest _ ih =>
    rw [failures, List.mem_append] at h
    rw [blamed, List.mem_append]
    rcases h with h | h
    · cases failed with
      | false => cases h
      | true => exact .inl (List.mem_singleton.mp h ▸ List.mem_cons_self)
    · exact .inr (ih h)

/-- What is to blame is one of the attempts. -/
theorem mem_starts_of_mem_blamed (h : n ∈ F.blamed) : n ∈ F.starts := by
  induction F with
  | nil => exact h
  | cons start failed below rest ihbelow ihrest =>
    rw [blamed, List.mem_append] at h
    rw [starts, ← List.cons_append, List.mem_append]
    rcases h with h | h
    · cases failed with
      | false => exact .inl (List.mem_cons_of_mem _ (ihbelow h))
      | true => exact .inl h
    · exact .inr (ihrest h)

end Forest

/-! ### What a trail says of an attempt besides its links -/

/-- What a trail says of an attempt besides its links. -/
structure Note where
  /-- Where the attempt starts. -/
  start : Nat
  /-- Whether it failed. -/
  failed : Bool
  /-- Whether it is to be dissolved when it completes. -/
  dissolving : Bool

/-- What a trail says of an attempt besides its links. -/
def Attempt.note (a : Attempt) : Note :=
  ⟨a.span.start, a.failed, a.dissolving⟩

namespace Trail

variable {t u v : Trail} {id parent c j x n lo start target : Nat} {ids more : List Nat}
  {failed failed' : Bool} {F G : Forest}

/-- What the trail says of an attempt besides its links. -/
def note? (t : Trail) (id : Nat) : Option Note :=
  (t.get? id).map Attempt.note

/-- Only attempts on the trail have notes. -/
theorem lt_size_of_note? {note : Note} (h : t.note? id = some note) : id < t.size := by
  rw [← Nat.not_le, ← get?_eq_none_iff]
  intro hnone
  rw [note?, hnone] at h
  cases h

/-- The note has the start of the attempt. -/
theorem startOf_of_note? {note : Note} (h : t.note? id = some note) :
    t.startOf id = note.start := by
  obtain ⟨a, ha, rfl⟩ := Option.map_eq_some_iff.mp h
  rw [startOf, ha]
  rfl

/-- It says whether the attempt failed. -/
theorem failed_of_note? {note : Note} (h : t.note? id = some note) :
    (t.get? id).any (·.failed) = note.failed := by
  obtain ⟨a, ha, rfl⟩ := Option.map_eq_some_iff.mp h
  rw [ha]
  rfl

/-- It says whether the attempt is to be dissolved. -/
theorem isDissolving_of_note? {note : Note} (h : t.note? id = some note) :
    t.isDissolving id = note.dissolving := by
  obtain ⟨a, ha, rfl⟩ := Option.map_eq_some_iff.mp h
  rw [isDissolving, ha]
  rfl

/-- To change what the notes leave out changes no note. -/
theorem note?_update (t : Trail) (id : Nat) {f : Attempt → Attempt}
    (hf : ∀ a, (f a).note = a.note) : (t.update id f).note? = t.note? := by
  funext j
  rw [note?, note?, get?_update]
  split
  · rw [Option.map_map]
    congr 1
    funext a
    exact hf a
  · rfl

/-- The children of an attempt are not in its note. -/
@[simp]
theorem note?_setChildren (t : Trail) (id : Nat) (children : List Nat) :
    (t.setChildren id children).note? = t.note? :=
  note?_update t id fun _ => rfl

/-- Neither is its parent. -/
@[simp]
theorem note?_setParent (t : Trail) (parent? : Option Nat) (id : Nat) :
    (t.setParent parent? id).note? = t.note? :=
  note?_update t id fun _ => rfl

/-- So to take in attempts changes no note. -/
@[simp]
theorem note?_adopt (t : Trail) (parent? : Option Nat) (ids : List Nat) :
    (t.adopt parent? ids).note? = t.note? := by
  induction ids generalizing t with
  | nil => rfl
  | cons id ids ih =>
    rw [adopt, List.foldl_cons]
    exact (ih _).trans (note?_setParent t parent? id)

/-- To drop the children of an attempt changes none, their own included. -/
@[simp]
theorem note?_clearChildren (t : Trail) (id : Nat) : (t.clearChildren id).note? = t.note? := by
  rw [clearChildren, note?_setChildren, note?_adopt]

/-- To dissolve an attempt changes none, its own included. -/
@[simp]
theorem note?_dissolve (t : Trail) (id : Nat) : (t.dissolve id).note? = t.note? := by
  -- Dissolving writes links only.
  rw [dissolve]
  split
  · rfl
  · dsimp only
    rw [note?_setParent, note?_setChildren, note?_setChildren, note?_adopt]

/-- A new attempt has a note of its own and leaves the others. -/
theorem note?_push (hparent : parent < t.size) (offset : Nat) (label : String) (anchor : Bool)
    (j : Nat) :
    (t.push parent offset label anchor).2.note? j =
      if j = t.size then some ⟨offset, false, false⟩ else t.note? j := by
  rw [note?, get?_push t hparent]
  by_cases hsize : j = t.size
  · rw [if_pos hsize, if_pos hsize]
    rfl
  · rw [if_neg hsize, if_neg hsize]
    split
    · rw [Option.map_map]
      rfl
    · rfl

/-- To close an attempt notes whether it failed. -/
theorem note?_close (id stop : Nat) (failed : Bool) (j : Nat) :
    (t.close id stop failed).note? j =
      if j = id then (t.note? j).map fun note => { note with failed } else t.note? j := by
  rw [note?, close, get?_update]
  by_cases h : j = id
  · rw [if_pos h.symm, if_pos h, note?, Option.map_map, Option.map_map]
    rfl
  · rw [if_neg h, if_neg (Ne.symm h)]
    rfl

/-! ### Forests on a trail -/

/-- The trail holds a forest whose outermost attempts are `ids`. All attempts of the forest come at
or after `lo`. -/
inductive Holds (t : Trail) (lo : Nat) : List Nat → Forest → Prop
  | nil : Holds t lo [] .nil
  | cons {id : Nat} {ids : List Nat} {note : Note} {below rest : Forest} :
    lo ≤ id → t.note? id = some note → Holds t lo (t.children id) below → Holds t lo ids rest →
    Holds t lo (id :: ids) (.cons note.start note.failed below rest)

namespace Holds

/-- A forest stays while its attempts keep their children and what is said of them. -/
theorem of_same (h : t.Holds lo ids F)
    (hsame : ∀ j, lo ≤ j → j < t.size → u.note? j = t.note? j ∧ u.children j = t.children j) :
    u.Holds lo ids F := by
  induction h with
  | nil => exact .nil
  | cons hlo hnote _ _ ihbelow ihrest =>
    -- By induction on the forest: its attempts are on the trail, so they are among those that keep
    -- what they had.
    obtain ⟨hnote', hchildren⟩ := hsame _ hlo (lt_size_of_note? hnote)
    refine .cons hlo (hnote'.trans hnote) ?_ ihrest
    rw [hchildren]
    exact ihbelow

/-- What holds above a number holds above all smaller ones. -/
theorem mono (h : t.Holds lo ids F) (hlo : c ≤ lo) : t.Holds c ids F := by
  induction h with
  | nil => exact .nil
  | cons hid hnote _ _ ihbelow ihrest =>
    exact .cons (Nat.le_trans hlo hid) hnote ihbelow ihrest

/-- Attempts side by side make a forest side by side. -/
theorem append (hF : t.Holds lo ids F) (hG : t.Holds lo more G) :
    t.Holds lo (ids ++ more) (F ++ G) := by
  induction hF with
  | nil => exact hG
  | cons hid hnote hbelow _ _ ihrest => exact .cons hid hnote hbelow ihrest

/-! ### Looking a forest up -/

/-- What is within reach of one of several attempts: the first of them, what is within reach of its
children, and what is within reach of the others. -/
theorem exists_reaches_cons_iff {P : Nat → Prop} :
    (∃ c ∈ id :: ids, ∃ j, t.Reaches c j ∧ P j) ↔
      P id ∨ (∃ c ∈ t.children id, ∃ j, t.Reaches c j ∧ P j) ∨
        ∃ c ∈ ids, ∃ j, t.Reaches c j ∧ P j := by
  constructor
  · rintro ⟨c, hc, j, hj, hP⟩
    rcases List.mem_cons.mp hc with rfl | hc
    · rcases Reaches.head_iff.mp hj with rfl | ⟨d, hd, hj⟩
      · exact .inl hP
      · exact .inr (.inl ⟨d, hd, j, hj, hP⟩)
    · exact .inr (.inr ⟨c, hc, j, hj, hP⟩)
  · rintro (hP | ⟨c, hc, j, hj, hP⟩ | ⟨c, hc, j, hj, hP⟩)
    · exact ⟨id, List.mem_cons_self, id, .refl, hP⟩
    · exact ⟨id, List.mem_cons_self, j, .of_child hc hj, hP⟩
    · exact ⟨c, List.mem_cons_of_mem _ hc, j, hj, hP⟩

/-- The attempts of a forest are those within reach of its outermost. -/
theorem mem_starts_iff (h : t.Holds lo ids F) :
    n ∈ F.starts ↔ ∃ id ∈ ids, ∃ j, t.Reaches id j ∧ t.startOf j = n := by
  induction h with
  | nil => simp [Forest.starts]
  | cons _ hnote _ _ ihbelow ihrest =>
    rw [Forest.starts, List.mem_cons, List.mem_append, ihbelow, ihrest, exists_reaches_cons_iff,
      startOf_of_note? hnote, eq_comm]

/-- The failed attempts of a forest are the failed ones within reach of its outermost. -/
theorem mem_allFailures_iff (h : t.Holds lo ids F) :
    n ∈ F.allFailures ↔
      ∃ id ∈ ids, ∃ j, t.Reaches id j ∧ (t.get? j).any (·.failed) ∧ t.startOf j = n := by
  induction h with
  | nil => simp [Forest.allFailures]
  | @cons _ _ note _ _ _ hnote _ _ ihbelow ihrest =>
    have hself : n ∈ (if note.failed then [note.start] else []) ↔ note.failed ∧ note.start = n := by
      rw [List.mem_ite_nil_right, List.mem_singleton, @eq_comm _ n]
    rw [Forest.allFailures, List.mem_append, List.mem_append, ihbelow, ihrest,
      exists_reaches_cons_iff, startOf_of_note? hnote, failed_of_note? hnote, hself]

/-- What is blamed was made for an attempt that failed. -/
theorem exists_failed_of_mem_blamed (h : t.Holds lo ids F) (hn : n ∈ F.blamed) :
    ∃ id ∈ ids, ∃ x j, t.Reaches id x ∧ (t.get? x).any (·.failed) ∧ t.Reaches x j ∧
      t.startOf j = n := by
  induction h with
  | nil => cases hn
  | @cons id ids note below rest hlo hnote hbelow hrest ihbelow ihrest =>
    rw [Forest.blamed, List.mem_append] at hn
    rcases hn with hn | hn
    · by_cases hfailed : note.failed
      · -- The attempt failed itself, so all that was made for it is blamed.
        rw [if_pos hfailed] at hn
        have hall : n ∈ (Forest.cons note.start note.failed below .nil).starts := by
          rw [Forest.starts, Forest.starts, List.append_nil]
          exact hn
        obtain ⟨c, hc, j, hj, hstart⟩ := (cons hlo hnote hbelow nil).mem_starts_iff.mp hall
        rw [List.mem_singleton.mp hc] at hj
        exact ⟨id, List.mem_cons_self, id, j, .refl, failed_of_note? hnote ▸ hfailed, hj, hstart⟩
      · rw [if_neg hfailed] at hn
        obtain ⟨c, hc, x, j, hx, hany, hj⟩ := ihbelow hn
        exact ⟨id, List.mem_cons_self, x, j, .of_child hc hx, hany, hj⟩
    · obtain ⟨c, hc, hx⟩ := ihrest hn
      exact ⟨c, List.mem_cons_of_mem _ hc, hx⟩

end Holds

/-! ### Growth -/

/-- A trail grows below an attempt: attempts are added, of which that attempt gets `ids` as its last
children, and nothing else changes. -/
structure Grows (t u : Trail) (target : Nat) (ids : List Nat) : Prop where
  size_le : t.size ≤ u.size
  note? : ∀ j < t.size, u.note? j = t.note? j
  parent? : ∀ j < t.size, u.parent? j = t.parent? j
  children : ∀ j < t.size, u.children j = t.children j ++ if j = target then ids else []

namespace Grows

/-- Nothing has grown yet. -/
theorem refl (t : Trail) (target : Nat) : t.Grows t target [] where
  size_le := Nat.le_refl _
  note? _ _ := rfl
  parent? _ _ := rfl
  children j _ := by rw [ite_self, List.append_nil]

/-- What has grown goes on growing. -/
theorem trans (htu : t.Grows u target ids) (huv : u.Grows v target more) :
    t.Grows v target (ids ++ more) where
  size_le := Nat.le_trans htu.size_le huv.size_le
  note? j hj := (huv.note? j (Nat.lt_of_lt_of_le hj htu.size_le)).trans (htu.note? j hj)
  parent? j hj := (huv.parent? j (Nat.lt_of_lt_of_le hj htu.size_le)).trans (htu.parent? j hj)
  children j hj := by
    rw [huv.children j (Nat.lt_of_lt_of_le hj htu.size_le), htu.children j hj, List.append_assoc]
    split <;> rfl

/-- A forest stays while the trail grows below an attempt outside it. -/
theorem holds (hgrows : t.Grows u target more) (htarget : target < lo) (h : t.Holds lo ids F) :
    u.Holds lo ids F := by
  -- Children are added to the target alone, and it is older than the forest.
  refine h.of_same fun j hj hsize => ⟨hgrows.note? j hsize, ?_⟩
  rw [hgrows.children j hsize, if_neg (by omega), List.append_nil]

end Grows

/-! ### The attempt in progress -/

/-- The trail `u` has grown from `t` by one attempt, the last child of `parent`, that holds a forest
of attempts made for it. -/
structure Standing (t u : Trail) (parent start : Nat) (failed : Bool) (F : Forest) : Prop where
  linked : u.Linked
  grows : t.Grows u parent [t.size]
  note? : u.note? t.size = some ⟨start, failed, false⟩
  parent? : u.parent? t.size = some parent
  below : u.Holds (t.size + 1) (u.children t.size) F

namespace Standing

/-- The attempt itself is new on the trail. -/
theorem lt_size (h : Standing t u parent start failed F) : t.size < u.size :=
  lt_size_of_note? h.note?

/-- It stands below an attempt that was there before. -/
theorem parent_lt (h : Standing t u parent start failed F) : parent < t.size :=
  h.linked.parent_lt _ _ h.parent?

/-- An attempt stands on the trail once it is opened. -/
theorem push (h : t.Linked) (hparent : parent < t.size) (start : Nat) (label : String)
    (anchor : Bool) :
    Standing t (t.push parent start label anchor).2 parent start false .nil where
  linked := h.push hparent start label anchor
  grows :=
    { size_le := by rw [size_push]; omega
      note? := fun j hj => by rw [note?_push hparent, if_neg (by omega)]
      parent? := fun j hj => by rw [parent?_push hparent, if_neg (by omega)]
      children := fun j hj => by
        rw [children_push hparent]
        split
        · next heq => rw [heq]
        · rw [List.append_nil] }
  note? := by rw [note?_push hparent, if_pos rfl]
  parent? := by rw [parent?_push hparent, if_pos rfl]
  below := by
    rw [children_push hparent, if_neg (by omega), children_eq_nil (Nat.le_refl _)]
    exact .nil

/-- What is done for the attempt adds to the forest below it. -/
theorem grown (h : Standing t u parent start failed F) (hv : v.Linked)
    (hgrows : u.Grows v t.size ids) (hG : v.Holds u.size ids G) :
    Standing t v parent start failed (F ++ G) where
  linked := hv
  grows :=
    { size_le := Nat.le_trans h.grows.size_le hgrows.size_le
      note? := fun j hj => by
        rw [hgrows.note? j (Nat.lt_trans hj h.lt_size), h.grows.note? j hj]
      parent? := fun j hj => by
        rw [hgrows.parent? j (Nat.lt_trans hj h.lt_size), h.grows.parent? j hj]
      children := fun j hj => by
        rw [hgrows.children j (Nat.lt_trans hj h.lt_size), h.grows.children j hj,
          if_neg (Nat.ne_of_lt hj), List.append_nil] }
  note? := (hgrows.note? _ h.lt_size).trans h.note?
  parent? := (hgrows.parent? _ h.lt_size).trans h.parent?
  below := by
    -- The new children come after those it had.
    rw [hgrows.children _ h.lt_size, if_pos rfl]
    exact (hgrows.holds (Nat.lt_succ_self _) h.below).append (hG.mono h.lt_size)

/-- An operation that changes nothing but what is said of the attempt, and maybe its links to the
attempts below it. -/
theorem of_same (h : Standing t u parent start failed F) (hv : v.Linked)
    (hsize : v.size = u.size) (hnote : ∀ j, j ≠ t.size → v.note? j = u.note? j)
    (hself : v.note? t.size = some ⟨start, failed', false⟩)
    (hparent : ∀ j ≤ t.size, v.parent? j = u.parent? j)
    (hchildren : ∀ j, j ≠ t.size → v.children j = u.children j)
    (hbelow : v.Holds (t.size + 1) (v.children t.size) G) :
    Standing t v parent start failed' G where
  linked := hv
  grows :=
    { size_le := hsize ▸ h.grows.size_le
      note? := fun j hj => (hnote j (Nat.ne_of_lt hj)).trans (h.grows.note? j hj)
      parent? := fun j hj => (hparent j (Nat.le_of_lt hj)).trans (h.grows.parent? j hj)
      children := fun j hj => (hchildren j (Nat.ne_of_lt hj)).trans (h.grows.children j hj) }
  note? := hself
  parent? := (hparent _ (Nat.le_refl _)).trans h.parent?
  below := hbelow

/-- To close the attempt leaves what stands below it. -/
theorem close (h : Standing t u parent start failed F) (stop : Nat) (failed' : Bool) :
    Standing t (u.close t.size stop failed') parent start failed' F := by
  have hchildren : (u.close t.size stop failed').children = u.children :=
    children_update u t.size fun _ => rfl
  have hparent : (u.close t.size stop failed').parent? = u.parent? :=
    parent?_update u t.size fun _ => rfl
  refine h.of_same (h.linked.close _ _ _) (size_update _ _ _) (fun j hj => ?_) ?_
    (fun j _ => by rw [hparent]) (fun j _ => by rw [hchildren]) ?_
  · rw [note?_close, if_neg hj]
  · rw [note?_close, if_pos rfl, h.note?]
    rfl
  · rw [hchildren]
    refine h.below.of_same fun j hj _ => ⟨?_, by rw [hchildren]⟩
    -- The forest is younger than the attempt, so closing it says nothing of the forest.
    rw [note?_close, if_neg (by omega)]

/-- To drop what stands below it leaves the attempt. -/
theorem clearChildren (h : Standing t u parent start failed F) :
    Standing t (u.clearChildren t.size) parent start failed .nil := by
  have hchildren := children_clearChildren h.lt_size
  refine h.of_same (h.linked.clearChildren h.lt_size) (by simp [Trail.clearChildren])
    (fun j _ => by rw [note?_clearChildren]) (by rw [note?_clearChildren, h.note?])
    (fun j hj => ?_) (fun j hj => by rw [hchildren, if_neg hj]) ?_
  · -- What hangs below the attempt is younger than it is.
    rw [h.linked.parent?_clearChildren, if_neg]
    intro hmem
    have := h.linked.parent_lt_of_mem hmem
    omega
  · rw [hchildren, if_pos rfl]
    exact .nil

/-- The attempt itself, with the forest below it. -/
theorem holds (h : Standing t u parent start failed F) :
    u.Holds t.size [t.size] (.cons start failed F .nil) :=
  .cons (Nat.le_refl _) h.note? (h.below.mono (Nat.le_succ _)) .nil

/-- Once the attempt is dissolved, the forest stands in its place. -/
theorem dissolve (h : Standing t u parent start failed F) :
    (u.dissolve t.size).Linked ∧
      ∃ ids, t.Grows (u.dissolve t.size) parent ids ∧ (u.dissolve t.size).Holds t.size ids F := by
  obtain ⟨before, after, hsplit, hchildren, hparent⟩ := links_dissolve h.linked h.parent?
  have hlast := h.grows.children parent h.parent_lt
  rw [if_pos rfl] at hlast
  -- The attempt is listed once, as the last child of its parent.
  obtain ⟨rfl, rfl⟩ : before = t.children parent ∧ after = [] := by
    -- Nothing comes after it, or else it would be listed twice.
    have hnodup := h.linked.nodup_children parent
    have heq := hsplit.symm.trans hlast
    rw [hsplit, List.nodup_append, List.nodup_cons] at hnodup
    rcases List.eq_nil_or_concat after with rfl | ⟨init, last, rfl⟩
    · exact ⟨(List.append_inj' heq rfl).1, rfl⟩
    · rw [List.concat_eq_append, ← List.cons_append, ← List.append_assoc] at heq
      have hlast := (List.append_inj' heq rfl).2
      rw [List.singleton_inj] at hlast
      exact absurd (hlast ▸ by simp) hnodup.2.1.1
  refine ⟨h.linked.dissolve _, u.children t.size, ⟨?_, fun j hj => ?_, fun j hj => ?_,
    fun j hj => ?_⟩, ?_⟩
  · rw [(sameStarts_dissolve u t.size).size]
    exact h.grows.size_le
  · rw [note?_dissolve, h.grows.note? j hj]
  · rw [hparent, if_neg (by omega), if_neg, h.grows.parent? j hj]
    intro hmem
    have := h.linked.parent_lt_of_mem hmem
    omega
  · rw [hchildren]
    split
    · next heq => rw [heq, List.append_nil]
    · rw [if_neg (by omega), h.grows.children j hj, if_neg ‹_›]
  · refine (h.below.of_same fun j hj _ => ⟨by rw [note?_dissolve], ?_⟩).mono (Nat.le_succ _)
    have := h.parent_lt
    rw [hchildren, if_neg (by omega), if_neg (by omega)]

end Standing

end Trail

end ParseTrail
