import ParseTrail.Parser
import ParseTrail.Proofs.Trail.Keeps
import ParseTrail.Proofs.Trail.Marks
import ParseTrail.Proofs.Trail.Ordered

/-!
# Dissolution that is still to come

An attempt that dissolves those around it only marks them, as they are still in progress. Each of
them is dissolved when it completes itself. In between, an attempt that has completed is either
below its anchor already, or all that is between the two is marked and still in progress.

- `Deferred.push`, `Deferred.of_below`: opening an attempt, and what is done for it;
- `Deferred.keep`, `Deferred.dissolve`: an attempt completes and stays, or is dissolved.
-/

namespace ParseTrail

/-- An attempt as it completed. -/
structure Completion where
  /-- The attempt. -/
  id : Nat
  /-- The shape of its parser. -/
  shape : Shape
  /-- The nearest anchor above it at that time. -/
  anchor : Nat
  deriving DecidableEq, Repr

namespace Trail

variable {t u : Trail} {current id parent c j q x : Nat} {log entered : List Completion}

/-- What is younger has no part in whether one attempt leads to another. -/
theorem Reaches.of_below (h : t.Reaches x j) (ht : t.Linked) (hu : u.Linked)
    (hbelow : ∀ i ≤ j, u.parent? i = t.parent? i) : u.Reaches x j := by
  induction h with
  | refl => exact .refl
  | @child p c _ hc ih =>
    have hlt := ht.parent_lt_of_mem hc
    refine (ih fun i hi => hbelow i (Nat.le_trans hi (Nat.le_of_lt hlt))).child ?_
    rw [hu.mem_children_iff, hbelow c (Nat.le_refl c), ← ht.mem_children_iff]
    exact hc

/-- What leads to an attempt leads to its parent. -/
theorem Reaches.up (h : t.Reaches j id) (ht : t.Linked) (hparent : t.parent? id = some parent)
    (hne : j ≠ id) : t.Reaches j parent := by
  cases h with
  | refl => exact absurd rfl hne
  | @child p _ hp hmem =>
    rw [ht.mem_children_iff, hparent, Option.some.injEq] at hmem
    exact hmem ▸ hp

/-- How a trail stands, with an attempt in progress and others completed. Those that are in progress
lead to the one in progress. -/
structure Deferred (t : Trail) (current : Nat) (log : List Completion) : Prop where
  root : t.isAnchor 0 = true
  within : t.Reaches 0 current
  unmarked : ∀ j, t.isAnchor j = true → t.isDissolving j = false
  known : ∀ e ∈ log, 0 < e.id ∧ e.id < t.size
  /-- An anchor is the root, in progress, or has completed with a shape that says so. -/
  anchors : ∀ j, t.isAnchor j = true →
    j = 0 ∨ t.Reaches j current ∨ ∃ e ∈ log, e.id = j ∧ e.shape.anchor = true
  /-- The parent of an attempt that dissolves those around it is the anchor, or gives way to it. -/
  ways : ∀ e ∈ log, e.shape.dissolveOuter = true → ∀ q, t.parent? e.id = some q →
    q = e.anchor ∧ t.isAnchor q = true ∨ t.Reaches q current ∧ t.GivesWay e.anchor q

namespace Deferred

theorem start (offset : Nat) : (Trail.start offset).Deferred 0 [] where
  root := rfl
  within := .refl
  unmarked j hj := by
    rcases j with _ | j
    · rfl
    · cases hj
  known := by simp
  anchors j hj := by
    rcases j with _ | j
    · exact .inl rfl
    · cases hj
  ways := by simp

/-- What is done for the attempt in progress, as long as it only takes away links to what is
younger, and marks no anchor. -/
theorem of_below (h : t.Deferred current log) (ht : t.Linked) (hu : u.Linked)
    (hcurrent : current < t.size) (hsize : u.size = t.size) (hmarked : t.Marked u)
    (hanchor : u.isAnchor = t.isAnchor)
    (hunmarked : ∀ j, t.isAnchor j = true → u.isDissolving j = t.isDissolving j)
    (hbelow : ∀ j ≤ current, u.parent? j = t.parent? j)
    (hparent : ∀ c p, u.parent? c = some p → t.parent? c = some p) : u.Deferred current log := by
  have hreach {j : Nat} (hj : t.Reaches j current) : u.Reaches j current :=
    hj.of_below ht hu hbelow
  refine ⟨hanchor ▸ h.root, hreach h.within, fun j hj => ?_, ?_, fun j hj => ?_, ?_⟩
  · rw [hanchor] at hj
    exact (hunmarked j hj).trans (h.unmarked j hj)
  · rw [hsize]
    exact h.known
  · rw [hanchor] at hj
    exact (h.anchors j hj).imp_right (Or.imp_left hreach)
  · intro e he houter q hq
    rcases h.ways e he houter q (hparent e.id q hq) with ⟨rfl, hq⟩ | ⟨hq, hway⟩
    · exact .inl ⟨rfl, hanchor ▸ hq⟩
    · have hle := hq.le ht
      exact .inr ⟨hreach hq, hway.mono ht (Nat.lt_of_le_of_lt hle hcurrent) hmarked
        fun j hj => hbelow j (Nat.le_trans hj hle)⟩

theorem close (h : t.Deferred current log) (ht : t.Linked) (hcurrent : current < t.size)
    (id stop : Nat) (failed : Bool) : (t.close id stop failed).Deferred current log := by
  obtain ⟨hanchor, hdissolving⟩ := flags_close t id stop failed
  have hparent := parent?_close t id stop failed
  refine h.of_below ht (ht.close id stop failed) hcurrent (sameStarts_close t id stop failed).size
    (marked_close t id stop failed) hanchor (fun j _ => by rw [hdissolving])
    (fun j _ => by rw [hparent]) fun c p hp => hparent ▸ hp

theorem clearChildren (h : t.Deferred id log) (ht : t.Linked) (hid : id < t.size) :
    (t.clearChildren id).Deferred id log := by
  obtain ⟨hanchor, hdissolving⟩ := flags_clearChildren t id
  have hparent := ht.parent?_clearChildren id
  refine h.of_below ht (ht.clearChildren hid) hid (sameStarts_clearChildren t id).size
    (marked_clearChildren t id) hanchor (fun j _ => by rw [hdissolving]) (fun j hj => ?_) ?_
  · -- Those that lose their parent are younger.
    rw [hparent, if_neg]
    exact fun hmem => Nat.not_lt.mpr hj (ht.parent_lt_of_mem hmem)
  · intro c p hp
    rw [hparent] at hp
    split at hp
    · cases hp
    · exact hp

theorem dissolveToAnchor (h : t.Deferred current log) (ht : t.Linked) (hcurrent : current < t.size)
    (id : Nat) : (t.dissolveToAnchor id).Deferred current log := by
  obtain ⟨-, -, hparent⟩ := marked_dissolveToAnchor t id
  refine h.of_below ht (ht.dissolveToAnchor id) hcurrent (sameStarts_dissolveToAnchor t id).size
    (.dissolveToAnchor t id) (isAnchor_dissolveToAnchor t id)
    (fun j => isDissolving_dissolveToAnchor_of_isAnchor id) (fun j _ => by rw [hparent])
    fun c p hp => hparent ▸ hp

/-- An attempt is opened below the one in progress. -/
theorem push (h : t.Deferred current log) (ht : t.Linked) (hcurrent : current < t.size)
    (offset : Nat) (label : String) (anchor : Bool) :
    (t.push current offset label anchor).2.Deferred t.size log := by
  have hu := ht.push hcurrent offset label anchor
  have hparent := parent?_push (t := t) hcurrent offset label anchor
  have hanchor := isAnchor_push (t := t) hcurrent offset label anchor
  have hbelow (j : Nat) (hj : j < t.size) :
      (t.push current offset label anchor).2.parent? j = t.parent? j := by
    rw [hparent, if_neg (Nat.ne_of_lt hj)]
  have hreach {j : Nat} (hj : t.Reaches j current) :
      (t.push current offset label anchor).2.Reaches j t.size := by
    have hstep := hj.of_below ht hu fun i hi => hbelow i (Nat.lt_of_le_of_lt hi hcurrent)
    refine hstep.child ((hu.mem_children_iff _ _).mpr ?_)
    rw [hparent, if_pos rfl]
  -- The new attempt is none of those that were known before.
  have hlt {j : Nat} (hj : t.isAnchor j = true) : j < t.size := by
    refine Nat.not_le.mp fun hle => ?_
    rw [isAnchor, get?_eq_none_iff.mpr hle] at hj
    cases hj
  refine ⟨?_, hreach h.within, fun j hj => ?_, fun e he => ?_, fun j hj => ?_, ?_⟩
  · rw [hanchor, if_neg (Nat.ne_of_lt (hlt h.root))]
    exact h.root
  · rw [isDissolving_push hcurrent]
    rw [hanchor] at hj
    split at hj
    · rw [if_pos ‹_›]
    · rw [if_neg ‹_›]
      exact h.unmarked j hj
  · rw [size_push]
    obtain ⟨hpos, hlt⟩ := h.known e he
    exact ⟨hpos, Nat.lt_succ_of_lt hlt⟩
  · rw [hanchor] at hj
    split at hj
    · next hnew =>
      -- The new attempt is in progress, whether it is an anchor or not.
      exact .inr (.inl (hnew ▸ .refl))
    · exact (h.anchors j hj).imp_right (Or.imp_left hreach)
  · intro e he houter q hq
    rw [hbelow e.id (h.known e he).2] at hq
    rcases h.ways e he houter q hq with ⟨rfl, hq⟩ | ⟨hq, hway⟩
    · refine .inl ⟨rfl, ?_⟩
      rw [hanchor, if_neg (Nat.ne_of_lt (hlt hq))]
      exact hq
    · have hsize := Nat.lt_of_le_of_lt (hq.le ht) hcurrent
      exact .inr ⟨hreach hq, hway.mono ht hsize (.push hcurrent offset label anchor)
        fun j hj => hbelow j (Nat.lt_of_le_of_lt hj hsize)⟩

/-- The attempt in progress ends and stays where it is, as it is not marked. What is entered for it
tells whether it is an anchor. -/
theorem keep (h : t.Deferred id log) (ht : t.Linked) (hparent : t.parent? id = some parent)
    (hunmarked : t.isDissolving id = false) (hid : ∀ e ∈ entered, e.id = id)
    (hanchor : t.isAnchor id = true → ∃ e ∈ entered, e.shape.anchor = true)
    (hway : ∀ e ∈ entered, e.shape.dissolveOuter = true → t.GivesWay e.anchor parent) :
    t.Deferred parent (log ++ entered) := by
  have hpos : 0 < id := Nat.lt_of_le_of_lt (Nat.zero_le parent) (ht.parent_lt parent id hparent)
  refine ⟨h.root, h.within.up ht hparent (Nat.ne_of_lt hpos), h.unmarked, ?_, fun j hj => ?_, ?_⟩
  · intro e he
    rcases List.mem_append.mp he with hold | hnew
    · exact h.known e hold
    · rw [hid e hnew]
      exact ⟨hpos, lt_size_of_parent? hparent⟩
  · -- What leads to the attempt that ends leads to its parent, but for the attempt itself.
    rcases h.anchors j hj with hzero | hreach | ⟨e, he, hj⟩
    · exact .inl hzero
    · by_cases hjid : j = id
      · obtain ⟨e, he, hshape⟩ := hanchor (hjid ▸ hj)
        exact .inr (.inr ⟨e, List.mem_append_right log he, (hid e he).trans hjid.symm, hshape⟩)
      · exact .inr (.inl (hreach.up ht hparent hjid))
    · exact .inr (.inr ⟨e, List.mem_append_left entered he, hj⟩)
  · intro e he houter q hq
    rcases List.mem_append.mp he with hold | hnew
    · rcases h.ways e hold houter q hq with hdone | ⟨hreach, hway⟩
      · exact .inl hdone
      · by_cases hqid : q = id
        · -- The attempt itself gives way, but is not marked: it is the anchor.
          subst hqid
          cases hway with
          | anchor hanchored => exact .inl ⟨rfl, hanchored⟩
          | up hmark _ _ => exact absurd hmark (by simp [hunmarked])
        · exact .inr ⟨hreach.up ht hparent hqid, hway⟩
    · rw [hid e hnew, hparent, Option.some.injEq] at hq
      exact .inr ⟨hq ▸ .refl, hq ▸ hway e hnew houter⟩

/-- The attempt in progress ends and is dissolved. It is not an anchor, so what is below it goes on
giving way above it. -/
theorem dissolve (h : t.Deferred id log) (ht : t.Linked) (hparent : t.parent? id = some parent)
    (hplain : t.isAnchor id = false) (hid : ∀ e ∈ entered, e.id = id) :
    (t.dissolve id).Deferred parent (log ++ entered) := by
  have hlt : parent < id := ht.parent_lt parent id hparent
  have hsize : id < t.size := lt_size_of_parent? hparent
  have hpos : 0 < id := Nat.lt_of_le_of_lt (Nat.zero_le parent) hlt
  have hu := ht.dissolve id
  obtain ⟨hanchor, hdissolving⟩ := flags_dissolve t id
  obtain ⟨-, -, -, -, hparents⟩ := links_dissolve ht hparent
  -- Nothing older than the dissolved attempt gets another parent.
  have hbelow (j : Nat) (hj : j < id) : (t.dissolve id).parent? j = t.parent? j := by
    rw [hparents, if_neg (Nat.ne_of_lt hj), if_neg]
    exact fun hmem => Nat.lt_asymm hj (ht.parent_lt_of_mem hmem)
  have hreach {j : Nat} (hj : t.Reaches j parent) : (t.dissolve id).Reaches j parent :=
    hj.of_below ht hu fun i hi => hbelow i (Nat.lt_of_le_of_lt hi hlt)
  have hways {a q : Nat} (hq : t.GivesWay a q) (hlt : q < id) : (t.dissolve id).GivesWay a q :=
    hq.mono ht (Nat.lt_trans hlt hsize) (marked_dissolve t id)
      fun j hj => hbelow j (Nat.lt_of_le_of_lt hj hlt)
  refine ⟨hanchor ▸ h.root, hreach (h.within.up ht hparent (Nat.ne_of_lt hpos)), fun j hj => ?_,
    fun e he => ?_, fun j hj => ?_, ?_⟩
  · rw [hdissolving]
    exact h.unmarked j (hanchor ▸ hj)
  · rw [(sameStarts_dissolve t id).size]
    rcases List.mem_append.mp he with hold | hnew
    · exact h.known e hold
    · rw [hid e hnew]
      exact ⟨hpos, hsize⟩
  · rw [hanchor] at hj
    rcases h.anchors j hj with hzero | hj' | ⟨e, he, hj'⟩
    · exact .inl hzero
    · have hne : j ≠ id := by
        rintro rfl
        simp [hplain] at hj
      exact .inr (.inl (hreach (hj'.up ht hparent hne)))
    · exact .inr (.inr ⟨e, List.mem_append_left entered he, hj'⟩)
  · intro e he houter q hq
    rw [hparents] at hq
    split at hq
    · cases hq
    · next hne =>
      have hold : e ∈ log := by
        rcases List.mem_append.mp he with hold | hnew
        · exact hold
        · exact absurd (hid e hnew) hne
      split at hq
      · -- It was below the dissolved attempt, and is now below the next one on the way.
        next hmem =>
        cases hq
        rw [ht.mem_children_iff] at hmem
        rcases h.ways e hold houter id hmem with ⟨-, hanchored⟩ | ⟨-, hway⟩
        · exact absurd hanchored (by simp [hplain])
        · cases hway with
          | anchor hanchored => exact absurd hanchored (by simp [hplain])
          | up _ hp hway =>
            rw [hparent, Option.some.injEq] at hp
            exact .inr ⟨.refl, hways (hp ▸ hway) hlt⟩
      · next hmem =>
        rcases h.ways e hold houter q hq with ⟨hq', hanchored⟩ | ⟨hq', hway⟩
        · exact .inl ⟨hq', hanchor ▸ hanchored⟩
        · have hqid : q ≠ id := fun heq => hmem ((ht.mem_children_iff _ _).mpr (heq ▸ hq))
          have hup := hq'.up ht hparent hqid
          exact .inr ⟨hreach hup, hways hway (Nat.lt_of_le_of_lt (hup.le ht) hlt)⟩

end Deferred

end Trail

end ParseTrail
