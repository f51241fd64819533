import ParseTrail.Proofs.Cursor.Forward
import ParseTrail.Proofs.Session.Outcome
import ParseTrail.Proofs.Trail.Blame

/-!
# Stretches of a session

What happens in a session between two moments shows in two ways: the cursor goes forward, and the
trail grows by a forest below the attempt in progress. Stretches follow on each other
(`Stretch.trans`), and the cursor may go back to where a stretch began (`Stretch.back`).

- `grown_rejected`: the forest of a rejection;
- `grown_left`: what an attempt leaves, once it is closed, of the stretch that it took.
-/

namespace ParseTrail

/-- An attempt of this shape leaves those around it alone, and is not dissolved with nothing to take
its place. -/
structure Shape.Plain (shape : Shape) : Prop where
  dissolveOuter : shape.dissolveOuter = false
  leaf : shape.dissolve → shape.leaf = false

/-! ### Stretches of a session -/

namespace Session

/-- The trail is linked, and the attempt in progress is on it. -/
structure Ready (s : Session) : Prop where
  linked : s.trail.Linked
  current_lt : s.current < s.trail.size

/-- From one session to another the trail grew by a forest below the attempt in progress. -/
structure Grown (s t : Session) (F : Forest) : Prop where
  linked : t.trail.Linked
  current : t.current = s.current
  exists_ids : ∃ ids, s.trail.Grows t.trail s.current ids ∧ t.trail.Holds s.trail.size ids F

/-- From one session to another the cursor went forward, and the trail grew by a forest of attempts
that were made on the way. -/
structure Stretch (s t : Session) (F : Forest) : Prop where
  grown : s.Grown t F
  position_le : s.cursor.position ≤ t.cursor.position
  starts : ∀ n ∈ F.starts, s.cursor.position ≤ n

variable {s t u : Session} {F G : Forest} {strict : Prop}

theorem ready_start (c : Cursor) (config : Config) : (Session.start c config).Ready :=
  ⟨Trail.linked_start _, Nat.one_pos⟩

theorem Grown.ready (h : s.Grown t F) (hs : s.Ready) : t.Ready := by
  obtain ⟨ids, hgrows, -⟩ := h.exists_ids
  exact ⟨h.linked, h.current ▸ Nat.lt_of_lt_of_le hs.current_lt hgrows.size_le⟩

theorem grown_nil (hs : s.Ready) (htrail : t.trail = s.trail) (hcurrent : t.current = s.current) :
    s.Grown t .nil := by
  refine ⟨?_, hcurrent, [], ?_, .nil⟩
  · rw [htrail]
    exact hs.linked
  · rw [htrail]
    exact .refl _ _

theorem Grown.trans (hst : s.Grown t F) (htu : t.Grown u G) (hs : s.Ready) :
    s.Grown u (F ++ G) := by
  obtain ⟨ids, hids, hF⟩ := hst.exists_ids
  obtain ⟨more, hmore, hG⟩ := htu.exists_ids
  rw [hst.current] at hmore
  refine ⟨htu.linked, htu.current.trans hst.current, ids ++ more, hids.trans hmore, ?_⟩
  -- What was there stays while the trail grows below the same attempt.
  exact (hmore.holds hs.current_lt hF).append (hG.mono hids.size_le)

/-- Only the cursor moved. -/
theorem stretch_nil (hs : s.Ready) (htrail : t.trail = s.trail) (hcurrent : t.current = s.current)
    (hle : s.cursor.position ≤ t.cursor.position) : s.Stretch t .nil :=
  ⟨grown_nil hs htrail hcurrent, hle, fun _ hn => nomatch hn⟩

theorem Stretch.trans (hst : s.Stretch t F) (htu : t.Stretch u G) (hs : s.Ready) :
    s.Stretch u (F ++ G) where
  grown := hst.grown.trans htu.grown hs
  position_le := Nat.le_trans hst.position_le htu.position_le
  starts n hn := by
    rw [Forest.starts_append, List.mem_append] at hn
    -- The later attempts start no earlier than the cursor was when they were made.
    rcases hn with hn | hn
    · exact hst.starts n hn
    · exact Nat.le_trans hst.position_le (htu.starts n hn)

/-- The cursor may go back to where the stretch began. -/
theorem Stretch.back (h : s.Stretch t F) {d : Cursor} (hd : d.position = s.cursor.position) :
    s.Stretch { t with cursor := d } F where
  grown := ⟨h.grown.linked, h.grown.current, h.grown.exists_ids⟩
  position_le := Nat.le_of_eq hd.symm
  starts := h.starts

end Session

/-! ### Going back -/

variable {s t : Session} {F : Forest}

theorem outcome_returnTo_ok {offset : Nat} {r : Except Failure Unit}
    (h : outcome (Action.returnTo offset) s = .ok (r, t)) :
    r = .ok () ∧ ∃ d : Cursor, d.position = offset ∧ t = { s with cursor := d } := by
  rw [outcome_returnTo] at h
  cases hreturn : s.cursor.returnTo offset with
  | error cause =>
    rw [hreturn] at h
    cases h
  | ok d =>
    rw [hreturn] at h
    cases h
    exact ⟨rfl, d, Cursor.position_returnTo hreturn, rfl⟩

/-! ### Attempts -/

/-- A rejection adds one failed attempt. -/
theorem grown_rejected (hs : s.Ready) (offset : Nat) (label : String) :
    s.Grown { s with
      trail := (s.trail.push s.current offset label false).2.close s.trail.size
        s.cursor.position true } (.cons offset true .nil .nil) := by
  have hpush := Trail.Standing.push hs.linked hs.current_lt offset label false
  have hrejected := hpush.close s.cursor.position true
  exact ⟨hrejected.linked, rfl, [s.trail.size], hrejected.grows, hrejected.holds⟩

theorem ready_entered (hs : s.Ready) (label : String) (anchor : Bool) :
    (s.entered label anchor).Ready := by
  have hpush := Trail.Standing.push hs.linked hs.current_lt s.cursor.position label anchor
  exact ⟨hpush.linked, hpush.lt_size⟩

/-- What was done in an attempt stands below it. -/
theorem standing_of_stretch {label : String} {anchor : Bool} (hs : s.Ready)
    (hF : (s.entered label anchor).Stretch t F) :
    s.trail.Standing t.trail s.current s.cursor.position false F := by
  have hpush := Trail.Standing.push hs.linked hs.current_lt s.cursor.position label anchor
  obtain ⟨ids, hgrows, hholds⟩ := hF.grown.exists_ids
  exact hpush.grown hF.grown.linked hgrows hholds

/-- The attempt in progress is closed and takes its place, or its forest does. -/
theorem grown_left {start : Nat} {opened : Bool} {shape : Shape}
    (ht : s.trail.Standing t.trail s.current start opened F) (hplain : shape.Plain)
    (stop : Nat) (failed : Bool) :
    s.Grown (t.left s.trail.size stop failed shape) (F.left shape start failed) := by
  have hclosed := ht.close stop failed
  -- Leaving the attempt comes down to two choices, as nothing else dissolves attempts.
  have hleft (u : Trail) (hu : u.note? s.trail.size = some ⟨start, failed, false⟩)
      (hparent : u.parent? s.trail.size = some s.current)
      (heq : u = if shape.leaf then
        (t.trail.close s.trail.size stop failed).clearChildren s.trail.size
        else t.trail.close s.trail.size stop failed) :
      t.left s.trail.size stop failed shape = { t with
        trail := if shape.dissolve then u.dissolve s.trail.size else u
        current := s.current, depth := t.depth - 1 } := by
    rw [Session.left, hplain.dissolveOuter]
    simp only [Bool.false_eq_true, if_false, ← heq, hparent, Option.getD_some,
      Trail.isDissolving_of_note? hu, Bool.or_false]
  unfold Forest.left
  cases hdissolve : shape.dissolve with
  | true =>
    -- An attempt that is dissolved keeps its forest, which takes its place.
    have hleaf := hplain.leaf hdissolve
    rw [hleft _ hclosed.note? hclosed.parent? (by rw [hleaf]; rfl), hdissolve]
    obtain ⟨hlinked, ids, hgrows, hholds⟩ := hclosed.dissolve
    exact ⟨hlinked, rfl, ids, hgrows, hholds⟩
  | false =>
    cases hleaf : shape.leaf with
    | true =>
      -- A leaf drops the attempts made for it and stands alone.
      have hcleared := hclosed.clearChildren
      rw [hleft _ hcleared.note? hcleared.parent? (by rw [hleaf]; rfl), hdissolve]
      exact ⟨hcleared.linked, rfl, [s.trail.size], hcleared.grows, hcleared.holds⟩
    | false =>
      rw [hleft _ hclosed.note? hclosed.parent? (by rw [hleaf]; rfl), hdissolve]
      exact ⟨hclosed.linked, rfl, [s.trail.size], hclosed.grows, hclosed.holds⟩

/-- The stretch that an attempt takes, from before it is opened until it is closed. -/
theorem stretch_left {label : String} {shape : Shape} (hs : s.Ready) (hplain : shape.Plain)
    (hF : (s.entered label shape.anchor).Stretch t F) (stop : Nat) (failed : Bool) :
    s.Stretch (t.left s.trail.size stop failed shape)
      (F.left shape s.cursor.position failed) where
  grown := grown_left (standing_of_stretch hs hF) hplain stop failed
  position_le := hF.position_le
  starts n hn := by
    -- The attempt starts where the cursor was, and all made for it from there on.
    rcases Forest.mem_starts_left hn with rfl | hn
    · exact Nat.le_refl _
    · exact hF.starts n hn

end ParseTrail
