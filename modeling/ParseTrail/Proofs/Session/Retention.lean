import ParseTrail.Proofs.Session.Course
import ParseTrail.Proofs.Session.SameText

/-!
# Attempts in the text kept

A session releases nothing, so the text that its cursor keeps only grows. All attempts start where
the cursor stood at some time, hence in the text kept, whatever the text is and however the source
behaves: `retaining_run`.
-/

namespace ParseTrail

variable {s t : Session} {c d : Cursor} {b : Nat}

/-- An offset lies in the text kept, or right at its end. -/
def Cursor.Holds (c : Cursor) (offset : Nat) : Prop :=
  c.origin ≤ offset ∧ offset ≤ c.origin + c.buffered

/-- A cursor holds the offset where it stands. -/
theorem Cursor.InBounds.holds (h : c.InBounds) : c.Holds c.position :=
  (Extends.refl h).position_within h

/-- What a cursor holds is held by all that extend it. -/
theorem Cursor.Holds.extends (h : c.Holds b) (hext : c.Extends d) : d.Holds b := by
  obtain ⟨hfirst, hlast⟩ := h
  rw [Cursor.Holds, hext.origin]
  exact ⟨hfirst, Nat.le_trans hlast (Nat.add_le_add_left hext.buffered_le _)⟩

namespace Session

/-- The cursor stands in the text that it keeps, and all attempts start there. -/
structure Retaining (s : Session) : Prop where
  inBounds : s.cursor.InBounds
  kept : s.trail.KeptBy s.cursor

namespace Retaining

/-- A session starts with its root where the cursor stands. -/
theorem start (hc : c.InBounds) (config : Config) : (Session.start c config).Retaining :=
  ⟨hc, Trail.startsWithin_start hc.holds.1 hc.holds.2⟩

/-- The cursor may become one that extends it. -/
theorem withCursor (h : s.Retaining) (hd : s.cursor.Extends d) :
    Retaining { s with cursor := d } :=
  ⟨hd.inBounds, h.kept.extends hd⟩

/-- A new attempt starts where the cursor stands. -/
theorem entered (h : s.Retaining) (label : String) (anchor : Bool) :
    (s.entered label anchor).Retaining :=
  ⟨h.inBounds, Trail.startsWithin_push h.kept h.inBounds.holds.1 h.inBounds.holds.2 _ _ _⟩

/-- To leave an attempt moves no start. -/
theorem left (h : s.Retaining) (id stop : Nat) (failed : Bool) (shape : Shape) :
    (s.left id stop failed shape).Retaining :=
  ⟨h.inBounds, h.kept.of_sameStarts (s.sameStarts_left id stop failed shape)⟩

end Retaining

end Session

/-- Sessions keep adding to the text kept, and go back to offsets in it. -/
def retaining : Course where
  ready b s := s.Retaining ∧ s.cursor.Holds b
  leads s t := s.cursor.Extends t.cursor ∧ t.Retaining
  excuses _ := False

/-- An operation on the cursor that releases nothing. -/
theorem retaining_ofSource {β : Type} (request : Cursor.Request) (hrequest : request ≠ .release)
    {reply : request.Reply → Except SourceError β} :
    retaining.Follows b
      (Action.ask request >>= fun told => Action.ofSource (reply told)) :=
  Course.follows_ofSource fun _ _ _ hs hd _ =>
    have hext := Cursor.Extends.perform_of_ne hs.1.inBounds hrequest hd
    ⟨hext, hs.1.withCursor hext⟩

/-- The primitive actions go back to offsets that are held. -/
theorem kept_retaining : retaining.Kept where
  refl hs := ⟨.refl hs.1.inBounds, hs.1⟩
  trans hst htu := ⟨hst.1.trans htu.1, htu.2⟩
  ready_of_leads hs hst := ⟨hst.2, hs.2.extends hst.1⟩
  narrow hs := ⟨hs.1, hs.1.inBounds.holds⟩
  excuses_commit := id
  not_excuses _ := id
  read n := retaining_ofSource (.read n) nofun
  readChar := retaining_ofSource .readChar nofun
  peek n := retaining_ofSource (.peek n) nofun
  atEnd := retaining_ofSource .atEnd nofun
  returnTo := by
    intro b s r t hs ht _
    rw [outcome_returnTo] at ht
    rcases hreturn : s.cursor.returnTo b with cause | d
    · rw [hreturn] at ht
      cases ht
    · rw [hreturn] at ht
      cases ht
      have hext : s.cursor.Extends d := .moveTo hs.1.inBounds hreturn
      exact ⟨hext, hs.1.withCursor hext⟩
  reject label := by
    intro s r t hs ht _
    rw [outcome_reject] at ht
    cases ht
    -- The attempt starts at the offset to go back to, which is kept. To close it moves no start.
    have hpushed := Trail.startsWithin_push hs.1.kept hs.2.1 hs.2.2 s.current label false
    exact ⟨.refl hs.1.inBounds, hs.1.inBounds,
      hpushed.of_sameStarts (Trail.sameStarts_close _ s.trail.size s.cursor.position true)⟩

/-- So does a recorded action when it fails. -/
theorem retaining_recorded {β : Type} (label : String) (shape : Shape) {x : Action β}
    (hx : ∀ b, retaining.Follows b x) (b : Nat) :
    retaining.Follows b (Action.recorded label shape x) := by
  intro s r u hs hu _
  have hready : retaining.ready s.cursor.position (s.entered label shape.anchor) :=
    ⟨hs.1.entered label shape.anchor, hs.1.inBounds.holds⟩
  cases recorded_of_outcome hu with
  | tooDeep _ => exact ⟨.refl hs.1.inBounds, hs.1⟩
  | matched ht =>
    obtain ⟨hext, ht⟩ := hx _ _ _ _ hready ht fun _ _ => id
    exact ⟨hext, ht.left _ _ _ _⟩
  | @failed f t d ht hreturn =>
    obtain ⟨hext, ht⟩ := hx _ _ _ t hready ht fun _ _ => id
    have hback : t.cursor.Extends d := .moveTo ht.inBounds hreturn
    exact ⟨hext.trans hback, (ht.withCursor hback).left _ _ _ _⟩

/-- Whatever a parser does, the text kept only grows and all attempts start in it. -/
theorem retaining_run {α : Type} (g : Grammar Empty α) (fuel : Nat) (p : Parser Empty α)
    (hs : s.Retaining) {r : Except Failure (Value α)}
    (ht : outcome (p.run g fuel) s = .ok (r, t)) : s.cursor.Extends t.cursor ∧ t.Retaining :=
  kept_retaining.run g retaining_recorded fuel p s.cursor.position s r t
    ⟨hs, hs.inBounds.holds⟩ ht fun _ _ => id

end ParseTrail
