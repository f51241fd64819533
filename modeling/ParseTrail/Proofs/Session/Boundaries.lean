import ParseTrail.Proofs.Cursor.View
import ParseTrail.Proofs.Session.Course
import ParseTrail.Proofs.Session.Sites

/-!
# Attempts at character boundaries

A cursor in a text stands between two of its characters. It goes back only to where it stood, so
that all attempts start and stop between characters, too: `onBoundaries_run`.
-/

namespace ParseTrail

/-- An offset lies between two characters of a text that lies at `base`, or at an end of it. -/
def Text.BoundaryFrom (base : Nat) (text : List Char) (offset : Nat) : Prop :=
  ∃ before rest, text = before ++ rest ∧ offset = base + byteLength before

variable {text : List Char} {s t : Session} {c d : Cursor} {base b offset : Nat}

/-- A boundary from an offset on is a boundary of the text, moved by that offset. -/
theorem Text.BoundaryFrom.exists_isBoundary (h : BoundaryFrom base text offset) :
    ∃ n, offset = base + n ∧ isBoundary text n = true ∧ n ≤ byteLength text := by
  obtain ⟨before, rest, rfl, rfl⟩ := h
  refine ⟨byteLength before, rfl, isBoundary_iff.mpr ⟨before, rest, rfl, rfl⟩, ?_⟩
  rw [byteLength_append]
  exact Nat.le_add_right _ _

namespace Cursor.StandsIn

/-- A cursor in a text stands on a boundary of it. -/
theorem boundaryFrom (h : c.StandsIn base text) : Text.BoundaryFrom base text c.position := by
  obtain ⟨before, rest, htext, hshows⟩ := h
  exact ⟨before, rest, htext, hshows.position⟩

/-- Going back to a boundary of the text that is kept. -/
theorem returnTo (h : c.StandsIn base text) (hoffset : Text.BoundaryFrom base text offset)
    (hd : c.returnTo offset = .ok d) : d.StandsIn base text := by
  obtain ⟨_, _, rfl, gone, kept, near, far, hparts, rfl, rfl⟩ := h
  obtain ⟨n, rfl, hboundary, -⟩ := hoffset.exists_isBoundary
  rw [Cursor.returnTo, moveTo] at hd
  split at hd
  · next hin =>
    cases hd
    have horigin := hparts.origin
    have hbuffered := hparts.buffered_eq
    -- A boundary of the text is one of the part that is kept.
    have hkept : Text.isBoundary (kept ++ near) (base + n - c.origin) = true := by
      have hwithin : base + n - c.origin ≤ Text.byteLength (kept ++ near) := by
        rw [Text.byteLength_append]
        omega
      have hshift := Text.isBoundary_append_add gone (kept ++ near ++ far) (base + n - c.origin)
      have hadd : Text.byteLength gone + (base + n - c.origin) = n := by omega
      rw [Text.isBoundary_append_of_le hwithin, hadd] at hshift
      rw [← hshift, ← hboundary]
      simp only [List.append_assoc]
    obtain ⟨kept', near', hsplit, hlength⟩ := Text.isBoundary_iff.mp hkept
    refine ⟨gone ++ kept', near' ++ far, ?_, gone, kept', near', far,
      ⟨hparts.text.trans hsplit, hlength.symm, hparts.origin, hparts.linesReleased,
        hparts.wholeLines, hparts.source⟩, rfl, rfl⟩
    rw [List.append_assoc, ← List.append_assoc kept, hsplit]
    simp only [List.append_assoc]
  · cases hd

end Cursor.StandsIn

/-! ### Sessions -/

/-- The cursor stands in a text, and all attempts start and stop at boundaries of it. -/
structure Session.OnBoundaries (base : Nat) (text : List Char) (s : Session) : Prop where
  cursor : s.cursor.StandsIn base text
  offsets : s.trail.Offsets (Text.BoundaryFrom base text)

/-- Sessions stay at boundaries of a text, and go back to such. -/
def onBoundaries (base : Nat) (text : List Char) : Course where
  ready b s := s.OnBoundaries base text ∧ Text.BoundaryFrom base text b
  leads _ t := t.OnBoundaries base text
  excuses _ := False

namespace Session

/-- A session starts with its root there. -/
theorem onBoundaries_start (hc : c.StandsIn base text) (config : Config) :
    (Session.start c config).OnBoundaries base text := by
  refine ⟨hc, fun id hid => ?_⟩
  -- There is nothing but the root.
  rw [show id = 0 from Nat.lt_one_iff.mp hid]
  exact ⟨hc.boundaryFrom, hc.boundaryFrom⟩

/-- The cursor may move in the text. -/
theorem OnBoundaries.withCursor (h : s.OnBoundaries base text) (hd : d.StandsIn base text) :
    Session.OnBoundaries base text { s with cursor := d } :=
  ⟨hd, h.offsets⟩

/-- A new attempt starts where the cursor stands. -/
theorem OnBoundaries.entered (h : s.OnBoundaries base text) (label : String) (anchor : Bool) :
    (s.entered label anchor).OnBoundaries base text :=
  ⟨h.cursor, h.offsets.push h.cursor.boundaryFrom s.current label anchor⟩

/-- An attempt is left on a boundary if it stops on one. -/
theorem OnBoundaries.left (h : t.OnBoundaries base text) {stop : Nat}
    (hstop : Text.BoundaryFrom base text stop) (id : Nat) (failed : Bool) (shape : Shape) :
    (t.left id stop failed shape).OnBoundaries base text :=
  ⟨h.cursor, offsets_left h.offsets hstop id failed shape⟩

end Session

/-- An operation on the cursor that leaves it in the text. -/
theorem onBoundaries_ofSource {β : Type} {request : Cursor.Request}
    {reply : request.Reply → Except SourceError β}
    (h : ∀ {before rest : List Char} {c d : Cursor} {told : request.Reply},
      c.Shows base before rest → c.perform request = .ok (told, d) →
        d.StandsIn base (before ++ rest)) :
    (onBoundaries base text).Follows b
      (Action.ask request >>= fun told => Action.ofSource (reply told)) :=
  Course.follows_ofSource fun s d told hs hd _ => by
    obtain ⟨before, rest, htext, hshows⟩ := hs.1.cursor
    exact hs.1.withCursor (htext ▸ h hshows hd)

/-- The primitive actions move over whole characters. -/
theorem kept_onBoundaries (base : Nat) (text : List Char) : (onBoundaries base text).Kept where
  refl hs := hs.1
  trans _ := id
  ready_of_leads hs ht := ⟨ht, hs.2⟩
  narrow hs := ⟨hs.1, hs.1.cursor.boundaryFrom⟩
  excuses_commit := id
  not_excuses _ := id
  -- After a request the cursor stands in the same text, some whole characters further on.
  read n := onBoundaries_ofSource fun hshows hd => by
    obtain ⟨e, hread, he⟩ := hshows.read n
    rw [Cursor.perform, hread] at hd
    cases hd
    exact he.standsIn_of_moved
  readChar := onBoundaries_ofSource fun hshows hd => by
    obtain ⟨e, hread, he⟩ := hshows.readChar
    rw [Cursor.perform, hread] at hd
    cases hd
    exact he.standsIn_of_moved
  peek n := onBoundaries_ofSource fun hshows hd => by
    obtain ⟨e, hpeek, he⟩ := hshows.peek n
    rw [Cursor.perform, hpeek] at hd
    cases hd
    exact he.standsIn
  atEnd := onBoundaries_ofSource fun hshows hd => by
    obtain ⟨e, hend, he⟩ := hshows.atEnd
    rw [Cursor.perform, hend] at hd
    cases hd
    exact he.standsIn
  returnTo := by
    intro b s r t hs ht _
    rw [outcome_returnTo] at ht
    rcases hreturn : s.cursor.returnTo b with cause | d
    · rw [hreturn] at ht
      cases ht
    · rw [hreturn] at ht
      cases ht
      exact hs.1.withCursor (hs.1.cursor.returnTo hs.2 hreturn)
  reject label := by
    intro s r t hs ht _
    rw [outcome_reject] at ht
    cases ht
    exact ⟨hs.1.cursor, (hs.1.offsets.push hs.2 s.current label false).close
      hs.1.cursor.boundaryFrom s.trail.size true⟩

/-- A recorded action starts on a boundary and stops on one. -/
theorem onBoundaries_recorded {β : Type} (label : String) (shape : Shape) {x : Action β}
    (hx : ∀ b, (onBoundaries base text).Follows b x) (b : Nat) :
    (onBoundaries base text).Follows b (Action.recorded label shape x) := by
  intro s r u hs hu _
  have hready : (onBoundaries base text).ready s.cursor.position (s.entered label shape.anchor) :=
    ⟨hs.1.entered label shape.anchor, hs.1.cursor.boundaryFrom⟩
  cases recorded_of_outcome hu with
  | tooDeep _ => exact hs.1
  | @matched v t ht =>
    have ht : t.OnBoundaries base text := hx _ _ _ t hready ht fun _ _ => id
    exact ht.left ht.cursor.boundaryFrom _ _ _
  | @failed f t d ht hreturn =>
    have ht : t.OnBoundaries base text := hx _ _ _ t hready ht fun _ _ => id
    have hback := ht.withCursor (ht.cursor.returnTo hready.2 hreturn)
    exact hback.left ht.cursor.boundaryFrom _ _ _

/-- Whatever a parser does in a text, all attempts start and stop at boundaries of it. -/
theorem onBoundaries_run {α : Type} (g : Grammar Empty α) (fuel : Nat) (p : Parser Empty α)
    (hs : s.OnBoundaries base text) {r : Except Failure (Value α)}
    (ht : outcome (p.run g fuel) s = .ok (r, t)) : t.OnBoundaries base text :=
  (kept_onBoundaries base text).run g onBoundaries_recorded fuel p s.cursor.position s r t
    ⟨hs, hs.cursor.boundaryFrom⟩ ht fun _ _ => id

end ParseTrail
