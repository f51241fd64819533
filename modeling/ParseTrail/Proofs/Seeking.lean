import ParseTrail.Proofs.Cursor.Seek
import ParseTrail.Proofs.Positions

/-!
# Seeking

A seek is refused, and the cursor stays where it is, if its target is negative, lies before the text
kept, or lies inside a character. Otherwise it goes to the target, or to the end of input if the
target lies past that. A text keeps to this, and so does a source that delivers it, but for one
case: if the target lies inside a character that has yet to be pulled, the cursor reads on to the end
of that character.

- `seeks_agree_outside_characters`: what seeking comes to, at a cursor on a reader and at one on the
  text that it delivers;
- `seek_oversteps`: the case that is different.
-/

namespace ParseTrail

/-- The offset that a target names, from a place in the input and from its end; none if it is
negative, or greater than any offset. -/
def SeekTarget.aim? (position ending : Nat) : SeekTarget → Option Nat
  | .start offset => some offset
  | .current distance => (Cursor.offsetBy position distance).toOption
  | .finish distance => (Cursor.offsetBy ending distance).toOption

namespace Cursor

variable {c d : Cursor} {text far : List Char} {offset : Nat} {distance : Int}

/-- A target lies inside a character that is not kept yet. What is counted from the end of input
never does, since all input is pulled first. -/
structure Oversteps (text : List Char) (c : Cursor) (target : SeekTarget) (offset : Nat) :
    Prop where
  aim : target.aim? c.position (Text.byteLength text) = some offset
  forward : ∀ distance, target ≠ .finish distance
  beyond : c.origin + c.buffered < offset
  inside : offset < Text.byteLength text ∧ Text.isBoundary text offset = false

/-- An offset that cannot be counted is refused as an input. -/
theorem kind_of_offsetBy_eq_error {base : Nat} {e : SourceError}
    (h : offsetBy base distance = .error e) : e.kind = .invalidInput := by
  rw [offsetBy] at h
  split at h
  · cases h
  · cases h
    rfl

/-- To seek from the end of input comes down to a place once all input is pulled. -/
theorem seek_finish_of_fillUntil (hfill : c.fillUntil (fun _ => false) c.pending = (.ok (), d))
    (hend : Text.byteLength text = d.origin + d.buffered) (distance : Int) :
    c.seek (.finish distance) =
      match offsetBy (Text.byteLength text) distance with
      | .ok offset => d.seekTo offset
      | .error e => (.error e, d) := by
  rw [hend]
  cases hoffset : offsetBy (d.origin + d.buffered) distance with
  | error e => simp only [Cursor.seek, hfill, hoffset]
  | ok offset => simp only [Cursor.seek, hfill, hoffset]

namespace Alongside

theorem seekTo_eq (h : Alongside text far c d) (hcut : c.origin + c.buffered < offset →
      offset < Text.byteLength text → Text.isBoundary text offset = true) :
    (c.seekTo offset).1 = (d.seekTo offset).1 ∧
      (c.seekTo offset).2.position = (d.seekTo offset).2.position := by
  by_cases hin : offset ≤ c.origin + c.buffered
  · exact h.seekTo_within hin
  · exact h.lands_seekTo_beyond (Nat.lt_of_not_le hin) (hcut (Nat.lt_of_not_le hin))

/-- A cursor that has all of the text counts from its end at once. -/
theorem seek_finish_of_ended (h : Alongside text far c d) (distance : Int) :
    d.seek (.finish distance) =
      match offsetBy (Text.byteLength text) distance with
      | .ok offset => d.seekTo offset
      | .error e => (.error e, d) := by
  have hend := h.self.byteLength_text
  rw [Text.byteLength_nil, Nat.add_zero] at hend
  exact seek_finish_of_fillUntil (fillUntil_of_source_eq_none h.ended _ _) hend distance

/-- A cursor on a source first pulls all that is left. -/
theorem seek_finish (h : Alongside text far c d) (distance : Int) :
    ∃ c', Alongside text [] c' d ∧ c.seek (.finish distance) =
      match offsetBy (Text.byteLength text) distance with
      | .ok offset => c'.seekTo offset
      | .error e => (.error e, c') := by
  obtain ⟨c', far', hfill, hc', hall⟩ := h.fillUntil (fun _ => false) c.pending
  obtain rfl := hall (fun _ => rfl) (length_le_pending_of_yields h.yields)
  have hend := hc'.byteLength_text
  rw [Text.byteLength_nil, Nat.add_zero] at hend
  exact ⟨c', hc', seek_finish_of_fillUntil hfill hend distance⟩

theorem seek_eq (h : Alongside text far c d) (target : SeekTarget)
    (hsteps : ∀ offset, ¬c.Oversteps text target offset) :
    (c.seek target).1 = (d.seek target).1 ∧
      (c.seek target).2.position = (d.seek target).2.position := by
  -- An offset that is aimed at, past what is kept, is no place inside a character, as the target
  -- would overstep it otherwise.
  cases target with
  | start offset =>
    refine h.seekTo_eq fun hbeyond hlt => ?_
    cases hinside : Text.isBoundary text offset with
    | true => rfl
    | false =>
      exact absurd ⟨rfl, fun _ heq => (by cases heq), hbeyond, hlt, hinside⟩ (hsteps offset)
  | current distance =>
    rw [Cursor.seek, Cursor.seek, ← h.position]
    cases hoffset : offsetBy c.position distance with
    | error e => exact ⟨rfl, h.position⟩
    | ok offset =>
      refine h.seekTo_eq fun hbeyond hlt => ?_
      cases hinside : Text.isBoundary text offset with
      | true => rfl
      | false =>
        refine absurd ⟨?_, fun _ heq => (by cases heq), hbeyond, hlt, hinside⟩ (hsteps offset)
        rw [SeekTarget.aim?, hoffset]
        rfl
  | finish distance =>
    obtain ⟨c', hc', hseek⟩ := h.seek_finish distance
    rw [hseek, h.seek_finish_of_ended]
    cases offsetBy (Text.byteLength text) distance with
    | error e => exact ⟨rfl, hc'.position⟩
    | ok offset =>
      have hend := hc'.byteLength_text
      rw [Text.byteLength_nil, Nat.add_zero] at hend
      exact hc'.seekTo_eq fun hbeyond hlt => by omega

/-- A cursor that has all of the text lands where it is to land, whatever the target. -/
theorem lands_seek (h : Alongside text far c d) (target : SeekTarget) :
    Lands d ((target.aim? d.position (Text.byteLength text)).bind (Text.landing? text d.origin))
      (d.seek target) := by
  cases target with
  | start offset => exact h.lands_seekTo
  | current distance =>
    rw [Cursor.seek, SeekTarget.aim?]
    cases hoffset : offsetBy d.position distance with
    | error e => exact .refused (kind_of_offsetBy_eq_error hoffset) rfl
    | ok offset => exact h.lands_seekTo
  | finish distance =>
    rw [h.seek_finish_of_ended, SeekTarget.aim?]
    cases hoffset : offsetBy (Text.byteLength text) distance with
    | error e => exact .refused (kind_of_offsetBy_eq_error hoffset) rfl
    | ok offset => exact h.lands_seekTo

/-- Seeking into a character that is not kept yet ends after it. -/
theorem seek_of_oversteps {target : SeekTarget} (h : Alongside text far c d)
    (hsteps : c.Oversteps text target offset) :
    ∃ c', c.seek target = (.ok (Text.ceilBoundary text offset), c') ∧
      c'.position = Text.ceilBoundary text offset := by
  have haim := hsteps.aim
  obtain ⟨c', hseek, hposition⟩ := h.seekTo_beyond hsteps.beyond
  refine ⟨c', ?_, hposition⟩
  cases target with
  | start n =>
    cases haim
    exact hseek
  | current distance =>
    rw [SeekTarget.aim?] at haim
    cases hoffset : offsetBy c.position distance with
    | error e =>
      rw [hoffset] at haim
      cases haim
    | ok n =>
      rw [hoffset] at haim
      cases haim
      rw [Cursor.seek, hoffset]
      exact hseek
  | finish distance => exact absurd rfl (hsteps.forward distance)

end Alongside

end Cursor

/-- Whatever has been read from a reader, and however much of it is kept, a seek gives the same
answer and ends at the same offset as at the text that the reader delivers, after the same requests,
which are no seeks themselves. The text refuses just what is negative, before the text kept, or
inside a character, and stays where it is; or it goes to the target or to its end. Only where the
target lies inside a character that the reader has yet to deliver, the text refuses and the reader
goes to the end of that character. -/
theorem seeks_agree_outside_characters (text : String) {src : Source} {capacity : Nat}
    {opened c d : Cursor} {requests : List Cursor.Request} (hsrc : src.Delivers text.toList)
    (hopened : Cursor.ofReader capacity src = .ok opened)
    (hseek : ∀ target, Cursor.Request.seek target ∉ requests)
    (hc : opened.asked requests = .ok c) (hd : (Cursor.ofText text).asked requests = .ok d)
    (target : SeekTarget) :
    d.Lands ((target.aim? d.position (Text.byteLength text.toList)).bind
      (Text.landing? text.toList d.origin)) (d.seek target) ∧
    ((∀ offset, ¬c.Oversteps text.toList target offset) →
      (c.seek target).1 = (d.seek target).1 ∧
        (c.seek target).2.position = (d.seek target).2.position) ∧
    ∀ offset, c.Oversteps text.toList target offset →
      (∃ e d', d.seek target = (.error e, d') ∧ e.kind = .invalidInput ∧
        d'.position = d.position) ∧
      ∃ c', c.seek target = (.ok (Text.ceilBoundary text.toList offset), c') ∧
        c'.position = Text.ceilBoundary text.toList offset := by
  have hstart : opened = Cursor.ofSource src 0 := by
    rw [Cursor.ofReader] at hopened
    split at hopened
    · cases hopened
    · exact (Except.ok.inj hopened).symm
  subst hstart
  obtain ⟨far, h⟩ := (Cursor.alongside_ofSource hsrc).asked hseek hc hd
  have hlands := h.lands_seek target
  refine ⟨hlands, h.seek_eq target, fun offset hsteps => ⟨?_, h.seek_of_oversteps hsteps⟩⟩
  -- The text has the character as a whole, and nowhere to land in it.
  rw [← h.position, hsteps.aim, Option.bind_some, Text.landing?,
    if_pos (.inr hsteps.inside)] at hlands
  generalize d.seek target = sought at hlands
  cases hlands with
  | refused hkind hposition => exact ⟨_, _, rfl, hkind, hposition⟩

/-- A source that is cut inside a character is read from and looked ahead with, and one line is
dropped. Then a seek goes past what is kept, to where it goes at the text. -/
theorem seeks_agree_outside_characters_twoLines :
    ∃ c d, (Cursor.ofSource twoLines 0).asked [.read 3, .peek 1, .release] = .ok c ∧
      (Cursor.ofText "é\r\nbc").asked [.read 3, .peek 1, .release] = .ok d ∧
      c.origin = 4 ∧ c.buffered = 1 ∧ (d.seek (.start 6)).1 = .ok 6 ∧
      (c.seek (.start 6)).1 = (d.seek (.start 6)).1 ∧
      (c.seek (.start 6)).2.position = (d.seek (.start 6)).2.position := by
  have hseek (target : SeekTarget) :
      Cursor.Request.seek target ∉ [.read 3, .peek 1, Cursor.Request.release] := by
    simp
  have hreader : Cursor.ofReader 1 twoLines = .ok (Cursor.ofSource twoLines 0) := rfl
  refine ⟨_, _, rfl, rfl, rfl, rfl, rfl, ?_⟩
  refine (seeks_agree_outside_characters "é\r\nbc" delivers_twoLines hreader hseek rfl rfl
    (.start 6)).2.1 fun offset hsteps => ?_
  -- The target is the end of the text, which is inside of nothing.
  cases hsteps.aim
  exact absurd hsteps.inside.1 (by decide)

/-- Before anything is read, a seek to the second byte of the first character goes past it, where a
seek is to be refused. The text refuses it, and so does the same cursor when it is asked again. -/
theorem seek_oversteps :
    ¬(Cursor.ofSource twoLines 0).Lands
      ((SeekTarget.aim? 0 6 (.start 1)).bind (Text.landing? "é\r\nbc".toList 0))
      ((Cursor.ofSource twoLines 0).seek (.start 1)) ∧
    ((Cursor.ofSource twoLines 0).seek (.start 1)).1 = .ok 2 ∧
    ((Cursor.ofText "é\r\nbc").seek (.start 1)).1 =
      .error ⟨.invalidInput, "offset 1 is inside a character"⟩ ∧
    (((Cursor.ofSource twoLines 0).seek (.start 1)).2.seek (.start 1)).1 =
      .error ⟨.invalidInput, "offset 1 is inside a character"⟩ := by
  have hanswer : ((Cursor.ofSource twoLines 0).seek (.start 1)).1 = .ok 2 := rfl
  have hlanding : (SeekTarget.aim? 0 6 (.start 1)).bind (Text.landing? "é\r\nbc".toList 0) =
      none := by
    decide
  refine ⟨?_, hanswer, rfl, rfl⟩
  rw [hlanding]
  generalize (Cursor.ofSource twoLines 0).seek (.start 1) = sought at hanswer
  rintro (_ | _)
  cases hanswer

end ParseTrail
