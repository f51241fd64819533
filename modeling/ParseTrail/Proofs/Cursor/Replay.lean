import ParseTrail.Proofs.Cursor.Extension
import ParseTrail.Proofs.Cursor.Undisturbed

/-!
# Doing the same with another source

An operation on a cursor pulls no more than it looks at. If it answers, and the source has not ended
by then, it would have answered the same over any source that hands out the same bytes first,
whatever comes after them.

- `Source.ahead_of_nextCharacter`: a character that was taken lay ahead;
- `Cursor.Replays`: what an operation pulled, and that it goes the same way over another source;
- `replays_read`, `replays_atEnd` and their companions: what operations pull.
-/

namespace ParseTrail

namespace Source

variable {src rest : Source} {c : Char} {bytes : List UInt8}

/-- What is handed out comes before what is handed out after it. -/
theorem Hands.ahead_eq (h : src.Hands bytes rest) : src.ahead = bytes ++ rest.ahead := by
  induction h with
  | refl _ => rfl
  | empty _ ih => exact ih
  | byte _ ih => exact congrArg (_ :: ·) ih
  | interrupted hkind _ ih => rw [ahead, if_pos hkind, ih]

/-- A character that is taken was ahead, in its encoding. -/
theorem ahead_of_nextCharacter (h : src.nextCharacter = (.character c, rest)) :
    src.ahead = String.utf8EncodeChar c ++ rest.ahead :=
  (hands_of_nextCharacter h).ahead_eq

end Source

namespace Cursor

/-- The cursor over another source. -/
def withSource (c : Cursor) (src : Source) : Cursor :=
  { c with source := some src }

/-- How far the input has been pulled. -/
def pulled (c : Cursor) : Nat :=
  c.origin + c.buffered

/-- On the way from one cursor to another some bytes were pulled, if the source is still there. Over
every source that hands out these bytes first there is the same way, with nothing else pulled. What
`goes` says of the way is true of it. -/
def Replays (c d : Cursor) (goes : Cursor → Cursor → Prop) : Prop :=
  ∀ rest, d.source = some rest → ∃ src bytes, c.source = some src ∧
    src.ahead = bytes ++ rest.ahead ∧ d.pulled = c.pulled + bytes.length ∧
    ∀ src', bytes <+: src'.ahead →
      ∃ rest', src'.ahead = bytes ++ rest'.ahead ∧ goes (c.withSource src') (d.withSource rest')

variable {c d e : Cursor} {goes first second : Cursor → Cursor → Prop} {n offset : Nat}

namespace Replays

/-- A way on which nothing is pulled. -/
theorem of_source_eq (hsource : d.source = c.source) (hpulled : d.pulled = c.pulled)
    (h : ∀ src, goes (c.withSource src) (d.withSource src)) : c.Replays d goes := by
  intro rest hrest
  refine ⟨rest, [], hsource.symm.trans hrest, rfl, hpulled, fun src' _ => ?_⟩
  exact ⟨src', rfl, h src'⟩

/-- Less may be said of the way. -/
theorem mono (h : c.Replays d first)
    (hgoes : ∀ src rest, first (c.withSource src) (d.withSource rest) →
      second (c.withSource src) (d.withSource rest)) :
    c.Replays d second := by
  intro rest hrest
  obtain ⟨src, bytes, hsrc, hahead, hpulled, hagain⟩ := h rest hrest
  refine ⟨src, bytes, hsrc, hahead, hpulled, fun src' hprefix => ?_⟩
  obtain ⟨rest', hrest', hfirst⟩ := hagain src' hprefix
  exact ⟨rest', hrest', hgoes _ _ hfirst⟩

/-- One way after the other: the bytes pulled on the second come after those of the first. -/
theorem trans (hcd : c.Replays d first) (hde : d.Replays e second)
    (hgoes : ∀ src mid rest, first (c.withSource src) (d.withSource mid) →
      second (d.withSource mid) (e.withSource rest) →
      goes (c.withSource src) (e.withSource rest)) : c.Replays e goes := by
  intro rest hrest
  obtain ⟨mid, more, hmid, hmore, hpulled, hsecond⟩ := hde rest hrest
  obtain ⟨src, bytes, hsrc, hbytes, hpulled', hfirst⟩ := hcd mid hmid
  refine ⟨src, bytes ++ more, hsrc, ?_, ?_, fun src' hprefix => ?_⟩
  · rw [hbytes, hmore, List.append_assoc]
  · rw [hpulled, hpulled', List.length_append, Nat.add_assoc]
  · obtain ⟨mid', hmid', hgoes'⟩ := hfirst src' ((List.prefix_append bytes more).trans hprefix)
    rw [hmid', List.prefix_append_right_inj] at hprefix
    obtain ⟨rest', hrest', hgoes''⟩ := hsecond mid' hprefix
    refine ⟨rest', ?_, hgoes _ _ _ hgoes' hgoes''⟩
    rw [hmid', hrest', List.append_assoc]

end Replays

/-! ### Operations -/

/-- Pulling a character takes the bytes of that character and no others. -/
theorem replays_fill {more : Bool} (h : c.fill = (.ok more, d)) :
    c.Replays d fun c d => c.fill = (.ok more, d) := by
  intro rest hrest
  unfold fill at h
  rcases hsrc : c.source with _ | src
  · rw [hsrc] at h
    cases h
    rw [hsrc] at hrest
    cases hrest
  · rw [hsrc] at h
    dsimp only at h
    split at h
    · next ch mid hnext =>
      cases h
      cases hrest
      -- Just the encoding of the one character was pulled.
      refine ⟨src, String.utf8EncodeChar ch, rfl, Source.ahead_of_nextCharacter hnext, ?_, ?_⟩
      · simp only [pulled, buffered, Text.byteLength_append, Text.byteLength_cons,
          Text.byteLength_nil, String.length_utf8EncodeChar]
        omega
      · intro src' hprefix
        obtain ⟨bytes, hbytes⟩ := hprefix
        obtain ⟨rest', hnext', hrest'⟩ := Source.nextCharacter_of_ahead hbytes.symm
        refine ⟨rest', ?_, ?_⟩
        · rw [hrest', hbytes]
        · simp only [fill, withSource, hnext']
    · cases h
      cases hrest
    · cases h
    · cases h

/-- Moving over a character takes its bytes, or none. -/
theorem replays_step {more : Bool} (h : c.step = (.ok more, d)) :
    c.Replays d fun c d => c.step = (.ok more, d) := by
  unfold step at h
  -- Something is pulled only at the end of what is kept.
  by_cases hend : c.index = c.buffered
  · have hend' (src : Source) : (c.withSource src).index = (c.withSource src).buffered := hend
    rw [if_pos hend] at h
    split at h
    · next e hfill =>
      cases h
      have hadvance : e.Replays e.advance fun e d => d = e.advance :=
        .of_source_eq rfl rfl fun _ => rfl
      refine (replays_fill hfill).trans hadvance fun src mid rest hfill' hrest => ?_
      rw [step, if_pos (hend' src), hfill']
      exact congrArg (_, ·) hrest.symm
    · next hnot hfill =>
      cases h
      refine (replays_fill hfill).mono fun src rest hfill' => ?_
      rcases more with _ | _
      · rw [step, if_pos (hend' src), hfill']
      · exact absurd rfl hnot
  · rw [if_neg hend] at h
    cases h
    refine .of_source_eq rfl rfl fun src => ?_
    have hend' : ¬(c.withSource src).index = (c.withSource src).buffered := hend
    rw [step, if_neg hend']
    rfl

/-- Moving over several is one way after the other. -/
theorem replays_skip (h : c.skip n = (.ok (), d)) :
    c.Replays d fun c d => c.skip n = (.ok (), d) := by
  induction n generalizing c with
  | zero =>
    cases h
    exact .of_source_eq rfl rfl fun _ => rfl
  | succ n ih =>
    rw [skip] at h
    split at h
    · next e hstep =>
      refine (replays_step hstep).trans (ih h) fun src mid rest hstep' hskip => ?_
      rw [skip, hstep']
      exact hskip
    · next hstep =>
      cases h
      refine (replays_step hstep).mono fun src rest hstep' => ?_
      rw [skip, hstep']
    · cases h

/-- Reading them is moving over them. -/
theorem replays_read {chars : List Char} (h : c.read n = .ok (.ok chars, d)) :
    c.Replays d fun c d => c.read n = .ok (.ok chars, d) := by
  unfold read at h
  split at h
  · cases h
  · next hskip =>
    split at h
    · next hslice =>
      cases h
      refine (replays_skip hskip).mono fun src rest hskip' => ?_
      rw [read, hskip']
      -- The text kept is the same, whatever it was pulled from.
      have hslice' : Text.slice? (d.withSource rest).text (c.withSource src).index
          (d.withSource rest).index = some chars := hslice
      simp only [hslice']
    · cases h

/-- So is reading one. -/
theorem replays_readChar {char? : Option Char} (h : c.readChar = .ok (.ok char?, d)) :
    c.Replays d fun c d => c.readChar = .ok (.ok char?, d) := by
  unfold readChar at h
  split at h
  · cases h
  · next hstep =>
    cases h
    refine (replays_step hstep).mono fun src rest hstep' => ?_
    rw [readChar, hstep']
  · next hstep =>
    split at h
    · next hslice =>
      cases h
      refine (replays_step hstep).mono fun src rest hstep' => ?_
      rw [readChar, hstep']
      have hslice' : Text.slice? (d.withSource rest).text (c.withSource src).index
          (d.withSource rest).index = some _ := hslice
      simp only [hslice']
    · cases h

/-- Looking at them is, too, as going back takes nothing. -/
theorem replays_peek {chars : List Char} (h : c.peek n = .ok (.ok chars, d)) :
    c.Replays d fun c d => c.peek n = .ok (.ok chars, d) := by
  unfold peek at h
  split at h
  · cases h
  · cases h
  · next e hread =>
    cases h
    have hback : e.Replays { e with index := c.index } fun e d => d = { e with index := c.index } :=
      .of_source_eq rfl rfl fun _ => rfl
    refine (replays_read hread).trans hback fun src mid rest hread' hrest => ?_
    rw [peek, hread', hrest]
    rfl

/-- Asking for the end of input takes one character at most. -/
theorem replays_atEnd {finished : Bool} (h : c.atEnd = (.ok finished, d)) :
    c.Replays d fun c d => c.atEnd = (.ok finished, d) := by
  unfold atEnd at h
  by_cases hin : c.index < c.buffered
  · rw [if_pos hin] at h
    cases h
    refine .of_source_eq rfl rfl fun src => ?_
    have hin' : (c.withSource src).index < (c.withSource src).buffered := hin
    rw [atEnd, if_pos hin']
  · rw [if_neg hin] at h
    split at h
    · next hfill =>
      cases h
      refine (replays_fill hfill).mono fun src rest hfill' => ?_
      have hin' : ¬(c.withSource src).index < (c.withSource src).buffered := hin
      rw [atEnd, if_neg hin', hfill']
    · cases h

/-- Going back takes nothing. -/
theorem replays_returnTo (h : c.returnTo offset = .ok d) :
    c.Replays d fun c d => c.returnTo offset = .ok d := by
  unfold returnTo moveTo at h
  split at h
  · next hkept =>
    cases h
    refine .of_source_eq rfl rfl fun src => ?_
    have hkept' : (c.withSource src).origin ≤ offset ∧
        offset - (c.withSource src).origin ≤ (c.withSource src).buffered := hkept
    rw [returnTo, moveTo, if_pos hkept']
    rfl
  · cases h

/-- A release takes nothing, and does the same over every source. -/
theorem replays_release (c : Cursor) : c.Replays c.release fun c d => d = c.release := by
  refine .of_source_eq (source_release c) (release_end c) fun src => ?_
  unfold release
  -- Whether a scope is open does not depend on the source.
  by_cases hscope : c.scopes > 0
  · rw [if_pos hscope, if_pos (show (c.withSource src).scopes > 0 from hscope)]
  · rw [if_neg hscope, if_neg (show ¬(c.withSource src).scopes > 0 from hscope)]
    rfl

end Cursor

end ParseTrail
