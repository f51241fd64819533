import ParseTrail.Cursor.Request
import ParseTrail.Proofs.Source
import ParseTrail.Proofs.Text.Utf8

/-!
# Reading without disturbance

As long as no operation on a cursor tells of an error, its source has handed out the encoding of
some text and done nothing else, apart from interruptions. This holds of every source, whatever it
would do later on, and so it says what cannot have happened: another error, or bytes that encode no
character.

- `Source.hands_of_nextCharacter`: what a source did to give a character;
- `undisturbed_read`, `undisturbed_lineAt` and their companions: what it did while a cursor moved.
-/

namespace ParseTrail

/-! ### Sources -/

namespace Source

/-- On its way to another source, a source handed out bytes and did nothing else, apart from
interruptions. -/
inductive Hands : Source → List UInt8 → Source → Prop
  | refl (src : Source) : Hands src [] src
  | empty {rest out : Source} {bytes : List UInt8} :
    Hands rest bytes out → Hands (.data [] :: rest) bytes out
  | byte {first : UInt8} {piece bytes : List UInt8} {rest out : Source} :
    Hands (.data piece :: rest) bytes out → Hands (.data (first :: piece) :: rest) (first :: bytes) out
  | interrupted {e : SourceError} {rest out : Source} {bytes : List UInt8} :
    e.kind = .interrupted → Hands rest bytes out → Hands (.error e :: rest) bytes out

/-- The source has come to its end, which need not be final. -/
def AtEnd : Source → Prop
  | [] | .pause :: _ => True
  | _ => False

variable {src mid rest : Source} {c : Char}

/-- What is handed out one after the other is handed out together. -/
theorem Hands.trans {bytes more : List UInt8} (h : src.Hands bytes mid) (h' : mid.Hands more rest) :
    src.Hands (bytes ++ more) rest := by
  induction h with
  | refl _ => exact h'
  | empty _ ih => exact .empty (ih h')
  | byte _ ih => exact .byte (ih h')
  | interrupted hkind _ ih => exact .interrupted hkind (ih h')

/-- What was handed out comes first among all that a source hands out. -/
theorem Hands.bytes_eq {taken : List UInt8} (h : src.Hands taken rest) :
    src.bytes = taken ++ rest.bytes := by
  induction h with
  | refl _ => rfl
  | empty _ ih => exact ih
  | byte _ ih => exact congrArg (_ :: ·) ih
  | interrupted _ _ ih => exact ih

/-- A byte that is taken was handed out. -/
theorem hands_of_nextByte {byte : UInt8} (h : src.nextByte = (.ok (some byte), rest)) :
    src.Hands [byte] rest := by
  induction src with
  | nil => cases h
  | cons event src ih =>
    cases event with
    | data piece =>
      rcases piece with _ | ⟨first, piece⟩
      · exact .empty (ih h)
      · cases h
        exact .byte (.refl _)
    | error e =>
      rw [nextByte] at h
      split at h
      · next hkind => exact .interrupted hkind (ih h)
      · cases h
    | pause => cases h

/-- There is no next byte where the source has ended. -/
theorem exists_atEnd_of_nextByte (h : src.nextByte = (.ok none, rest)) :
    ∃ mid, src.Hands [] mid ∧ mid.AtEnd := by
  induction src with
  | nil => exact ⟨[], .refl _, trivial⟩
  | cons event src ih =>
    cases event with
    | data piece =>
      rcases piece with _ | ⟨first, piece⟩
      · obtain ⟨mid, hmid, hend⟩ := ih h
        exact ⟨mid, .empty hmid, hend⟩
      · cases h
    | error e =>
      rw [nextByte] at h
      split at h
      · next hkind =>
        obtain ⟨mid, hmid, hend⟩ := ih h
        exact ⟨mid, .interrupted hkind hmid, hend⟩
      · cases h
    | pause => exact ⟨_, .refl _, trivial⟩

/-- The rest of a character that was decoded. -/
theorem exists_hands_of_finishCharacter {n : Nat} {taken : List UInt8}
    (h : finishCharacter n taken src = (.character c, rest)) :
    ∃ tail, tail.length = n ∧ (∀ byte ∈ tail, Text.Utf8.isContinuation byte = true) ∧
      Text.Utf8.decode? (taken ++ tail) = some c ∧ src.Hands tail rest := by
  -- By induction on how many bytes are to come, after any that were taken before.
  induction n generalizing taken src with
  | zero =>
    rw [finishCharacter] at h
    split at h
    · next hdecode =>
      cases h
      exact ⟨[], rfl, List.forall_mem_nil _, by rw [List.append_nil, hdecode], .refl _⟩
    · cases h
  | succ n ih =>
    rw [finishCharacter] at h
    split at h
    · cases h
    · cases h
    · next byte mid hnext =>
      split at h
      · next hbyte =>
        obtain ⟨tail, hlength, htail, hdecode, hhands⟩ := ih h
        refine ⟨byte :: tail, by rw [List.length_cons, hlength], ?_, ?_, ?_⟩
        · exact List.forall_mem_cons.mpr ⟨hbyte, htail⟩
        · rw [← hdecode, List.append_assoc, List.singleton_append]
        · exact (hands_of_nextByte hnext).trans hhands
      · cases h

/-- Inside a character the end of the source is no end, but an error. -/
theorem finishCharacter_ne_ended (n : Nat) (taken : List UInt8) (src : Source) :
    (finishCharacter n taken src).1 ≠ .ended := by
  induction n generalizing taken src with
  | zero =>
    rw [finishCharacter]
    split <;> exact Fetched.noConfusion
  | succ n ih =>
    rw [finishCharacter]
    split
    · exact Fetched.noConfusion
    · exact Fetched.noConfusion
    · split
      · exact ih _ _
      · exact Fetched.noConfusion

/-- Every character takes one byte at least. -/
theorem sequenceLength_pos (first : UInt8) : 0 < Text.Utf8.sequenceLength first := by
  unfold Text.Utf8.sequenceLength
  repeat' split
  all_goals decide

/-- A source that gave a character handed out its encoding. -/
theorem hands_of_nextCharacter (h : src.nextCharacter = (.character c, rest)) :
    src.Hands (String.utf8EncodeChar c) rest := by
  rw [nextCharacter] at h
  split at h
  · cases h
  · cases h
  · next lead mid hnext =>
    obtain ⟨tail, hlength, htail, hdecode, hhands⟩ := exists_hands_of_finishCharacter h
    have hpos := sequenceLength_pos lead
    rw [Text.Utf8.encode_of_decode? (by omega) htail hdecode]
    exact (hands_of_nextByte hnext).trans hhands

/-- There is no next character where the source has ended. -/
theorem exists_atEnd_of_nextCharacter (h : src.nextCharacter = (.ended, rest)) :
    ∃ mid, src.Hands [] mid ∧ mid.AtEnd := by
  rw [nextCharacter] at h
  split at h
  · cases h
  · next hnext => exact exists_atEnd_of_nextByte hnext
  · exact absurd (congrArg Prod.fst h) (finishCharacter_ne_ended _ _ _)

end Source

/-! ### Cursors -/

namespace Cursor

/-- On the way from one cursor to another the source handed out the encoding of some text, and did
nothing else, apart from interruptions. It was dropped only at its end. -/
def Undisturbed (c d : Cursor) : Prop :=
  match c.source with
  | none => d.source = none
  | some src => ∃ chars rest, src.Hands (Text.encode chars) rest ∧
      (d.source = some rest ∨ d.source = none ∧ rest.AtEnd)

variable {c d e : Cursor} {n offset : Nat}

namespace Undisturbed

/-- An operation that leaves the source alone. -/
theorem of_source_eq (h : d.source = c.source) : c.Undisturbed d := by
  unfold Undisturbed
  rcases hsrc : c.source with _ | src
  · exact h.trans hsrc
  · exact ⟨[], src, .refl _, .inl (h.trans hsrc)⟩

/-- What is not disturbed twice is not disturbed. -/
theorem trans (hcd : c.Undisturbed d) (hde : d.Undisturbed e) : c.Undisturbed e := by
  unfold Undisturbed at hcd hde ⊢
  rcases hsrc : c.source with _ | src
  · rw [hsrc] at hcd
    rw [hcd] at hde
    exact hde
  · rw [hsrc] at hcd
    obtain ⟨chars, mid, hhands, hmid | ⟨hnone, hend⟩⟩ := hcd
    · rw [hmid] at hde
      obtain ⟨more, rest, hmore, hrest⟩ := hde
      refine ⟨chars ++ more, rest, ?_, hrest⟩
      rw [Text.encode, List.flatMap_append]
      exact hhands.trans hmore
    · -- Once the source is dropped, nothing more is pulled.
      rw [hnone] at hde
      exact ⟨chars, mid, hhands, .inr ⟨hde, hend⟩⟩

end Undisturbed

/-- To pull a character without an error does not disturb the source. -/
theorem undisturbed_fill {more : Bool} (h : c.fill = (.ok more, d)) : c.Undisturbed d := by
  unfold fill at h
  unfold Undisturbed
  rcases hsrc : c.source with _ | src
  · rw [hsrc] at h
    cases h
    exact hsrc
  · rw [hsrc] at h
    dsimp only at h
    split at h
    · next ch rest hnext =>
      cases h
      refine ⟨[ch], rest, ?_, .inl rfl⟩
      rw [Text.encode, List.flatMap_singleton]
      exact Source.hands_of_nextCharacter hnext
    · next hnext =>
      cases h
      obtain ⟨mid, hhands, hend⟩ := Source.exists_atEnd_of_nextCharacter hnext
      exact ⟨[], mid, hhands, .inr ⟨rfl, hend⟩⟩
    · cases h
    · cases h

/-- So it is to move over a character. -/
theorem undisturbed_step {more : Bool} (h : c.step = (.ok more, d)) : c.Undisturbed d := by
  unfold step at h
  by_cases hend : c.index = c.buffered
  · rw [if_pos hend] at h
    split at h
    · next hfill =>
      cases h
      exact (undisturbed_fill hfill).trans (.of_source_eq rfl)
    · next hfill =>
      cases h
      exact undisturbed_fill hfill
  · rw [if_neg hend] at h
    cases h
    exact .of_source_eq rfl

/-- So it is to move over several, by induction on their number. -/
theorem undisturbed_skip (h : c.skip n = (.ok (), d)) : c.Undisturbed d := by
  induction n generalizing c with
  | zero =>
    cases h
    exact .of_source_eq rfl
  | succ n ih =>
    rw [skip] at h
    split at h
    · next hstep => exact (undisturbed_step hstep).trans (ih h)
    · next hstep =>
      cases h
      exact undisturbed_step hstep
    · cases h

/-- So it is to read them. -/
theorem undisturbed_read {chars : List Char} (h : c.read n = .ok (.ok chars, d)) :
    c.Undisturbed d := by
  unfold read at h
  split at h
  · cases h
  · next hskip =>
    split at h
    · cases h
      exact undisturbed_skip hskip
    · cases h

/-- So it is to read one. -/
theorem undisturbed_readChar {char? : Option Char} (h : c.readChar = .ok (.ok char?, d)) :
    c.Undisturbed d := by
  unfold readChar at h
  split at h
  · cases h
  · next hstep =>
    cases h
    exact undisturbed_step hstep
  · next hstep =>
    split at h
    · cases h
      exact undisturbed_step hstep
    · cases h

/-- So it is to look at characters, since going back leaves the source alone. -/
theorem undisturbed_peek {chars : List Char} (h : c.peek n = .ok (.ok chars, d)) :
    c.Undisturbed d := by
  unfold peek at h
  split at h
  · cases h
  · cases h
  · next hread =>
    cases h
    exact (undisturbed_read hread).trans (.of_source_eq rfl)

/-- So it is to ask for the end of input. -/
theorem undisturbed_atEnd {finished : Bool} (h : c.atEnd = (.ok finished, d)) :
    c.Undisturbed d := by
  unfold atEnd at h
  by_cases hin : c.index < c.buffered
  · rw [if_pos hin] at h
    cases h
    exact .of_source_eq rfl
  · rw [if_neg hin] at h
    split at h
    · next hfill =>
      cases h
      exact undisturbed_fill hfill
    · cases h

/-- So it is to pull characters up to one that is wanted. -/
theorem undisturbed_fillUntil {stop : Char → Bool} (h : c.fillUntil stop n = (.ok (), d)) :
    c.Undisturbed d := by
  induction n generalizing c with
  | zero =>
    cases h
    exact .of_source_eq rfl
  | succ n ih =>
    rw [fillUntil] at h
    split at h
    · next hfill =>
      split at h
      · cases h
        exact undisturbed_fill hfill
      · exact (undisturbed_fill hfill).trans (ih h)
    · next hfill =>
      cases h
      exact undisturbed_fill hfill
    · cases h

/-- Reading ahead to the end of a line. -/
theorem undisturbed_lineAt {line : Line} (h : c.lineAt offset = (.ok line, d)) :
    c.Undisturbed d := by
  unfold lineAt completeLine at h
  by_cases hline : ((Text.dropBytes? (c.clamp offset) c.text).getD []).contains '\n'
  · rw [if_pos hline] at h
    cases h
    exact .of_source_eq rfl
  · rw [if_neg hline] at h
    split at h
    · cases h
    · next hfill =>
      cases h
      exact undisturbed_fillUntil hfill

/-- To go back leaves the source as it is. -/
theorem source_returnTo (h : c.returnTo offset = .ok d) : d.source = c.source := by
  unfold returnTo moveTo at h
  split at h
  · cases h
    rfl
  · cases h

/-- So does a release. -/
theorem source_release (c : Cursor) : c.release.source = c.source := by
  unfold release
  split <;> rfl

end Cursor

end ParseTrail
