import ParseTrail.Proofs.Cursor.Frontier
import ParseTrail.Proofs.Cursor.Undisturbed
import ParseTrail.Proofs.Text.WellFormed

/-!
# Decoding bytes

The bytes of a source are taken apart into characters one at a time: the first byte tells how many
others belong to it, each of these is looked at when it comes, and all of them are looked at
together in the end. What passes is UTF-8 and nothing else, so that a cursor reads as far as the
bytes are well-formed.

- `Source.nextCharacter_cases`: what is taken from bytes, by the encoding that they begin with;
- `decoder_accepts_exactly_utf8`: what a cursor reads from any bytes.
-/

namespace ParseTrail

theorem Text.length_encode (cs : List Char) : (encode cs).length = byteLength cs := by
  induction cs with
  | nil => rfl
  | cons ch cs ih =>
    rw [byteLength_cons, ← ih, ← String.length_utf8EncodeChar]
    exact List.length_append

/-! ### Sources -/

namespace Source

variable {src rest : Source} {bytes : List UInt8} {ch : Char}

/-- The source hands out the bytes, and nothing else happens but interruptions. -/
structure Offers (src : Source) (bytes : List UInt8) : Prop where
  harmless : ∀ event ∈ src, Harmless event
  bytes : src.bytes = bytes

theorem handsOut_offers : HandsOut Offers := by
  intro src byte more h
  obtain ⟨rest, hnext, hrest, hmore, -⟩ := nextByte_of_bytes_cons h.harmless h.bytes
  exact ⟨rest, hnext, hrest, hmore⟩

/-- What was handed out lay before what is still offered. -/
theorem Hands.exists_offers (h : src.Hands bytes rest) (hsrc : ∀ event ∈ src, Harmless event) :
    ∃ more, rest.Offers more ∧ src.bytes = bytes ++ more := by
  induction h with
  | refl _ => exact ⟨_, ⟨hsrc, rfl⟩, rfl⟩
  | empty _ ih => exact ih (List.forall_mem_cons.mp hsrc).2
  | byte _ ih =>
    obtain ⟨more, hmore, hbytes⟩ :=
      ih (List.forall_mem_cons.mpr ⟨trivial, (List.forall_mem_cons.mp hsrc).2⟩)
    exact ⟨more, hmore, congrArg _ hbytes⟩
  | interrupted _ _ ih => exact ih (List.forall_mem_cons.mp hsrc).2

/-- Bytes are taken together, or found to be malformed. -/
theorem finishCharacter_of_harmless (n : Nat) (taken : List UInt8)
    (hsrc : ∀ event ∈ src, Harmless event) :
    ∃ rest, finishCharacter n taken src = (.malformed, rest) ∨
      ∃ ch, finishCharacter n taken src = (.character ch, rest) := by
  induction n generalizing taken src with
  | zero =>
    rw [finishCharacter]
    cases Text.Utf8.decode? taken with
    | none => exact ⟨src, .inl rfl⟩
    | some ch => exact ⟨src, .inr ⟨ch, rfl⟩⟩
  | succ n ih =>
    rw [finishCharacter]
    rcases hbytes : src.bytes with _ | ⟨byte, more⟩
    · rw [nextByte_of_bytes_nil hsrc hbytes]
      exact ⟨[], .inl rfl⟩
    · obtain ⟨rest, hnext, hrest, -⟩ := nextByte_of_bytes_cons hsrc hbytes
      rw [hnext]
      cases hbyte : Text.Utf8.isContinuation byte with
      | true =>
        simp only [hbyte, if_true]
        exact ih (taken ++ [byte]) hrest
      | false => exact ⟨rest, .inl (by simp [hbyte])⟩

/-- What is taken from bytes. The encoding that they begin with tells the character. Other bytes are
malformed, if there are any. -/
theorem nextCharacter_cases (h : src.Offers bytes) :
    (∃ ch more rest, bytes = String.utf8EncodeChar ch ++ more ∧
        src.nextCharacter = (.character ch, rest) ∧ rest.Offers more) ∨
      (∀ ch, ¬String.utf8EncodeChar ch <+: bytes) ∧
        if bytes = [] then ∃ rest, src.nextCharacter = (.ended, rest)
        else ∃ rest, src.nextCharacter = (.malformed, rest) := by
  -- Either the bytes begin with the encoding of a character, or with that of none.
  by_cases hencode : ∃ ch, String.utf8EncodeChar ch <+: bytes
  · obtain ⟨ch, more, rfl⟩ := hencode
    obtain ⟨rest, hnext, hrest⟩ := nextCharacter_of_handsOut handsOut_offers h
    exact .inl ⟨ch, more, rest, rfl, hnext, hrest⟩
  · refine .inr ⟨fun ch hch => hencode ⟨ch, hch⟩, ?_⟩
    rcases bytes with _ | ⟨lead, more⟩
    · rw [if_pos rfl, nextCharacter, nextByte_of_bytes_nil h.harmless h.bytes]
      exact ⟨[], rfl⟩
    · rw [if_neg (List.cons_ne_nil _ _)]
      obtain ⟨rest, hlead, hrest⟩ := handsOut_offers src lead more h
      have hnext : src.nextCharacter =
          finishCharacter (Text.Utf8.sequenceLength lead - 1) [lead] rest := by
        rw [nextCharacter, hlead]
      obtain ⟨after, hafter | ⟨ch, hafter⟩⟩ :=
        finishCharacter_of_harmless (Text.Utf8.sequenceLength lead - 1) [lead] hrest.harmless
      · exact ⟨after, hnext.trans hafter⟩
      · -- A character would have been handed out as its encoding.
        have hhands := hands_of_nextCharacter (hnext.trans hafter)
        obtain ⟨others, -, hbytes⟩ := hhands.exists_offers h.harmless
        rw [h.bytes] at hbytes
        exact absurd ⟨ch, others, hbytes.symm⟩ hencode

end Source

/-! ### Cursors -/

namespace Cursor

variable {c : Cursor} {origin offset : Nat} {kept : List Char} {src : Source} {bytes : List UInt8}

/-- What is read of bytes, from the frontier on: the characters of their longest well-formed part,
one after another. Then nothing is left, or what is left is malformed. -/
theorem AtFrontier.exists_reads (h : c.AtFrontier origin kept src) (hsrc : src.Offers bytes)
    (hoffset : origin + Text.byteLength kept = offset) :
    ∃ cs, Text.Utf8.LongestWellFormed (Text.encode cs) bytes ∧
      ∃ d, c.ReadsOut (spelled offset cs) d ∧ d.text = kept ++ cs ∧
        ∃ e, d.readChar = .ok (if Text.encode cs = bytes then .ok none
            else .error (malformedAt (offset + Text.byteLength cs)), e) ∧ e.text = kept ++ cs := by
  -- Each character that is read leaves fewer bytes.
  induction hlength : bytes.length using Nat.strongRecOn generalizing c kept src bytes offset with
  | ind n ih =>
    subst hlength
    rcases Source.nextCharacter_cases hsrc with ⟨ch, more, rest, rfl, hnext, hrest⟩ | ⟨hnone, hend⟩
    · obtain ⟨d, hread, hd⟩ := h.readChar_character hnext
      have hoffset' : origin + Text.byteLength (kept ++ [ch]) = offset + ch.utf8Size := by
        rw [Text.byteLength_append, Text.byteLength_cons, Text.byteLength_nil]
        omega
      have hless : more.length < (String.utf8EncodeChar ch ++ more).length := by
        have hpos := ch.utf8Size_pos
        rw [List.length_append, String.length_utf8EncodeChar]
        omega
      obtain ⟨cs, hlongest, e, hreads, htext, f, hlast, htext'⟩ := ih _ hless hd hrest hoffset' rfl
      rw [List.append_assoc, List.singleton_append] at htext htext'
      refine ⟨ch :: cs, hlongest.cons ch, e, ?_, htext, f, ?_, htext'⟩
      · rw [spelled, ← hoffset', ← hd.position]
        rw [← hoffset', ← hd.position] at hreads
        exact .cons hread hreads
      · have hall : Text.encode cs = more ↔
            Text.encode (ch :: cs) = String.utf8EncodeChar ch ++ more :=
          (List.append_right_inj (String.utf8EncodeChar ch)).symm
        rw [hlast, Text.byteLength_cons, Nat.add_assoc, if_congr hall rfl rfl]
    · refine ⟨[], .nil hnone, c, .nil c, by rw [h.text, List.append_nil], ?_⟩
      by_cases hempty : bytes = []
      · rw [if_pos hempty] at hend
        obtain ⟨rest, hnext⟩ := hend
        obtain ⟨d, hread, htext, -⟩ := h.readChar_ended hnext
        exact ⟨d, by rw [hread, hempty]; rfl, by rw [htext, List.append_nil]⟩
      · rw [if_neg hempty] at hend
        obtain ⟨rest, hnext⟩ := hend
        obtain ⟨d, hread, hd⟩ := h.readChar_malformed hnext
        refine ⟨d, ?_, by rw [hd.text, List.append_nil]⟩
        rw [hread, hoffset, if_neg fun heq => hempty heq.symm, Text.byteLength_nil, Nat.add_zero]

end Cursor

/-- Reading character by character accepts exactly UTF-8. Of the bytes of a source, in pieces of any
size, a cursor at any offset reads the characters of their longest well-formed part, in order, and
these are the text it keeps. If that is all of the bytes, input then ends. If it is not, the error
names the offset at which that part ends. -/
theorem decoder_accepts_exactly_utf8 (src : Source) (origin : Nat) (c : Cursor)
    (hsrc : ∀ event ∈ src, Source.Harmless event) (hc : c.StartsOn src origin) :
    ∃ cs, Text.Utf8.LongestWellFormed (Text.encode cs) src.bytes ∧
      ∃ d, c.ReadsOut (Cursor.spelled origin cs) d ∧ d.text = cs ∧
        ∃ e, d.readChar = .ok (if Text.encode cs = src.bytes then .ok none
            else .error (Cursor.malformedAt (origin + (Text.encode cs).length)), e) ∧
          e.text = cs := by
  have hoffers : src.Offers src.bytes := ⟨hsrc, rfl⟩
  obtain ⟨cs, hlongest, d, hreads, htext, e, hlast, htext'⟩ :=
    hc.atFrontier.exists_reads hoffers (Nat.add_zero origin)
  refine ⟨cs, hlongest, d, hreads, htext, e, ?_, htext'⟩
  rw [hlast, Text.length_encode]

/-- A source of a letter, a currency sign in two pieces, and a surrogate. -/
def lateSurrogate : Source :=
  [.data [0x61, 0xe2], .error ⟨.interrupted, "again"⟩, .data [0x82, 0xac, 0xed, 0xa0, 0x80]]

theorem decoder_accepts_exactly_utf8_surrogate :
    ∃ cs, Text.Utf8.LongestWellFormed (Text.encode cs) lateSurrogate.bytes ∧
      ∃ d, (Cursor.ofSource lateSurrogate 0).ReadsOut (Cursor.spelled 0 cs) d ∧ d.text = cs := by
  have hreader : Cursor.ofReader 1 lateSurrogate = .ok (Cursor.ofSource lateSurrogate 0) := rfl
  have hharmless : ∀ event ∈ lateSurrogate, Source.Harmless event := by
    intro event hevent
    simp only [lateSurrogate, List.mem_cons, List.not_mem_nil, or_false] at hevent
    rcases hevent with rfl | rfl | rfl
    · trivial
    · rfl
    · trivial
  obtain ⟨cs, hlongest, d, hreads, htext, -⟩ :=
    decoder_accepts_exactly_utf8 lateSurrogate 0 _ hharmless (.ofReader hreader)
  exact ⟨cs, hlongest, d, hreads, htext⟩

end ParseTrail
