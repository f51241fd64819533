import Mathlib.Data.List.Forall2
import ParseTrail.Proofs.Source

/-!
# Well-formed UTF-8

Which bytes are UTF-8 is told by a table of the sequences that encode one character. It leaves out
overlong forms, surrogates and what lies past the last code point by the range of the second byte,
or of the first.

- `isSequence_iff`: the sequences of the table are the encodings of the characters;
- `wellFormed_iff`: well-formed bytes are the encodings of the texts;
- `LongestWellFormed.nil`, `LongestWellFormed.cons`: how far bytes are well-formed, from the
  encoding that they begin with.
-/

namespace ParseTrail.Text

namespace Utf8

/-- The sequences that encode a character, by the ranges of their bytes. -/
def sequenceRanges : List (List (Nat × Nat)) :=
  [[(0x00, 0x7f)],
   [(0xc2, 0xdf), (0x80, 0xbf)],
   [(0xe0, 0xe0), (0xa0, 0xbf), (0x80, 0xbf)],
   [(0xe1, 0xec), (0x80, 0xbf), (0x80, 0xbf)],
   [(0xed, 0xed), (0x80, 0x9f), (0x80, 0xbf)],
   [(0xee, 0xef), (0x80, 0xbf), (0x80, 0xbf)],
   [(0xf0, 0xf0), (0x90, 0xbf), (0x80, 0xbf), (0x80, 0xbf)],
   [(0xf1, 0xf3), (0x80, 0xbf), (0x80, 0xbf), (0x80, 0xbf)],
   [(0xf4, 0xf4), (0x80, 0x8f), (0x80, 0xbf), (0x80, 0xbf)]]

/-- A byte lies in a range. -/
def InRange (byte : UInt8) (range : Nat × Nat) : Prop :=
  range.1 ≤ byte.toNat ∧ byte.toNat ≤ range.2

/-- The bytes are a sequence of the table. -/
def IsSequence (bytes : List UInt8) : Prop :=
  ∃ ranges ∈ sequenceRanges, List.Forall₂ InRange bytes ranges

/-- The bytes are sequences of the table, one after another. -/
inductive WellFormed : List UInt8 → Prop
  | nil : WellFormed []
  | append {bytes rest : List UInt8} :
    IsSequence bytes → WellFormed rest → WellFormed (bytes ++ rest)

/-- The bytes are the longest part of others, from their start, that is well-formed. -/
structure LongestWellFormed (whole bytes : List UInt8) : Prop where
  wellFormed : WellFormed whole
  isPrefix : whole <+: bytes
  longest : ∀ other, WellFormed other → other <+: bytes → other <+: whole

/-! ### From bytes to characters -/

theorem lead_of_range : ∀ n < 0x100,
    (n ≤ 0x7f → sequenceLength (UInt8.ofNat n) = 1) ∧
    (0xc0 ≤ n → n ≤ 0xdf → sequenceLength (UInt8.ofNat n) = 2) ∧
    (0xe0 ≤ n → n ≤ 0xef → sequenceLength (UInt8.ofNat n) = 3) ∧
    (0xf0 ≤ n → n ≤ 0xf7 → sequenceLength (UInt8.ofNat n) = 4) := by
  decide +kernel

theorem continuation_of_range : ∀ n < 0x100, 0x80 ≤ n → n ≤ 0xbf →
    isContinuation (UInt8.ofNat n) = true := by
  decide +kernel

variable {b : UInt8} {v : Nat}

/-- A byte in the range of continuations carries six bits. -/
theorem digit_of_range (h : 0x80 ≤ b.toNat) (h' : b.toNat ≤ 0xbf) :
    isContinuation b = true ∧ 0x80 + (b &&& 0x3f).toNat = b.toNat := by
  have hcontinues := continuation_of_range b.toNat b.toNat_lt h h'
  have hdigit := continuation_cases b.toNat b.toNat_lt hcontinues
  rw [UInt8.ofNat_toNat] at hcontinues hdigit
  exact ⟨hcontinues, hdigit.1⟩

/-- A code point that is not too small gives a character. -/
theorem exists_ofCode? {least : Nat} (hvalid : v.isValidChar) (hleast : least ≤ v) :
    ∃ ch, ofCode? least v = some ch :=
  ⟨_, by rw [ofCode?, dif_pos hvalid, if_pos hleast]⟩

/-- A byte that is a sequence of its own. -/
theorem exists_encode_one {first : Nat × Nat} {bytes : List UInt8}
    (h : List.Forall₂ InRange bytes [first]) (hfirst : first.2 ≤ 0x7f) :
    ∃ ch, String.utf8EncodeChar ch = bytes := by
  obtain _ | @⟨a, _, _, _, ⟨-, ha⟩, _ | _⟩ := h
  have hsingle : a.toNat ≤ 0x7f := Nat.le_trans ha hfirst
  have hlength := (lead_of_range a.toNat a.toNat_lt).1 hsingle
  rw [UInt8.ofNat_toNat] at hlength
  obtain ⟨ch, hch⟩ := exists_ofCode? (.inl (by omega)) (Nat.zero_le a.toNat)
  refine ⟨ch, encode_of_decode? hlength (List.forall_mem_nil _) ?_⟩
  rw [decode?, if_pos (UInt8.lt_iff_toNat_lt.mpr (Nat.lt_succ_of_le hsingle)), hch]

/-- A sequence of two bytes, if the smallest code point that its digits make is not too small. -/
theorem exists_encode_two {first : Nat × Nat} {bytes : List UInt8}
    (h : List.Forall₂ InRange bytes [first, (0x80, 0xbf)])
    (hfirst : 0xc0 ≤ first.1 ∧ first.2 ≤ 0xdf) (hleast : 0x80 ≤ (first.1 - 0xc0) * 64) :
    ∃ ch, String.utf8EncodeChar ch = bytes := by
  obtain _ | @⟨a, _, _, _, ⟨ha, ha'⟩, _ | @⟨b, _, _, _, ⟨hb, hb'⟩, _ | _⟩⟩ := h
  simp only at hb hb'
  have hlength := (lead_of_range a.toNat a.toNat_lt).2.1 (by omega) (by omega)
  have hlead := (lead_cases a.toNat a.toNat_lt).1 hlength
  rw [UInt8.ofNat_toNat] at hlength hlead
  obtain ⟨hbtail, hbdigit⟩ := digit_of_range hb hb'
  have hvalid : ((a &&& 0x1f).toNat * 64 + (b &&& 0x3f).toNat).isValidChar := .inl (by omega)
  obtain ⟨ch, hch⟩ := exists_ofCode? hvalid (show 0x80 ≤ _ by omega)
  refine ⟨ch, encode_of_decode? hlength ?_ hch⟩
  simp only [List.mem_singleton, forall_eq, hbtail]

/-- A sequence of three bytes, if the smallest code point is not too small, and no code point is a
surrogate: all lie before those, or all after. -/
theorem exists_encode_three {first second : Nat × Nat} {bytes : List UInt8}
    (h : List.Forall₂ InRange bytes [first, second, (0x80, 0xbf)])
    (hfirst : 0xe0 ≤ first.1 ∧ first.2 ≤ 0xef) (hsecond : 0x80 ≤ second.1 ∧ second.2 ≤ 0xbf)
    (hleast : 0x800 ≤ ((first.1 - 0xe0) * 64 + (second.1 - 0x80)) * 64)
    (hsurrogate : ((first.2 - 0xe0) * 64 + (second.2 - 0x80)) * 64 + 0x3f < 0xd800 ∨
      0xdfff < ((first.1 - 0xe0) * 64 + (second.1 - 0x80)) * 64) :
    ∃ ch, String.utf8EncodeChar ch = bytes := by
  obtain _ | @⟨a, _, _, _, ⟨ha, ha'⟩, _ | @⟨b, _, _, _, ⟨hb, hb'⟩,
    _ | @⟨c, _, _, _, ⟨hc, hc'⟩, _ | _⟩⟩⟩ := h
  simp only at hc hc'
  have hlength := (lead_of_range a.toNat a.toNat_lt).2.2.1 (by omega) (by omega)
  have hlead := (lead_cases a.toNat a.toNat_lt).2.1 hlength
  rw [UInt8.ofNat_toNat] at hlength hlead
  -- Each byte after the first is a digit in base 64.
  obtain ⟨hbtail, hbdigit⟩ := digit_of_range (b := b) (by omega) (by omega)
  obtain ⟨hctail, hcdigit⟩ := digit_of_range hc hc'
  have hvalid : (((a &&& 0x0f).toNat * 64 + (b &&& 0x3f).toNat) * 64
      + (c &&& 0x3f).toNat).isValidChar := by
    rcases hsurrogate with hbefore | hafter
    · exact .inl (by omega)
    · exact .inr ⟨by omega, by omega⟩
  obtain ⟨ch, hch⟩ := exists_ofCode? hvalid (show 0x800 ≤ _ by omega)
  refine ⟨ch, encode_of_decode? hlength ?_ hch⟩
  simp only [List.mem_cons, List.not_mem_nil, or_false, forall_eq_or_imp, forall_eq, hbtail, hctail,
    and_self]

/-- A sequence of four bytes, if the smallest code point is not too small, and the largest is not
past the last one. -/
theorem exists_encode_four {first second : Nat × Nat} {bytes : List UInt8}
    (h : List.Forall₂ InRange bytes [first, second, (0x80, 0xbf), (0x80, 0xbf)])
    (hfirst : 0xf0 ≤ first.1 ∧ first.2 ≤ 0xf7) (hsecond : 0x80 ≤ second.1 ∧ second.2 ≤ 0xbf)
    (hleast : 0x10000 ≤ ((first.1 - 0xf0) * 64 + (second.1 - 0x80)) * 4096)
    (hmost : ((first.2 - 0xf0) * 64 + (second.2 - 0x80)) * 4096 + 0xfff < 0x110000) :
    ∃ ch, String.utf8EncodeChar ch = bytes := by
  obtain _ | @⟨a, _, _, _, ⟨ha, ha'⟩, _ | @⟨b, _, _, _, ⟨hb, hb'⟩,
    _ | @⟨c, _, _, _, ⟨hc, hc'⟩, _ | @⟨d, _, _, _, ⟨hd, hd'⟩, _ | _⟩⟩⟩⟩ := h
  simp only at hc hc' hd hd'
  have hlength := (lead_of_range a.toNat a.toNat_lt).2.2.2 (by omega) (by omega)
  have hlead := (lead_cases a.toNat a.toNat_lt).2.2 hlength
  rw [UInt8.ofNat_toNat] at hlength hlead
  obtain ⟨hbtail, hbdigit⟩ := digit_of_range (b := b) (by omega) (by omega)
  obtain ⟨hctail, hcdigit⟩ := digit_of_range hc hc'
  obtain ⟨hdtail, hddigit⟩ := digit_of_range hd hd'
  have hvalid : ((((a &&& 0x07).toNat * 64 + (b &&& 0x3f).toNat) * 64 + (c &&& 0x3f).toNat) * 64
      + (d &&& 0x3f).toNat).isValidChar := .inr ⟨by omega, by omega⟩
  obtain ⟨ch, hch⟩ := exists_ofCode? hvalid (show 0x10000 ≤ _ by omega)
  refine ⟨ch, encode_of_decode? hlength ?_ hch⟩
  simp only [List.mem_cons, List.not_mem_nil, or_false, forall_eq_or_imp, forall_eq, hbtail, hctail,
    hdtail, and_self]

/-- Every sequence of the table encodes a character, row by row. -/
theorem exists_encode_of_isSequence {bytes : List UInt8} (h : IsSequence bytes) :
    ∃ ch, String.utf8EncodeChar ch = bytes := by
  obtain ⟨ranges, hranges, hbytes⟩ := h
  simp only [sequenceRanges, List.mem_cons, List.not_mem_nil, or_false] at hranges
  -- One case for each row of the table; its ranges bound the code points.
  rcases hranges with rfl | rfl | rfl | rfl | rfl | rfl | rfl | rfl | rfl
  · exact exists_encode_one hbytes (by decide)
  · exact exists_encode_two hbytes (by decide) (by decide)
  · exact exists_encode_three hbytes (by decide) (by decide) (by decide) (by decide)
  · exact exists_encode_three hbytes (by decide) (by decide) (by decide) (by decide)
  · exact exists_encode_three hbytes (by decide) (by decide) (by decide) (by decide)
  · exact exists_encode_three hbytes (by decide) (by decide) (by decide) (by decide)
  · exact exists_encode_four hbytes (by decide) (by decide) (by decide) (by decide)
  · exact exists_encode_four hbytes (by decide) (by decide) (by decide) (by decide)
  · exact exists_encode_four hbytes (by decide) (by decide) (by decide) (by decide)

/-! ### From characters to bytes -/

theorem inRange_ofNat {n first last : Nat} (hfirst : first ≤ n) (hlast : n ≤ last)
    (hbyte : last < 0x100) : InRange (UInt8.ofNat n) (first, last) := by
  rw [InRange, UInt8.toNat_ofNat', Nat.mod_eq_of_lt (Nat.lt_of_le_of_lt hlast hbyte)]
  exact ⟨hfirst, hlast⟩

theorem inRange_digit (n : Nat) : InRange (UInt8.ofNat (n % 64 + 128)) (0x80, 0xbf) :=
  inRange_ofNat (by omega) (by omega) (by decide)

/-- The encoding in three bytes of a code point that is not a surrogate. -/
theorem isSequence_three (hleast : 0x7ff < v) (hmost : v ≤ 0xffff) (hvalid : v.isValidChar) :
    IsSequence [UInt8.ofNat (v / 4096 % 16 + 224), UInt8.ofNat (v / 64 % 64 + 128),
      UInt8.ofNat (v % 64 + 128)] := by
  -- The first byte tells the row.
  by_cases h1 : v ≤ 0xfff
  · exact ⟨[(0xe0, 0xe0), (0xa0, 0xbf), (0x80, 0xbf)], by decide,
      .cons (inRange_ofNat (by omega) (by omega) (by decide))
        (.cons (inRange_ofNat (by omega) (by omega) (by decide)) (.cons (inRange_digit v) .nil))⟩
  · by_cases h2 : v ≤ 0xcfff
    · exact ⟨[(0xe1, 0xec), (0x80, 0xbf), (0x80, 0xbf)], by decide,
        .cons (inRange_ofNat (by omega) (by omega) (by decide))
          (.cons (inRange_digit _) (.cons (inRange_digit v) .nil))⟩
    · rcases hvalid with h3 | ⟨h3, -⟩
      · exact ⟨[(0xed, 0xed), (0x80, 0x9f), (0x80, 0xbf)], by decide,
          .cons (inRange_ofNat (by omega) (by omega) (by decide))
            (.cons (inRange_ofNat (by omega) (by omega) (by decide))
              (.cons (inRange_digit v) .nil))⟩
      · exact ⟨[(0xee, 0xef), (0x80, 0xbf), (0x80, 0xbf)], by decide,
          .cons (inRange_ofNat (by omega) (by omega) (by decide))
            (.cons (inRange_digit _) (.cons (inRange_digit v) .nil))⟩

/-- The encoding in four bytes of a code point that is not past the last one. -/
theorem isSequence_four (hleast : 0xffff < v) (hmost : v < 0x110000) :
    IsSequence [UInt8.ofNat (v / 262144 % 8 + 240), UInt8.ofNat (v / 4096 % 64 + 128),
      UInt8.ofNat (v / 64 % 64 + 128), UInt8.ofNat (v % 64 + 128)] := by
  by_cases h1 : v ≤ 0x3ffff
  · exact ⟨[(0xf0, 0xf0), (0x90, 0xbf), (0x80, 0xbf), (0x80, 0xbf)], by decide,
      .cons (inRange_ofNat (by omega) (by omega) (by decide))
        (.cons (inRange_ofNat (by omega) (by omega) (by decide))
          (.cons (inRange_digit _) (.cons (inRange_digit v) .nil)))⟩
  · by_cases h2 : v ≤ 0xfffff
    · exact ⟨[(0xf1, 0xf3), (0x80, 0xbf), (0x80, 0xbf), (0x80, 0xbf)], by decide,
        .cons (inRange_ofNat (by omega) (by omega) (by decide))
          (.cons (inRange_digit _) (.cons (inRange_digit _) (.cons (inRange_digit v) .nil)))⟩
    · exact ⟨[(0xf4, 0xf4), (0x80, 0x8f), (0x80, 0xbf), (0x80, 0xbf)], by decide,
        .cons (inRange_ofNat (by omega) (by omega) (by decide))
          (.cons (inRange_ofNat (by omega) (by omega) (by decide))
            (.cons (inRange_digit _) (.cons (inRange_digit v) .nil)))⟩

/-- The encoding of every character is a sequence of the table. -/
theorem isSequence_encode (ch : Char) : IsSequence (String.utf8EncodeChar ch) := by
  have hvalid : ch.val.toNat.isValidChar := ch.valid
  have hmost : ch.val.toNat < 0x110000 := by
    rcases hvalid with h | h
    · omega
    · exact h.2
  rw [String.utf8EncodeChar]
  generalize ch.val.toNat = v at hvalid hmost
  by_cases h1 : v ≤ 0x7f
  · rw [if_pos h1]
    exact ⟨[(0x00, 0x7f)], by decide, .cons (inRange_ofNat (Nat.zero_le v) h1 (by decide)) .nil⟩
  · rw [if_neg h1]
    by_cases h2 : v ≤ 0x7ff
    · rw [if_pos h2]
      exact ⟨[(0xc2, 0xdf), (0x80, 0xbf)], by decide,
        .cons (inRange_ofNat (by omega) (by omega) (by decide)) (.cons (inRange_digit v) .nil)⟩
    · rw [if_neg h2]
      by_cases h3 : v ≤ 0xffff
      · rw [if_pos h3]
        exact isSequence_three (by omega) h3 hvalid
      · rw [if_neg h3]
        exact isSequence_four (by omega) hmost

/-- The sequences of the table are the encodings of the characters. -/
theorem isSequence_iff {bytes : List UInt8} :
    IsSequence bytes ↔ ∃ ch, String.utf8EncodeChar ch = bytes := by
  constructor
  · exact exists_encode_of_isSequence
  · rintro ⟨ch, rfl⟩
    exact isSequence_encode ch

/-- Well-formed bytes are the encodings of the texts. -/
theorem wellFormed_iff {bytes : List UInt8} : WellFormed bytes ↔ ∃ cs, encode cs = bytes := by
  constructor
  · intro h
    induction h with
    | nil => exact ⟨[], rfl⟩
    | append hbytes _ ih =>
      obtain ⟨ch, rfl⟩ := isSequence_iff.mp hbytes
      obtain ⟨cs, rfl⟩ := ih
      exact ⟨ch :: cs, rfl⟩
  · rintro ⟨cs, rfl⟩
    induction cs with
    | nil => exact .nil
    | cons ch cs ih => exact .append (isSequence_encode ch) ih

/-! ### Longest parts -/

/-- Bytes begin with the encoding of one character at most. -/
theorem eq_of_encode_isPrefix {bytes : List UInt8} {ch other : Char}
    (h : String.utf8EncodeChar ch <+: bytes) (h' : String.utf8EncodeChar other <+: bytes) :
    other = ch := by
  obtain ⟨lead, tail, hencode, hlength, -, hdecode⟩ := exists_encode_eq ch
  obtain ⟨lead', tail', hencode', hlength', -, hdecode'⟩ := exists_encode_eq other
  obtain ⟨more, rfl⟩ := h
  obtain ⟨more', heq⟩ := h'
  rw [hencode, hencode', List.cons_append, List.cons_append, List.cons.injEq] at heq
  obtain ⟨rfl, htails⟩ := heq
  -- The first byte announces how many follow, so that these are the same as well.
  have hsame : tail'.length = tail.length := by omega
  obtain ⟨rfl, -⟩ := List.append_inj htails hsame
  rw [hdecode, Option.some.injEq] at hdecode'
  exact hdecode'.symm

namespace LongestWellFormed

/-- Where no character begins, nothing is well formed. -/
theorem nil {bytes : List UInt8} (h : ∀ ch, ¬String.utf8EncodeChar ch <+: bytes) :
    LongestWellFormed [] bytes where
  wellFormed := .nil
  isPrefix := List.nil_prefix
  longest other hother hprefix := by
    obtain ⟨_ | ⟨ch, cs⟩, rfl⟩ := wellFormed_iff.mp hother
    · exact List.nil_prefix
    · exact absurd ((List.prefix_append _ _).trans hprefix) (h ch)

/-- A character before the longest well-formed part makes that part longer. -/
theorem cons {whole bytes : List UInt8} (h : LongestWellFormed whole bytes) (ch : Char) :
    LongestWellFormed (String.utf8EncodeChar ch ++ whole) (String.utf8EncodeChar ch ++ bytes) where
  wellFormed := .append (isSequence_encode ch) h.wellFormed
  isPrefix := (List.prefix_append_right_inj _).mpr h.isPrefix
  longest other hother hprefix := by
    obtain ⟨_ | ⟨first, cs⟩, rfl⟩ := wellFormed_iff.mp hother
    · exact List.nil_prefix
    · -- What is well-formed begins with the same character, and goes on within the rest.
      obtain rfl : first = ch :=
        eq_of_encode_isPrefix (List.prefix_append _ bytes) ((List.prefix_append _ _).trans hprefix)
      have hrest : encode cs <+: bytes := (List.prefix_append_right_inj _).mp hprefix
      exact (List.prefix_append_right_inj _).mpr
        (h.longest _ (wellFormed_iff.mpr ⟨cs, rfl⟩) hrest)

end LongestWellFormed

end Utf8

end ParseTrail.Text
