import ParseTrail.Text.Utf8

/-!
# Decoding what was encoded

The encoding of a character is a first byte that announces its length and bytes that continue it,
and decoding it gives the character back. Nothing else decodes to the character.

- `exists_encode_eq`: the encoding of a character in the form in which it is read;
- `encode_of_decode?`: what decodes to a character is its encoding.
-/

namespace ParseTrail.Text.Utf8

/-! ### Bytes -/

/-- A lead byte below 0x80 is a sequence by itself. -/
theorem lead_one : ∀ x < 0x80, sequenceLength (UInt8.ofNat x) = 1 ∧ UInt8.ofNat x < 0x80 ∧
    (UInt8.ofNat x).toNat = x := by
  decide +kernel

/-- One from 0xc0 on leads a sequence of two, and carries five bits. -/
theorem lead_two : ∀ x < 0x20, sequenceLength (UInt8.ofNat (x + 0xc0)) = 2 ∧
    (UInt8.ofNat (x + 0xc0) &&& 0x1f).toNat = x := by
  decide +kernel

/-- One from 0xe0 on leads a sequence of three, and carries four bits. -/
theorem lead_three : ∀ x < 0x10, sequenceLength (UInt8.ofNat (x + 0xe0)) = 3 ∧
    (UInt8.ofNat (x + 0xe0) &&& 0x0f).toNat = x := by
  decide +kernel

/-- One from 0xf0 on leads a sequence of four, and carries three bits. -/
theorem lead_four : ∀ x < 0x08, sequenceLength (UInt8.ofNat (x + 0xf0)) = 4 ∧
    (UInt8.ofNat (x + 0xf0) &&& 0x07).toNat = x := by
  decide +kernel

/-- A continuation carries six bits. -/
theorem continuation : ∀ x < 0x40, isContinuation (UInt8.ofNat (x + 0x80)) = true ∧
    (UInt8.ofNat (x + 0x80) &&& 0x3f).toNat = x := by
  decide +kernel

/-- A first byte by the length that it announces. -/
theorem lead_cases : ∀ n < 0x100, (sequenceLength (UInt8.ofNat n) = 2 →
      0xc0 + (UInt8.ofNat n &&& 0x1f).toNat = n ∧ (UInt8.ofNat n &&& 0x1f).toNat < 0x20) ∧
    (sequenceLength (UInt8.ofNat n) = 3 →
      0xe0 + (UInt8.ofNat n &&& 0x0f).toNat = n ∧ (UInt8.ofNat n &&& 0x0f).toNat < 0x10) ∧
    (sequenceLength (UInt8.ofNat n) = 4 →
      0xf0 + (UInt8.ofNat n &&& 0x07).toNat = n ∧ (UInt8.ofNat n &&& 0x07).toNat < 0x08) := by
  decide +kernel

/-- What is taken for a continuation is one. -/
theorem continuation_cases : ∀ n < 0x100, isContinuation (UInt8.ofNat n) = true →
    0x80 + (UInt8.ofNat n &&& 0x3f).toNat = n ∧ (UInt8.ofNat n &&& 0x3f).toNat < 0x40 := by
  decide +kernel

/-- No sequence begins with a byte that continues one. -/
theorem stray_cases : ∀ n < 0x100, isContinuation (UInt8.ofNat n) = true →
    sequenceLength (UInt8.ofNat n) = 1 ∧ decode? [UInt8.ofNat n] = none := by
  decide +kernel

/-- A continuation without a lead is malformed by itself. -/
theorem stray {byte : UInt8} (h : isContinuation byte = true) :
    sequenceLength byte = 1 ∧ decode? [byte] = none := by
  have hcases := stray_cases byte.toNat byte.toNat_lt
  rw [UInt8.ofNat_toNat] at hcases
  exact hcases h

/-- A byte that continues a sequence, from its six digits. -/
theorem eq_of_isContinuation {byte : UInt8} (h : isContinuation byte = true) :
    ∃ x < 0x40, (byte &&& 0x3f).toNat = x ∧ byte = UInt8.ofNat (x + 0x80) := by
  have hcases := continuation_cases byte.toNat byte.toNat_lt
  rw [UInt8.ofNat_toNat] at hcases
  obtain ⟨hbyte, hlt⟩ := hcases h
  refine ⟨_, hlt, rfl, ?_⟩
  rw [Nat.add_comm, hbyte, UInt8.ofNat_toNat]

/-! ### Characters -/

/-- The code point of a character gives the character back, if it is not too small for the length
of the sequence. -/
theorem ofCode?_toNat {c : Char} {least : Nat} (h : least ≤ c.val.toNat) :
    ofCode? least c.val.toNat = some c := by
  have hvalid : c.val.toNat.isValidChar := c.valid
  rw [ofCode?, dif_pos hvalid, if_pos h]
  rfl

/-- The encoding of a character: a first byte that announces the others, bytes that continue it,
and the character when decoded. -/
theorem exists_encode_eq (c : Char) :
    ∃ lead tail, String.utf8EncodeChar c = lead :: tail ∧ sequenceLength lead = tail.length + 1 ∧
      (∀ byte ∈ tail, isContinuation byte = true) ∧ decode? (lead :: tail) = some c := by
  have hmax : c.val.toNat < 0x110000 := by
    rcases c.valid with h | h
    · exact Nat.lt_trans h (by decide)
    · exact h.2
  generalize hv : c.val.toNat = v at hmax
  have hcode (least : Nat) (h : least ≤ v) : ofCode? least v = some c := by
    rw [← hv] at h ⊢
    exact ofCode?_toNat h
  have hnone : ∀ byte ∈ ([] : List UInt8), isContinuation byte = true := fun _ h => nomatch h
  have hlow := continuation (v % 0x40) (Nat.mod_lt _ (by decide))
  have hmid := continuation (v / 0x40 % 0x40) (Nat.mod_lt _ (by decide))
  have hhigh := continuation (v / 0x1000 % 0x40) (Nat.mod_lt _ (by decide))
  rw [String.utf8EncodeChar]
  simp only [hv]
  -- One case for each length of the sequence; the digits of `v` to base 64 add up again.
  by_cases h1 : v ≤ 0x7f
  · obtain ⟨hlength, hlt, htoNat⟩ := lead_one v (by omega)
    refine ⟨_, _, if_pos h1, hlength, hnone, ?_⟩
    rw [decode?, if_pos hlt, htoNat]
    exact hcode 0 (Nat.zero_le _)
  · rw [if_neg h1]
    by_cases h2 : v ≤ 0x7ff
    · obtain ⟨hlength, hlead⟩ := lead_two (v / 0x40 % 0x20) (Nat.mod_lt _ (by decide))
      refine ⟨_, _, if_pos h2, hlength, List.forall_mem_cons.mpr ⟨hlow.1, hnone⟩, ?_⟩
      rw [decode?, hlead, hlow.2, show v / 0x40 % 0x20 * 64 + v % 0x40 = v by omega]
      exact hcode 0x80 (by omega)
    · rw [if_neg h2]
      by_cases h3 : v ≤ 0xffff
      · obtain ⟨hlength, hlead⟩ := lead_three (v / 0x1000 % 0x10) (Nat.mod_lt _ (by decide))
        refine ⟨_, _, if_pos h3, hlength, ?_, ?_⟩
        · exact List.forall_mem_cons.mpr ⟨hmid.1, List.forall_mem_cons.mpr ⟨hlow.1, hnone⟩⟩
        · rw [decode?, hlead, hmid.2, hlow.2,
            show (v / 0x1000 % 0x10 * 64 + v / 0x40 % 0x40) * 64 + v % 0x40 = v by omega]
          exact hcode 0x800 (by omega)
      · obtain ⟨hlength, hlead⟩ := lead_four (v / 0x40000 % 0x08) (Nat.mod_lt _ (by decide))
        refine ⟨_, _, if_neg h3, hlength, ?_, ?_⟩
        · exact List.forall_mem_cons.mpr ⟨hhigh.1, List.forall_mem_cons.mpr
            ⟨hmid.1, List.forall_mem_cons.mpr ⟨hlow.1, hnone⟩⟩⟩
        · rw [decode?, hlead, hhigh.2, hmid.2, hlow.2,
            show ((v / 0x40000 % 0x08 * 64 + v / 0x1000 % 0x40) * 64 + v / 0x40 % 0x40) * 64
              + v % 0x40 = v by omega]
          exact hcode 0x10000 (by omega)

/-- A code point gives a character that has it, if it is large enough. -/
theorem of_ofCode?_eq_some {c : Char} {least v : Nat} (h : ofCode? least v = some c) :
    c.val.toNat = v ∧ least ≤ v := by
  rw [ofCode?] at h
  by_cases hvalid : v.isValidChar
  · rw [dif_pos hvalid] at h
    by_cases hleast : least ≤ v
    · rw [if_pos hleast] at h
      cases h
      exact ⟨rfl, hleast⟩
    · rw [if_neg hleast] at h
      cases h
  · rw [dif_neg hvalid] at h
    cases h

/-- What decodes to a character is its encoding, if it is as long as its first byte announces. -/
theorem encode_of_decode? {c : Char} {lead : UInt8} {tail : List UInt8}
    (hlength : sequenceLength lead = tail.length + 1)
    (htail : ∀ byte ∈ tail, isContinuation byte = true) (h : decode? (lead :: tail) = some c) :
    String.utf8EncodeChar c = lead :: tail := by
  have hlead := lead_cases lead.toNat lead.toNat_lt
  rw [UInt8.ofNat_toNat] at hlead
  rw [String.utf8EncodeChar]
  -- One case for each length of the sequence, which `decode?` bounds. The digits of the code point
  -- to base 64 are those of the bytes.
  rcases tail with _ | ⟨b₁, _ | ⟨b₂, _ | ⟨b₃, _ | _⟩⟩⟩
  · rw [decode?] at h
    split at h
    · next hlt =>
      obtain ⟨hcode, -⟩ := of_ofCode?_eq_some h
      have hsmall : c.val.toNat ≤ 0x7f := by
        rw [hcode]
        exact Nat.le_of_lt_succ (UInt8.lt_iff_toNat_lt.mp hlt)
      rw [if_pos hsmall, hcode, UInt8.ofNat_toNat]
    · cases h
  · obtain ⟨hfirst, hx⟩ := hlead.1 hlength
    obtain ⟨y, hy, hdigit, rfl⟩ := eq_of_isContinuation (htail b₁ (by simp))
    rw [decode?, hdigit] at h
    obtain ⟨hcode, hleast⟩ := of_ofCode?_eq_some h
    generalize (lead &&& 0x1f).toNat = x at hfirst hx hcode hleast
    simp only [hcode]
    rw [if_neg (by omega), if_pos (by omega), show (x * 64 + y) / 0x40 % 0x20 + 0xc0 = lead.toNat by
      omega, show (x * 64 + y) % 0x40 + 0x80 = y + 0x80 by omega, UInt8.ofNat_toNat]
  · obtain ⟨hfirst, hx⟩ := hlead.2.1 hlength
    obtain ⟨y, hy, hdigit, rfl⟩ := eq_of_isContinuation (htail b₁ (by simp))
    obtain ⟨z, hz, hdigit', rfl⟩ := eq_of_isContinuation (htail b₂ (by simp))
    rw [decode?, hdigit, hdigit'] at h
    obtain ⟨hcode, hleast⟩ := of_ofCode?_eq_some h
    generalize (lead &&& 0x0f).toNat = x at hfirst hx hcode hleast
    simp only [hcode]
    rw [if_neg (by omega), if_neg (by omega), if_pos (by omega),
      show ((x * 64 + y) * 64 + z) / 0x1000 % 0x10 + 0xe0 = lead.toNat by omega,
      show ((x * 64 + y) * 64 + z) / 0x40 % 0x40 + 0x80 = y + 0x80 by omega,
      show ((x * 64 + y) * 64 + z) % 0x40 + 0x80 = z + 0x80 by omega, UInt8.ofNat_toNat]
  · obtain ⟨hfirst, hx⟩ := hlead.2.2 hlength
    obtain ⟨y, hy, hdigit, rfl⟩ := eq_of_isContinuation (htail b₁ (by simp))
    obtain ⟨z, hz, hdigit', rfl⟩ := eq_of_isContinuation (htail b₂ (by simp))
    obtain ⟨w, hw, hdigit'', rfl⟩ := eq_of_isContinuation (htail b₃ (by simp))
    rw [decode?, hdigit, hdigit', hdigit''] at h
    obtain ⟨hcode, hleast⟩ := of_ofCode?_eq_some h
    generalize (lead &&& 0x07).toNat = x at hfirst hx hcode hleast
    simp only [hcode]
    rw [if_neg (by omega), if_neg (by omega), if_neg (by omega),
      show (((x * 64 + y) * 64 + z) * 64 + w) / 0x40000 % 0x08 + 0xf0 = lead.toNat by omega,
      show (((x * 64 + y) * 64 + z) * 64 + w) / 0x1000 % 0x40 + 0x80 = y + 0x80 by omega,
      show (((x * 64 + y) * 64 + z) * 64 + w) / 0x40 % 0x40 + 0x80 = z + 0x80 by omega,
      show (((x * 64 + y) * 64 + z) * 64 + w) % 0x40 + 0x80 = w + 0x80 by omega, UInt8.ofNat_toNat]
  · cases h

end ParseTrail.Text.Utf8
