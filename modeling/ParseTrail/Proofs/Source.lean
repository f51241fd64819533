import ParseTrail.Proofs.Text.Utf8
import ParseTrail.Source

/-!
# Sources and the bytes they hand out

A source delivers a text if all it does is to hand out the encoding of the text, in pieces of any
size, and perhaps to be interrupted in between. Taken one at a time, the characters come out just as
they went in. For this it is enough to know what a source hands out first, whatever it does later:

- `nextCharacter_of_handsOut`: a character is taken if its encoding is handed out next;
- `nextCharacter_of_delivers_cons`, `nextCharacter_of_delivers_nil`: what is taken next of a text;
- `nextCharacter_of_ahead`: what is taken next of the bytes that lie ahead.
-/

namespace ParseTrail

/-- The encoding of a text. -/
def Text.encode (cs : List Char) : List UInt8 :=
  cs.flatMap String.utf8EncodeChar

namespace Source

/-- All bytes that a source hands out. -/
def bytes : Source → List UInt8
  | [] => []
  | .data piece :: rest => piece ++ bytes rest
  | _ :: rest => bytes rest

/-- The bytes that a source hands out before anything else happens, apart from interruptions. -/
def ahead : Source → List UInt8
  | .data piece :: rest => piece ++ ahead rest
  | .error e :: rest => if e.kind = .interrupted then ahead rest else []
  | _ => []

/-- The event hands out bytes or is an interruption. -/
def Harmless : SourceEvent → Prop
  | .data _ => True
  | .error e => e.kind = .interrupted
  | .pause => False

/-- The source hands out the encoding of a text, and nothing else happens but interruptions. -/
structure Delivers (src : Source) (cs : List Char) : Prop where
  harmless : ∀ event ∈ src, Harmless event
  bytes : src.bytes = Text.encode cs

variable {src rest : Source} {c : Char} {cs : List Char}

/-! ### Bytes -/

theorem nextByte_of_bytes_nil (hsrc : ∀ event ∈ src, Harmless event) (h : src.bytes = []) :
    src.nextByte = (.ok none, []) := by
  -- Only empty pieces and interruptions are left, and they are passed over.
  induction src with
  | nil => rfl
  | cons event rest ih =>
    have hrest : ∀ event ∈ rest, Harmless event :=
      fun e he => hsrc e (List.mem_cons_of_mem _ he)
    cases event with
    | data piece =>
      rw [bytes, List.append_eq_nil_iff] at h
      rw [h.1, nextByte, ih hrest h.2]
    | error e =>
      have hkind : e.kind = .interrupted := hsrc (.error e) List.mem_cons_self
      have hbytes : bytes rest = [] := h
      rw [nextByte, if_pos hkind, ih hrest hbytes]
    | pause => exact absurd (hsrc .pause List.mem_cons_self) id

theorem nextByte_of_bytes_cons {byte : UInt8} {more : List UInt8}
    (hsrc : ∀ event ∈ src, Harmless event) (h : src.bytes = byte :: more) :
    ∃ rest, src.nextByte = (.ok (some byte), rest) ∧ (∀ event ∈ rest, Harmless event) ∧
      rest.bytes = more ∧ rest.size < src.size := by
  induction src with
  | nil => cases h
  | cons event rest ih =>
    have hrest : ∀ event ∈ rest, Harmless event :=
      fun e he => hsrc e (List.mem_cons_of_mem _ he)
    cases event with
    | data piece =>
      rcases piece with _ | ⟨first, others⟩
      · -- An empty piece counts for the size, though it hands out nothing.
        obtain ⟨after, hnext, hafter, hbytes, hsize⟩ := ih hrest h
        refine ⟨after, by rw [nextByte, hnext], hafter, hbytes, ?_⟩
        rw [size]
        omega
      · rw [bytes, List.cons_append, List.cons.injEq] at h
        refine ⟨.data others :: rest, by rw [nextByte, h.1], ?_, ?_, ?_⟩
        · exact List.forall_mem_cons.mpr ⟨trivial, hrest⟩
        · rw [bytes, h.2]
        · rw [size, size, List.length_cons]
          omega
    | error e =>
      have hkind : e.kind = .interrupted := hsrc (.error e) List.mem_cons_self
      obtain ⟨after, hnext, hafter, hbytes, hsize⟩ := ih hrest h
      refine ⟨after, by rw [nextByte, if_pos hkind, hnext], hafter, hbytes, ?_⟩
      simp only [size]
      omega
    | pause => exact absurd (hsrc .pause List.mem_cons_self) id

/-! ### Characters -/

/-- What is known of a source and of the bytes it hands out next goes on when one is taken. -/
def HandsOut (P : Source → List UInt8 → Prop) : Prop :=
  ∀ src byte more, P src (byte :: more) →
    ∃ rest, src.nextByte = (.ok (some byte), rest) ∧ P rest more

variable {P : Source → List UInt8 → Prop}

theorem finishCharacter_of_handsOut (hP : HandsOut P) {taken tail more : List UInt8}
    (h : P src (tail ++ more)) (htail : ∀ byte ∈ tail, Text.Utf8.isContinuation byte = true)
    (hc : Text.Utf8.decode? (taken ++ tail) = some c) :
    ∃ rest, finishCharacter tail.length taken src = (.character c, rest) ∧ P rest more := by
  -- The bytes read move over from `tail` to `taken`, which together encode the character.
  induction tail generalizing taken src with
  | nil =>
    rw [List.append_nil] at hc
    exact ⟨src, by rw [List.length_nil, finishCharacter, hc], h⟩
  | cons byte tail ih =>
    obtain ⟨hbyte, htail'⟩ := List.forall_mem_cons.mp htail
    obtain ⟨next, hnext, hmore⟩ := hP src byte (tail ++ more) h
    have hc' : Text.Utf8.decode? ((taken ++ [byte]) ++ tail) = some c := by
      rw [List.append_assoc, List.singleton_append, hc]
    obtain ⟨rest, hfinish, hrest⟩ := ih hmore htail' hc'
    refine ⟨rest, ?_, hrest⟩
    rw [List.length_cons, finishCharacter, hnext]
    simp only
    rw [if_pos hbyte, hfinish]

/-- A source that hands out the encoding of a character gives it. -/
theorem nextCharacter_of_handsOut (hP : HandsOut P) {more : List UInt8}
    (h : P src (String.utf8EncodeChar c ++ more)) :
    ∃ rest, src.nextCharacter = (.character c, rest) ∧ P rest more := by
  obtain ⟨lead, tail, hencode, hlength, htail, hdecode⟩ := Text.Utf8.exists_encode_eq c
  -- The first byte says how many continue it, and they all come before the next character.
  rw [hencode, List.cons_append] at h
  obtain ⟨next, hnext, hmore⟩ := hP src lead (tail ++ more) h
  have hdecode' : Text.Utf8.decode? ([lead] ++ tail) = some c := hdecode
  obtain ⟨rest, hfinish, hrest⟩ := finishCharacter_of_handsOut hP hmore htail hdecode'
  refine ⟨rest, ?_, hrest⟩
  rw [nextCharacter, hnext]
  simp only
  rw [hlength, Nat.add_sub_cancel, hfinish]

/-! ### Texts -/

/-- A source that delivers nothing has ended. -/
theorem nextCharacter_of_delivers_nil (h : src.Delivers []) : src.nextCharacter = (.ended, []) := by
  rw [nextCharacter, nextByte_of_bytes_nil h.harmless h.bytes]

/-- A source that delivers a character gives it, and then delivers the rest. -/
theorem nextCharacter_of_delivers_cons (h : src.Delivers (c :: cs)) :
    ∃ rest, src.nextCharacter = (.character c, rest) ∧ rest.Delivers cs ∧ rest.size < src.size := by
  -- With each byte that is taken the source gets smaller, by one or more.
  have hP : HandsOut fun rest more => (∀ event ∈ rest, Harmless event) ∧ rest.bytes = more ∧
      rest.size + src.bytes.length ≤ src.size + more.length := by
    rintro src' byte more ⟨hharmless, hbytes, hsize⟩
    obtain ⟨rest, hnext, hrest, hmore, hless⟩ := nextByte_of_bytes_cons hharmless hbytes
    refine ⟨rest, hnext, hrest, hmore, ?_⟩
    rw [List.length_cons] at hsize
    omega
  have hbytes : src.bytes = String.utf8EncodeChar c ++ Text.encode cs := h.bytes
  have hsrc : (∀ event ∈ src, Harmless event) ∧
      src.bytes = String.utf8EncodeChar c ++ Text.encode cs ∧
      src.size + src.bytes.length ≤
        src.size + (String.utf8EncodeChar c ++ Text.encode cs).length :=
    ⟨h.harmless, hbytes, Nat.le_of_eq (by rw [hbytes])⟩
  obtain ⟨rest, hnext, hrest, hmore, hsize⟩ := nextCharacter_of_handsOut hP hsrc
  refine ⟨rest, hnext, ⟨hrest, hmore⟩, ?_⟩
  obtain ⟨lead, tail, hencode, -⟩ := Text.Utf8.exists_encode_eq c
  rw [hbytes, hencode, List.length_append, List.length_cons] at hsize
  omega

/-- A source is at least as large as the text it delivers is long. -/
theorem length_le_size (h : src.Delivers cs) : cs.length ≤ src.size := by
  induction cs generalizing src with
  | nil => exact Nat.zero_le _
  | cons c cs ih =>
    obtain ⟨rest, -, hrest, hsize⟩ := nextCharacter_of_delivers_cons h
    have hlength := ih hrest
    rw [List.length_cons]
    omega

/-! ### Bytes ahead -/

theorem nextByte_of_ahead_cons {byte : UInt8} {more : List UInt8} (h : src.ahead = byte :: more) :
    ∃ rest, src.nextByte = (.ok (some byte), rest) ∧ rest.ahead = more := by
  induction src with
  | nil => cases h
  | cons event rest ih =>
    cases event with
    | data piece =>
      rcases piece with _ | ⟨first, others⟩
      · exact ih h
      · rw [ahead, List.cons_append, List.cons.injEq] at h
        exact ⟨.data others :: rest, by rw [nextByte, h.1], h.2⟩
    | error e =>
      rw [ahead] at h
      split at h
      · next hkind =>
        obtain ⟨after, hnext, hmore⟩ := ih h
        exact ⟨after, by rw [nextByte, if_pos hkind, hnext], hmore⟩
      · cases h
    | pause => cases h

/-- A source gives the character whose encoding lies ahead. -/
theorem nextCharacter_of_ahead {more : List UInt8}
    (h : src.ahead = String.utf8EncodeChar c ++ more) :
    ∃ rest, src.nextCharacter = (.character c, rest) ∧ rest.ahead = more :=
  nextCharacter_of_handsOut (P := fun src bytes => src.ahead = bytes)
    (fun _ _ _ => nextByte_of_ahead_cons) h

end Source

end ParseTrail
