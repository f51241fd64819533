import Mathlib.Data.List.Basic
import ParseTrail.Proofs.Meaning

/-!
# The meaning of runs of characters

A parser of one character that is taken as often as it goes means the longest run of characters that
it takes, joined into one text. Digits are such a run, and what number they denote decides whether
they are one that can be held:

- `Means.joined_many_run`: the longest run of characters that a parser takes, as one text;
- `Numeral.read_eq`: a run of digits read in base ten, up to the largest number;
- `Means.decimal_matched`, `Means.decimal_refused`: what a decimal number means.
-/

namespace ParseTrail

variable {κ α : Type} {rules : Nat → Rule κ α} {p : Parser κ α} {run rest cs : List Char} {n : Nat}

/-! ### Runs of characters -/

/-- Repeating the parser ends in front of the input: nothing remains, or the parser is refused. -/
def StopsAt (rules : Nat → Rule κ α) (p : Parser κ α) (input : List Char) : Prop :=
  input = [] ∨ ∃ place, Means rules p.matcher input (.refused false place)

/-- The parser takes each of the characters, whatever comes after it. -/
def TakesEach (rules : Nat → Rule κ α) (p : Parser κ α) (run : List Char) : Prop :=
  ∀ c ∈ run, ∀ rest, Means rules p.matcher (c :: rest) (.matched (.char c) rest)

theorem Means.many_run (htakes : TakesEach rules p run) (hstop : StopsAt rules p rest) :
    Means rules (.many p) (run ++ rest) (.matched (.list (run.map .char)) rest) := by
  induction run with
  | nil =>
    rcases hstop with rfl | ⟨place, hrefused⟩
    · exact .many_end
    · by_cases hrest : rest = []
      · rw [hrest]
        exact .many_end
      · exact .many_stop hrest hrefused
  | cons c run ih =>
    have hone := htakes c List.mem_cons_self (run ++ rest)
    have hmore := ih fun d hd => htakes d (List.mem_cons_of_mem c hd)
    exact .many_next (List.cons_ne_nil c _) hone hmore

theorem joined_chars (run : List Char) :
    (Value.list (run.map .char) : Value α).joined = .text (String.ofList run) := by
  rw [Value.joined, List.map_map]
  congr 1
  induction run with
  | nil => rfl
  | cons c run ih =>
    rw [List.map_cons, String.join_cons, ih, ← List.singleton_append, String.ofList_append]
    rfl

/-- The longest run of characters that a parser takes, as one text. -/
theorem Means.joined_many_run (htakes : TakesEach rules p run) (hstop : StopsAt rules p rest) :
    Means rules p.many.join.matcher (run ++ rest) (.matched (.text (String.ofList run)) rest) := by
  rw [← joined_chars run]
  exact .map (p := p.many) (Means.many_run htakes hstop)

/-- The same, if there must be one. -/
theorem Means.joined_many1_run (htakes : TakesEach rules p run) (hrun : run ≠ [])
    (hstop : StopsAt rules p rest) :
    Means rules p.many1.join.matcher (run ++ rest) (.matched (.text (String.ofList run)) rest) := by
  obtain ⟨c, run, rfl⟩ := List.exists_cons_of_ne_nil hrun
  have hmore := Means.many_run (fun d hd => htakes d (List.mem_cons_of_mem c hd)) hstop
  rw [← joined_chars (c :: run)]
  exact .map (p := p.many1) (.many1 (htakes c List.mem_cons_self (run ++ rest)) hmore)

/-! ### Numerals -/

namespace Numeral

theorem le_ofDigitChars (cs : List Char) (n : Nat) : n ≤ Nat.ofDigitChars 10 cs n := by
  induction cs generalizing n with
  | nil => exact Nat.le_refl n
  | cons c cs ih =>
    rw [Nat.ofDigitChars_cons]
    exact Nat.le_trans (by omega) (ih _)

theorem readAfter_eq (hdigits : ∀ c ∈ cs, c.isDigit) (hn : n < numberLimit) :
    readAfter n cs =
      if Nat.ofDigitChars 10 cs n < numberLimit then .ok (Nat.ofDigitChars 10 cs n)
      else .error .tooLarge := by
  induction cs generalizing n with
  | nil => exact (if_pos hn).symm
  | cons c cs ih =>
    obtain ⟨hc, hcs⟩ := List.forall_mem_cons.mp hdigits
    have hcons : Nat.ofDigitChars 10 (c :: cs) n = Nat.ofDigitChars 10 cs (append n c) := by
      rw [Nat.ofDigitChars_cons, append, Nat.mul_comm]
    rw [readAfter, if_pos hc, hcons]
    by_cases happend : append n c < numberLimit
    · rw [if_pos happend, ih hcs happend]
    · -- Further digits make no number smaller.
      have hlarge := Nat.le_trans (Nat.le_of_not_lt happend) (le_ofDigitChars cs (append n c))
      rw [if_neg happend, if_neg (Nat.not_lt.mpr hlarge)]

/-- A run of digits is read in base ten, if the number is not too large. -/
theorem read_eq (hdigits : ∀ c ∈ cs, c.isDigit) (hcs : cs ≠ []) :
    read cs =
      if Nat.ofDigitChars 10 cs 0 < numberLimit then .ok (Nat.ofDigitChars 10 cs 0)
      else .error .tooLarge := by
  have hzero : 0 < numberLimit := by decide
  rw [← readAfter_eq hdigits hzero]
  obtain ⟨c, cs, rfl⟩ := List.exists_cons_of_ne_nil hcs
  have hc : c ≠ '+' := by
    rintro rfl
    exact absurd (hdigits '+' List.mem_cons_self) (by decide)
  unfold read
  split
  · next h => cases h
  · next h => exact absurd (List.cons.inj h).1 hc
  · next h => exact absurd (List.cons.inj h).1 hc
  · rfl

end Numeral

/-! ### Decimal numbers -/

theorem takesEach_digits (hdigits : ∀ c ∈ run, c.isDigit) :
    TakesEach rules (.charOf .digit) run :=
  fun c hc _ => .satisfy (hdigits c hc)

theorem refused_digit (h : ∀ c ∈ rest.head?, ¬c.isDigit) :
    Means rules (Parser.charOf .digit).matcher rest (.refused false rest) := by
  cases rest with
  | nil => exact .satisfy_end
  | cons c rest => exact .satisfy_refused (h c rfl)

theorem Means.digits_run (hdigits : ∀ c ∈ run, c.isDigit) (hrun : run ≠ [])
    (hrest : ∀ c ∈ rest.head?, ¬c.isDigit) :
    Means rules Parser.digits.matcher (run ++ rest) (.matched (.text (String.ofList run)) rest) :=
  .joined_many1_run (takesEach_digits hdigits) hrun (.inr ⟨rest, refused_digit hrest⟩)

/-- The longest run of digits is a number, if it is one that can be held. -/
theorem Means.decimal_matched (hdigits : ∀ c ∈ run, c.isDigit) (hrun : run ≠ [])
    (hrest : ∀ c ∈ rest.head?, ¬c.isDigit) (hlimit : Nat.ofDigitChars 10 run 0 < numberLimit) :
    Means rules Parser.decimal.matcher (run ++ rest)
      (.matched (.number (Nat.ofDigitChars 10 run 0)) rest) := by
  refine .tryMap (p := Parser.digits) (.digits_run hdigits hrun hrest) ?_
  rw [Parser.readNumber, String.toList_ofList, Numeral.read_eq hdigits hrun, if_pos hlimit]

/-- Without a digit there is no number, and a number that is too large is refused. -/
theorem Means.decimal_refused (hdigits : ∀ c ∈ run, c.isDigit)
    (hrest : ∀ c ∈ rest.head?, ¬c.isDigit)
    (hlimit : run ≠ [] → ¬Nat.ofDigitChars 10 run 0 < numberLimit) :
    Means rules Parser.decimal.matcher (run ++ rest) (.refused false (run ++ rest)) := by
  by_cases hrun : run = []
  · rw [hrun]
    exact .tryMap_refused (p := Parser.digits) (.map (p := (Parser.charOf .digit).many1)
      (o := .refused false rest) (.many1_refused (refused_digit hrest)))
  · have hrejected : Parser.readNumber (.text (String.ofList run) : Value α) =
        .error NumeralError.tooLarge.message := by
      rw [Parser.readNumber, String.toList_ofList, Numeral.read_eq hdigits hrun,
        if_neg (hlimit hrun)]
    exact .tryMap_rejected (p := Parser.digits) (.digits_run hdigits hrun hrest) hrejected

end ParseTrail
