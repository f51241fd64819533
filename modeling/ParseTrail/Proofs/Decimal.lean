import ParseTrail.Proofs.Blame
import ParseTrail.Proofs.Meaning.Characters
import ParseTrail.Proofs.Meaning.Landing
import ParseTrail.Proofs.Session.Keys
import ParseTrail.Proofs.Session.Leaf

/-!
# Decimal numbers

A decimal number is the longest run of digits, if it denotes a number below 2^64. Otherwise there is
none, and whatever was tried for it, the trail shows one failed attempt:

- `gainsLeaf_of_run_decimal`: what a failed attempt to read one leaves on the trail;
- `decimal_reads_numerals`: what is read in front of any input.
-/

namespace ParseTrail

open Nat (ofDigitChars)

variable {κ α : Type} {s t : Session} {base : Nat} {before input rest : List Char}

/-- The digits denote a number in base ten that 64 bits can hold. -/
def IsNumeral (digits : List Char) : Prop :=
  digits ≠ [] ∧ ofDigitChars 10 digits 0 < UInt64.size

instance (digits : List Char) : Decidable (IsNumeral digits) :=
  inferInstanceAs (Decidable (_ ∧ _))

/-! ### The parser of decimal numbers -/

/-- Decimal numbers come to no rule and to no procedure. -/
theorem nests_decimal : (Parser.decimal : Parser κ α).Nests 4 :=
  .of_one id rfl (.of_one id rfl (.of_one id rfl (.of_none id rfl)))

theorem fromCatalog_digits : (Parser.digits : Parser κ α).FromCatalog :=
  .leaf _ (.matcher (List.forall_mem_singleton.mpr
    (.matcher (List.forall_mem_singleton.mpr (.matcher fun _ hq => nomatch hq)))))

/-- A failed attempt to read a decimal number is one leaf on the trail. -/
theorem gainsLeaf_of_run_decimal {fuel : Nat} {e : Expectation} (hs : s.Ready)
    (hrun : outcome ((Parser.decimal : Parser Empty α).run catalogAlone fuel) s =
      .ok (.error (.expected e), t)) :
    s.trail.GainsLeaf t.trail s.current s.cursor.position "number" ∧ t.current = s.current := by
  cases fuel with
  | zero => cases hrun
  | succ fuel =>
    have hrules (key : Nat) (r : Parser Empty α) (hr : catalogAlone.rules key = .defined r) :
        r.FromCatalog := by
      rw [catalogAlone] at hr
      cases hr
    have hplain (q : Parser Empty α) (hq : catalogAlone.Runs .digits q) : q.Plain :=
      (fromCatalog_digits.of_runs hrules hq).plain
    have hdigits : Action.Accounts False True (Parser.run catalogAlone fuel .digits) :=
      accounts_run hplain False.elim fuel .self
    refine gainsLeaf_of_outcome hs ((accounts_tryMap Parser.readNumber hdigits).mono False.elim)
      (fun b => ?_) hrun
    exact kept_remembering.perform catalogAlone (.tryMap Parser.readNumber .digits)
      (fun q _ => remembers_run catalogAlone fuel q) (fun _ _ hkey _ => nomatch hkey) fuel b

/-! ### What is read -/

theorem forall_mem_takeWhile_isDigit (input : List Char) :
    ∀ c ∈ input.takeWhile Char.isDigit, c.isDigit :=
  List.all_eq_true.mp List.all_takeWhile

theorem forall_head_dropWhile_isDigit (input : List Char) :
    ∀ c ∈ (input.dropWhile Char.isDigit).head?, ¬c.isDigit := by
  intro c hc
  have hhead := List.head?_dropWhile_not Char.isDigit input
  rw [Option.mem_def.mp hc] at hhead
  rw [hhead]
  exact Bool.false_ne_true

/-- Digits in front of what is no digit are the longest run of digits. -/
theorem takeWhile_isDigit_append {digits : List Char} (hdigits : ∀ c ∈ digits, c.isDigit)
    (hrest : ∀ c ∈ rest.head?, ¬c.isDigit) :
    (digits ++ rest).takeWhile Char.isDigit = digits ∧
      (digits ++ rest).dropWhile Char.isDigit = rest := by
  rw [List.takeWhile_append_of_pos hdigits, List.dropWhile_append_of_pos hdigits]
  cases rest with
  | nil => exact ⟨List.append_nil digits, rfl⟩
  | cons c rest =>
    have hc : ¬c.isDigit := hrest c rfl
    rw [List.takeWhile_cons_of_neg hc, List.dropWhile_cons_of_neg hc, List.append_nil]
    exact ⟨rfl, rfl⟩

/-- The text of a number is a numeral that denotes it. -/
theorem isNumeral_toString {n : Nat} (hn : n < UInt64.size) :
    (∀ c ∈ (toString n).toList, c.isDigit) ∧ IsNumeral (toString n).toList ∧
      ofDigitChars 10 (toString n).toList 0 = n := by
  rw [Nat.toString_eq_ofList_toDigits, String.toList_ofList]
  have hvalue : ofDigitChars 10 (Nat.toDigits 10 n) 0 = n := Nat.ofDigitChars_ten_toDigits
  refine ⟨fun c hc => Nat.isDigit_of_mem_toDigits (by decide) (by decide) hc,
    ⟨Nat.toDigits_ne_nil, ?_⟩, hvalue⟩
  rwa [hvalue]

theorem IsNumeral.lt_numberLimit_iff {digits : List Char} :
    IsNumeral digits ↔ digits ≠ [] ∧ ofDigitChars 10 digits 0 < numberLimit :=
  Iff.rfl

/-- In front of any input, a decimal number is the longest run of digits: it is read if there are
digits and the number they denote in base ten is below 2^64, leading zeros included, and the cursor
is then right behind them. Otherwise the run fails recoverably with the cursor where it was, and its
trace on the trail is a single failed leaf with the label of a number. So the text of every number
below 2^64 is read as that number, in front of whatever is no digit. -/
theorem decimal_reads_numerals (g : Grammar κ α) (s : Session) (hs : s.Ready) {base : Nat}
    {before input : List Char} (hshows : s.cursor.Shows base before input) (hroom : s.HasRoom 4) :
    ∃ enough, ∀ fuel, enough ≤ fuel →
      (IsNumeral (input.takeWhile Char.isDigit) →
        ∃ t, outcome (Parser.decimal.run g fuel) s =
            .ok (.ok (.number (ofDigitChars 10 (input.takeWhile Char.isDigit) 0)), t) ∧
          t.cursor.Shows base (before ++ input.takeWhile Char.isDigit)
            (input.dropWhile Char.isDigit)) ∧
      (¬IsNumeral (input.takeWhile Char.isDigit) →
        ∃ e t, outcome (Parser.decimal.run g fuel) s = .ok (.error (.expected e), t) ∧
          t.cursor.Shows base before input ∧ t.current = s.current ∧
          s.trail.GainsLeaf t.trail s.current s.cursor.position "number") ∧
      ∀ n < UInt64.size, ∀ rest, input = (toString n).toList ++ rest →
        (∀ c ∈ rest.head?, ¬c.isDigit) →
          ∃ t, outcome (Parser.decimal.run g fuel) s = .ok (.ok (.number n), t) ∧
            t.cursor.Shows base (before ++ (toString n).toList) rest := by
  have hdigits := forall_mem_takeWhile_isDigit input
  have hrest := forall_head_dropWhile_isDigit input
  have hsplit : input.takeWhile Char.isDigit ++ input.dropWhile Char.isDigit = input :=
    List.takeWhile_append_dropWhile
  -- Decimal numbers are read alone, so that no rule or procedure of the grammar has a say.
  simp only [Parser.run_eq_alone g (q := .decimal) nests_decimal rfl]
  by_cases hnumeral : IsNumeral (input.takeWhile Char.isDigit)
  · obtain ⟨hne, hlimit⟩ := IsNumeral.lt_numberLimit_iff.mp hnumeral
    rw [← hsplit] at hshows
    obtain ⟨enough, hruns⟩ := Parser.run_matches_of_means (g := catalogAlone) hshows nests_decimal
      hroom (.decimal_matched hdigits hne hrest hlimit)
    refine ⟨enough, fun fuel hfuel => ⟨fun _ => hruns fuel hfuel, absurd hnumeral, ?_⟩⟩
    intro n hn rest hinput hstop
    -- The text of the number is the longest run of digits.
    obtain ⟨htext, -, hvalue⟩ := isNumeral_toString hn
    obtain ⟨htake, hdrop⟩ := takeWhile_isDigit_append htext hstop
    rw [← hinput] at htake hdrop
    have hread := hruns fuel hfuel
    rw [htake, hdrop, hvalue] at hread
    exact hread
  · have hlimit (hne : input.takeWhile Char.isDigit ≠ []) :
        ¬ofDigitChars 10 (input.takeWhile Char.isDigit) 0 < numberLimit :=
      fun hlt => hnumeral (IsNumeral.lt_numberLimit_iff.mpr ⟨hne, hlt⟩)
    have hrefused : Means catalogAlone.rules (Parser.decimal : Parser Empty α).matcher _ _ :=
      .decimal_refused hdigits hrest hlimit
    rw [hsplit] at hrefused
    obtain ⟨enough, hruns⟩ := Parser.run_fails_of_means hshows nests_decimal hroom hrefused
    refine ⟨enough, fun fuel hfuel => ⟨fun h => absurd h hnumeral, fun _ => ?_, ?_⟩⟩
    · obtain ⟨e, t, hrun, hback⟩ := hruns fuel hfuel
      obtain ⟨hleaf, hcurrent⟩ := gainsLeaf_of_run_decimal hs hrun
      exact ⟨e, t, hrun, hback, hcurrent, hleaf⟩
    · intro n hn rest hinput hstop
      obtain ⟨htext, hread, -⟩ := isNumeral_toString hn
      rw [hinput, (takeWhile_isDigit_append htext hstop).1] at hnumeral
      exact absurd hread hnumeral

/-- A session that just allows for a decimal number, in front of a text that follows a letter. -/
def afterLetter (text : String) : Session :=
  .start { text := 'x' :: text.toList, index := 1 } { maxDepth := 4 }

/-- The largest number is read, leading zeros and all. The next one is refused, and its attempt is a
leaf below the root. -/
theorem decimal_reads_numerals_largest :
    (∃ enough, ∀ fuel, enough ≤ fuel → ∃ t,
      outcome ((Parser.decimal : Parser Empty Unit).run ruleless fuel)
          (afterLetter "0018446744073709551615,") =
        .ok (.ok (.number 18446744073709551615), t) ∧
      t.cursor.Shows 0 "x0018446744073709551615".toList [',']) ∧
    ∃ enough, ∀ fuel, enough ≤ fuel → ∃ e t,
      outcome ((Parser.decimal : Parser Empty Unit).run ruleless fuel)
          (afterLetter "18446744073709551616,") = .ok (.error (.expected e), t) ∧
      (Trail.start 1).GainsLeaf t.trail 0 1 "number" := by
  have hready (text : String) : (afterLetter text).Ready := Session.ready_start _ _
  have hroom (text : String) : (afterLetter text).HasRoom 4 := .inr (Nat.le_refl 4)
  constructor
  · obtain ⟨enough, hruns⟩ := decimal_reads_numerals ruleless _ (hready _)
      (Cursor.shows_between ['x'] "0018446744073709551615,".toList) (hroom _)
    refine ⟨enough, fun fuel hfuel => ?_⟩
    exact (hruns fuel hfuel).1 (by decide +kernel)
  · obtain ⟨enough, hruns⟩ := decimal_reads_numerals ruleless _ (hready _)
      (Cursor.shows_between ['x'] "18446744073709551616,".toList) (hroom _)
    refine ⟨enough, fun fuel hfuel => ?_⟩
    obtain ⟨e, t, hrun, -, -, hleaf⟩ := (hruns fuel hfuel).2.1 (by decide +kernel)
    exact ⟨e, t, hrun, hleaf⟩

end ParseTrail
