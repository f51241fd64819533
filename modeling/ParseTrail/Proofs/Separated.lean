import ParseTrail.Proofs.Decimal

/-!
# Separated lists

Items joined with a separator are read back as they were, empty ones among them, as long as no item
can be taken for the end of another. That is so for texts without the character that separates them,
and for decimal numbers:

- `Means.many_separated`: what the items after the first come to, by induction on the items;
- `Means.sepBy1_separated`, `Means.sepBy_separated`: whole lists;
- `separated_lists_round_trip`: lists of texts and lists of numbers, in every session.
-/

namespace ParseTrail

variable {ι κ α : Type} {rules : Nat → Rule κ α} {p separator : Parser κ α} {w : Value α}
  {sep run rest : List Char} {text : ι → List Char} {value : ι → Value α} {items : List ι}
  {c : Char}

/-! ### Lists of items -/

/-- Joined texts are the first one, and then each of the others after a separator. -/
theorem intercalate_cons (sep first : List Char) (more : List (List Char)) :
    sep.intercalate (first :: more) = first ++ more.flatMap (sep ++ ·) := by
  induction more generalizing first with
  | nil => rw [List.intercalate, List.intersperse_singleton, List.flatten_singleton,
      List.flatMap_nil, List.append_nil]
  | cons second more ih =>
    rw [List.intercalate_cons_cons, ih, List.flatMap_cons, List.append_assoc, List.append_assoc]

/-- Only nothing, or a single item of no text, is joined to nothing. -/
theorem intercalate_ne_nil {first : List Char} {more : List (List Char)} (hsep : sep ≠ [])
    (h : first ≠ [] ∨ more ≠ []) : sep.intercalate (first :: more) ≠ [] := by
  rw [intercalate_cons]
  intro hnil
  obtain ⟨hfirst, hmore⟩ := List.append_eq_nil_iff.mp hnil
  rcases h with hne | hne
  · exact hne hfirst
  · obtain ⟨second, more, rfl⟩ := List.exists_cons_of_ne_nil hne
    rw [List.flatMap_cons, List.append_assoc] at hmore
    exact hsep (List.append_eq_nil_iff.mp hmore).1

/-- The parser reads each of the items from its text, in front of nothing or of a separator. -/
def ReadsItems (rules : Nat → Rule κ α) (p : Parser κ α) (sep : List Char) (text : ι → List Char)
    (value : ι → Value α) (items : List ι) : Prop :=
  ∀ x ∈ items, ∀ rest, rest = [] ∨ sep <+: rest →
    Means rules p.matcher (text x ++ rest) (.matched (value x) rest)

/-- The parser reads the separator, whatever comes after it. -/
def ReadsSeparator (rules : Nat → Rule κ α) (separator : Parser κ α) (sep : List Char)
    (w : Value α) : Prop :=
  ∀ rest, Means rules separator.matcher (sep ++ rest) (.matched w rest)

/-- After an item come the separators with the items that are left, or nothing. -/
theorem eq_nil_or_isPrefix_flatMap (sep : List Char) (text : ι → List Char) (items : List ι) :
    items.flatMap (fun x => sep ++ text x) = [] ∨
      sep <+: items.flatMap fun x => sep ++ text x := by
  cases items with
  | nil => exact .inl rfl
  | cons x items =>
    rw [List.flatMap_cons, List.append_assoc]
    exact .inr (List.prefix_append _ _)

/-- The items after the first are read back, by induction on them. Each ends where a separator
begins or where the input ends. -/
theorem Means.many_separated (hsep : ReadsSeparator rules separator sep w) (hne : sep ≠ [])
    (hitems : ReadsItems rules p sep text value items) :
    Means rules (.many (separator.andThen p)) (items.flatMap fun x => sep ++ text x)
      (.matched (.list (items.map value)) []) := by
  -- By induction on the items: each is read with the separator before it.
  induction items with
  | nil => exact .many_end
  | cons x items ih =>
    have hmore := ih fun y hy => hitems y (List.mem_cons_of_mem x hy)
    have hitem := hitems x List.mem_cons_self _ (eq_nil_or_isPrefix_flatMap sep text items)
    rw [List.flatMap_cons, List.append_assoc]
    refine .many_next (p := separator.andThen p) ?_ (.andThen (hsep _) hitem) hmore
    exact fun hnil => hne (List.append_eq_nil_iff.mp hnil).1

variable {x : ι}

/-- A list with an item at least. -/
theorem Means.sepBy1_separated (hsep : ReadsSeparator rules separator sep w) (hne : sep ≠ [])
    (hitems : ReadsItems rules p sep text value (x :: items)) :
    Means rules (.sepBy1 p separator) (sep.intercalate ((x :: items).map text))
      (.matched (.list ((x :: items).map value)) []) := by
  obtain ⟨hfirst, hmore⟩ := List.forall_mem_cons.mp hitems
  rw [List.map_cons, intercalate_cons, List.flatMap_map]
  exact .sepBy1 (hfirst _ (eq_nil_or_isPrefix_flatMap sep text items))
    (.many_separated hsep hne hmore)

/-- A list that is not empty input. -/
theorem Means.sepBy_separated (hsep : ReadsSeparator rules separator sep w) (hne : sep ≠ [])
    (hitems : ReadsItems rules p sep text value (x :: items))
    (hinput : sep.intercalate ((x :: items).map text) ≠ []) :
    Means rules (.sepBy p separator) (sep.intercalate ((x :: items).map text))
      (.matched (.list ((x :: items).map value)) []) := by
  obtain ⟨hfirst, hmore⟩ := List.forall_mem_cons.mp hitems
  rw [List.map_cons, intercalate_cons, List.flatMap_map] at hinput ⊢
  exact .sepBy_some hinput (hfirst _ (eq_nil_or_isPrefix_flatMap sep text items))
    (.many_separated hsep hne hmore)

/-! ### Texts without the separator -/

/-- The characters up to the next separator, as one text. -/
def textUpTo (c : Char) : Parser κ α :=
  (Parser.anyChar.butNot (.literal c.toString)).many.join

/-- A literal reads itself as a separator. -/
theorem readsSeparator_literal (s : String) :
    ReadsSeparator rules (.literal s) s.toList (.text s) :=
  fun _ => .literal

/-- A character as a string is that character. -/
theorem toList_toString (c : Char) : c.toString.toList = [c] :=
  String.toList_singleton c

/-- Characters other than the separator are taken. -/
theorem takesEach_butNot (h : c ∉ run) :
    TakesEach rules (Parser.anyChar.butNot (.literal c.toString)) run := by
  intro d hd rest
  apply Means.butNot
  · refine .literal_refused fun hlead => ?_
    rw [toList_toString, List.cons_prefix_cons] at hlead
    exact h (hlead.1 ▸ hd)
  · exact .satisfy rfl

/-- A text ends where nothing remains, and in front of the separator. -/
theorem stopsAt_butNot (h : rest = [] ∨ c.toString.toList <+: rest) :
    StopsAt rules (Parser.anyChar.butNot (.literal c.toString)) rest := by
  rcases h with rfl | ⟨more, rfl⟩
  · exact .inl rfl
  · exact .inr ⟨_, .butNot_excluded (readsSeparator_literal c.toString more)⟩

/-- Texts up to a character are read back, if the character is in none of them. -/
theorem readsItems_textUpTo {texts : List String} (h : ∀ x ∈ texts, c ∉ x.toList) :
    ReadsItems rules (textUpTo c) c.toString.toList String.toList Value.text texts := by
  intro x hx rest hrest
  have hread : Means rules (textUpTo c).matcher (x.toList ++ rest)
      (.matched (.text (String.ofList x.toList)) rest) :=
    .joined_many_run (takesEach_butNot (h x hx)) (stopsAt_butNot hrest)
  rwa [String.ofList_toList] at hread

/-! ### Numbers -/

/-- Decimal numbers are read back, as a comma is no digit. -/
theorem readsItems_decimal (ns : List UInt64) :
    ReadsItems rules Parser.decimal ",".toList (fun n => (toString n.toNat).toList)
      (fun n => .number n.toNat) ns := by
  intro n _ rest hrest
  obtain ⟨hdigits, hnumeral, hvalue⟩ := isNumeral_toString n.toNat_lt_size
  obtain ⟨hne, hlimit⟩ := IsNumeral.lt_numberLimit_iff.mp hnumeral
  have hstop : ∀ c ∈ rest.head?, ¬c.isDigit := by
    rcases hrest with rfl | ⟨more, rfl⟩
    · exact fun _ hc => nomatch hc
    · intro c hc
      cases (show some ',' = some c from hc)
      decide
  have hread : Means rules Parser.decimal.matcher ((toString n.toNat).toList ++ rest) _ :=
    .decimal_matched hdigits hne hstop hlimit
  rwa [hvalue] at hread

/-! ### Lists read in a session -/

/-- A list of texts, with a text at least. -/
def textList1 (c : Char) : Parser κ α :=
  (textUpTo c).sepBy1 (.literal c.toString)

/-- A list of texts. -/
def textList (c : Char) : Parser κ α :=
  (textUpTo c).sepBy (.literal c.toString)

/-- A list of numbers that is all the input. -/
def numberList : Parser κ α :=
  (Parser.decimal.sepBy (.literal ",")).before .ending

/-- Texts up to a character come to no rule and to no procedure. -/
theorem nests_textUpTo (c : Char) : (textUpTo c : Parser κ α).Nests 4 :=
  .of_one id rfl (.of_one id rfl (.of_two id rfl (.of_none id rfl) (.of_none id rfl)))

/-- Neither do lists of them, with one at least. -/
theorem nests_textList1 (c : Char) : (textList1 c : Parser κ α).Nests 5 :=
  .of_two id rfl (nests_textUpTo c) (.of_none id rfl)

/-- Neither do lists that may have none. -/
theorem nests_textList (c : Char) : (textList c : Parser κ α).Nests 5 :=
  .of_two id rfl (nests_textUpTo c) (.of_none id rfl)

/-- Neither do lists of numbers. -/
theorem nests_numberList : (numberList : Parser κ α).Nests 6 :=
  .of_two id rfl (.of_two id rfl nests_decimal (.of_none id rfl)) (.of_none id rfl)

/-! ### Whole lists -/

variable {texts : List String}

/-- Texts that are joined mean the list of them, where one at least is asked for. -/
theorem Means.textList1_joined (hne : texts ≠ []) (h : ∀ x ∈ texts, c ∉ x.toList) :
    Means rules (textList1 c).matcher (c.toString.intercalate texts).toList
      (.matched (.list (texts.map .text)) []) := by
  obtain ⟨x, texts, rfl⟩ := List.exists_cons_of_ne_nil hne
  have hsep : c.toString.toList ≠ [] := by simp
  rw [String.toList_intercalate]
  exact .sepBy1_separated (readsSeparator_literal c.toString) hsep (readsItems_textUpTo h)

/-- Empty input is an empty list, although it is a single empty text as well. -/
theorem Means.textList_joined (hne : texts ≠ []) (h : ∀ x ∈ texts, c ∉ x.toList) :
    Means rules (textList c).matcher (c.toString.intercalate texts).toList
      (.matched (.list (if texts = [""] then [] else texts.map .text)) []) := by
  obtain ⟨x, texts, rfl⟩ := List.exists_cons_of_ne_nil hne
  have hsep : c.toString.toList ≠ [] := by simp
  by_cases hempty : x :: texts = [""]
  · rw [if_pos hempty, hempty]
    exact .sepBy_end
  · rw [if_neg hempty, String.toList_intercalate]
    refine .sepBy_separated (readsSeparator_literal c.toString) hsep (readsItems_textUpTo h) ?_
    refine intercalate_ne_nil hsep (or_iff_not_imp_left.mpr fun hfirst hmore => hempty ?_)
    rw [String.toList_eq_nil_iff.mp (not_not.mp hfirst), List.map_eq_nil_iff.mp hmore]

/-- Numbers that are joined with commas mean the list of them, none included. -/
theorem Means.numberList_joined (ns : List UInt64) :
    Means rules numberList.matcher (",".intercalate (ns.map fun n => toString n.toNat)).toList
      (.matched (.list (ns.map fun n => .number n.toNat)) []) := by
  have hlist : Means rules (Parser.decimal.sepBy (.literal ",")).matcher
      (",".intercalate (ns.map fun n => toString n.toNat)).toList
      (.matched (.list (ns.map fun n => .number n.toNat)) []) := by
    rw [String.toList_intercalate, List.map_map]
    cases ns with
    | nil => exact .sepBy_end
    | cons n ns =>
      refine .sepBy_separated (readsSeparator_literal ",") (by decide) (readsItems_decimal _) ?_
      exact intercalate_ne_nil (by decide) (.inl (isNumeral_toString n.toNat_lt_size).2.1.1)
  exact .before (p := Parser.decimal.sepBy (.literal ",")) (q := .ending) hlist .ending

/-! ### Runs -/

/-- A parser that means a match of all that remains gives it, and leaves the cursor at the end. -/
theorem Parser.run_consumes_of_means {g : Grammar Empty α} {p : Parser Empty α} {s : Session}
    {base n : Nat} {before input : List Char} {v : Value α}
    (hshows : s.cursor.Shows base before input) (hp : p.Nests n) (hroom : s.HasRoom n)
    (ho : Means g.rules p.matcher input (.matched v [])) :
    ∃ enough, ∀ fuel, enough ≤ fuel → ∃ t, outcome (p.run g fuel) s = .ok (.ok v, t) ∧
      t.cursor.Shows base (before ++ input) [] := by
  rw [← List.append_nil input] at hshows ho
  exact Parser.run_matches_of_means hshows hp hroom ho

/-- Lists that are joined are read back as they were, and all of the input is consumed. Texts may be
joined with any character that is in none of them: a list with one text at least is read as the same
list, empty texts at its ends and in between included, where at least one is asked for. Where none
need be there it is read as the same list as well, unless it is a single empty text, which is read
as an empty list. Lists of numbers below 2^64, the empty list among them, may be joined with commas.
-/
theorem separated_lists_round_trip (g : Grammar κ α) (s : Session) (base : Nat)
    (before input : List Char) (hshows : s.cursor.Shows base before input) :
    (∀ (c : Char) (texts : List String), texts ≠ [] → (∀ x ∈ texts, c ∉ x.toList) →
      input = (c.toString.intercalate texts).toList → s.HasRoom 5 →
        ∃ enough, ∀ fuel, enough ≤ fuel →
          (∃ t, outcome ((textList1 c).run g fuel) s = .ok (.ok (.list (texts.map .text)), t) ∧
            t.cursor.Shows base (before ++ input) []) ∧
          ∃ t, outcome ((textList c).run g fuel) s =
              .ok (.ok (.list (if texts = [""] then [] else texts.map .text)), t) ∧
            t.cursor.Shows base (before ++ input) []) ∧
    ∀ ns : List UInt64, input = (",".intercalate (ns.map fun n => toString n.toNat)).toList →
      s.HasRoom 6 →
        ∃ enough, ∀ fuel, enough ≤ fuel → ∃ t,
          outcome (numberList.run g fuel) s =
            .ok (.ok (.list (ns.map fun n => .number n.toNat)), t) ∧
          t.cursor.Shows base (before ++ input) [] := by
  -- The lists are read alone, so that no rule or procedure of the grammar has a say.
  have htextList1 (c : Char) := Parser.run_eq_alone g (q := textList1 c) (nests_textList1 c) rfl
  have htextList (c : Char) := Parser.run_eq_alone g (q := textList c) (nests_textList c) rfl
  simp only [htextList1, htextList, Parser.run_eq_alone g (q := numberList) nests_numberList rfl]
  refine ⟨fun c texts hne htexts hinput hroom => ?_, fun ns hinput hroom => ?_⟩
  · subst hinput
    obtain ⟨enough₁, hruns₁⟩ := Parser.run_consumes_of_means (g := catalogAlone) hshows
      (nests_textList1 c) hroom (.textList1_joined hne htexts)
    obtain ⟨enough, hruns⟩ := Parser.run_consumes_of_means (g := catalogAlone) hshows
      (nests_textList c) hroom (.textList_joined hne htexts)
    exact ⟨max enough₁ enough, fun fuel hfuel =>
      ⟨hruns₁ fuel (by omega), hruns fuel (by omega)⟩⟩
  · subst hinput
    exact Parser.run_consumes_of_means (g := catalogAlone) hshows nests_numberList hroom
      (.numberList_joined ns)

/-- A session that just allows for a list of numbers, in front of a text that follows a letter. -/
def beforeList (text : String) : Session :=
  .start { text := 'x' :: text.toList, index := 1 } { maxDepth := 6 }

/-- Empty texts are read back from both ends of a list, a single one as no text at all, and so are
the smallest and the largest number. -/
theorem separated_lists_round_trip_commas :
    (∃ enough, ∀ fuel, enough ≤ fuel → ∃ t,
      outcome ((textList1 ',' : Parser Empty Unit).run ruleless fuel) (beforeList ",a,") =
        .ok (.ok (.list [.text "", .text "a", .text ""]), t) ∧
      t.cursor.Shows 0 "x,a,".toList []) ∧
    (∃ enough, ∀ fuel, enough ≤ fuel → ∃ t t',
      outcome ((textList1 ',' : Parser Empty Unit).run ruleless fuel) (beforeList "") =
        .ok (.ok (.list [.text ""]), t) ∧
      outcome ((textList ',' : Parser Empty Unit).run ruleless fuel) (beforeList "") =
        .ok (.ok (.list []), t')) ∧
    ∃ enough, ∀ fuel, enough ≤ fuel → ∃ t,
      outcome ((numberList : Parser Empty Unit).run ruleless fuel)
          (beforeList "18446744073709551615,0") =
        .ok (.ok (.list [.number 18446744073709551615, .number 0]), t) ∧
      t.cursor.Shows 0 "x18446744073709551615,0".toList [] := by
  have hlists (text : String) := separated_lists_round_trip ruleless (beforeList text) 0 ['x'] _
    (Cursor.shows_between ['x'] text.toList)
  refine ⟨?_, ?_, ?_⟩
  · obtain ⟨enough, hruns⟩ := (hlists ",a,").1 ',' ["", "a", ""] (by decide) (by decide)
      (by decide) (.inr (by decide))
    exact ⟨enough, fun fuel hfuel => (hruns fuel hfuel).1⟩
  · obtain ⟨enough, hruns⟩ := (hlists "").1 ',' [""] (by decide) (by decide) (by decide)
      (.inr (by decide))
    refine ⟨enough, fun fuel hfuel => ?_⟩
    obtain ⟨⟨t, hsome, -⟩, t', hnone, -⟩ := hruns fuel hfuel
    exact ⟨t, t', hsome, hnone⟩
  · exact (hlists "18446744073709551615,0").2 [18446744073709551615, 0] (by decide +kernel)
      (.inr (by decide))

end ParseTrail
