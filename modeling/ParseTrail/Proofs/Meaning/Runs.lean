import ParseTrail.Proofs.Meaning.Lists

/-!
# Runs on lists and meaning

Running a parser on a list comes to what the parser means. What a matcher comes to is told by one
equation, in terms of what its parts come to; the equations have the shape of the rules of `Means`,
and so the two directions follow from them:

- `Parser.means_of_verdict`: what a run comes to is what the parser means, by induction on fuel;
- `Parser.verdict_of_means`: what a parser means, every run with enough fuel comes to, by induction
  on the rules;
- `Means.unique`: so it means one thing at most.
-/

namespace ParseTrail

open Verdict

variable {α : Type} (rules : Nat → Rule Empty α)

/-- Runs a parser on a list. -/
def matchList : Nat → Parser Empty α → Matching (Value α) :=
  listEngine.run rules fun _ key => key.elim

/-- What a parser comes to on a list. -/
def Parser.verdict (fuel : Nat) (p : Parser Empty α) (input : List Char) :
    Option (Verdict (Value α)) :=
  ParseTrail.verdict (matchList rules fuel p) input

/-- What a matcher comes to on a list if its parts have `fuel` and its loops take at most `turns`
turns. -/
def Matcher.verdict (fuel turns : Nat) (m : Matcher Empty α) (input : List Char) :
    Option (Verdict (Value α)) :=
  ParseTrail.verdict
    (listEngine.perform rules (fun key => key.elim) (matchList rules fuel) turns m) input

/-- A parser that does not match a list gives it back as it was. -/
theorem restores_matchList (fuel : Nat) (p : Parser Empty α) :
    Restores (matchList rules fuel p) := by
  cases fuel with
  | zero =>
    intro input r after h
    cases h
  | succ fuel => exact restores_recorded _ _ _

/-- What a parser comes to is for its matcher to say, with one unit less of fuel. -/
theorem Parser.verdict_succ (fuel : Nat) (p : Parser Empty α) (input : List Char) :
    p.verdict rules (fuel + 1) input = p.matcher.verdict rules fuel fuel input :=
  verdict_recorded _ _ _ _

/-- A list that begins with an item, once it is a value. -/
theorem map_list_done (v : Value α) (o : Option (Verdict (List (Value α)))) :
    (o.map (·.map ([v].reverse ++ ·))).map (·.map Value.list) =
      (o.map (·.map Value.list)).map (·.map v.prepend) := by
  rcases o with _ | _ | _
  · rfl
  · rfl
  · rfl

namespace Matcher

variable (fuel turns : Nat) (p q : Parser Empty α) (input : List Char)

/-! ### Characters -/

/-- A text is compared with as many characters as it has. -/
theorem verdict_literal (s : String) :
    (literal s).verdict rules fuel turns input =
      some (if input.take s.length = s.toList then matched (.text s) (input.drop s.length)
        else refused false input) := by
  change ParseTrail.verdict (listEngine.literal s >>= fun _ => pure (Value.text s)) input = _
  rw [verdict_bind, ParseTrail.verdict_literal]
  split
  · rfl
  · rfl

/-- At the end of input there is no character that could satisfy anything. -/
theorem verdict_satisfy_nil (label : String) (condition : Char → Bool) :
    (satisfy label condition).verdict rules fuel turns [] = some (refused false []) := rfl

/-- Otherwise the first character decides. -/
theorem verdict_satisfy_cons (label : String) (condition : Char → Bool) (c : Char)
    (rest : List Char) :
    (satisfy label condition).verdict rules fuel turns (c :: rest) =
      some (if condition c then matched (.char c) rest else refused false (c :: rest)) := by
  change ParseTrail.verdict (Value.char <$> listEngine.satisfy label condition) (c :: rest) = _
  rw [verdict_map]
  change (ParseTrail.verdict (if condition c then pure c else throw ⟨false, c :: rest⟩) rest).map
    _ = _
  split
  · rfl
  · rfl

/-- The end of input is found where nothing is left. -/
theorem verdict_ending_nil :
    (ending : Matcher Empty α).verdict rules fuel turns [] = some (matched .unit []) := rfl

/-- It is not found in front of a character. -/
theorem verdict_ending_cons (c : Char) (rest : List Char) :
    (ending : Matcher Empty α).verdict rules fuel turns (c :: rest) =
      some (refused false (c :: rest)) := rfl

/-- A given value consumes nothing. -/
theorem verdict_succeed (v : Value α) :
    (succeed v).verdict rules fuel turns input = some (matched v input) := rfl

/-- What never matches is refused where it stands. -/
theorem verdict_refuse (label : String) :
    (refuse label : Matcher Empty α).verdict rules fuel turns input =
      some (refused false input) := rfl

/-! ### Repetition -/

/-- A repetition is the loop over lists, with its values made one. -/
theorem verdict_many_eq :
    (many p).verdict rules fuel turns input =
      (ParseTrail.verdict (listEngine.many (matchList rules fuel p) turns []) input).map
        (·.map .list) :=
  verdict_map _ _ _

/-- A repetition that has no turns left comes to nothing. -/
theorem verdict_many_zero : (many p).verdict rules fuel 0 input = none := rfl

/-- A repetition ends with the input or where its item is not found. Otherwise it goes on after the
item, with the value of the item before those to come. -/
theorem verdict_many_succ :
    (many p).verdict rules fuel (turns + 1) input =
      if input = [] then some (matched (.list []) [])
      else (p.verdict rules fuel input).bind (·.orElse (some (matched (.list []) input))
        fun v rest => ((many p).verdict rules fuel turns rest).map (·.map v.prepend)) := by
  have hp := restores_matchList rules fuel p
  rw [verdict_many_eq, ParseTrail.verdict_many_succ hp, Parser.verdict]
  split
  · rfl
  · rcases ParseTrail.verdict (matchList rules fuel p) input with _ | ⟨v, rest⟩ | ⟨_ | _, place⟩
    · rfl
    · simp only [Option.bind_some, Verdict.orElse]
      rw [verdict_many_done hp, map_list_done, verdict_many_eq]
    · rfl
    · rfl

/-- A repetition with one item at least is an item and a repetition after it. -/
theorem verdict_many1 :
    (many1 p).verdict rules fuel turns input =
      (p.verdict rules fuel input).bind (·.followedBy
        fun v rest => ((many p).verdict rules fuel turns rest).map (·.map v.prepend)) := by
  change ParseTrail.verdict (matchList rules fuel p >>= fun first =>
    Value.list <$> listEngine.many (matchList rules fuel p) turns [first]) input = _
  rw [verdict_bind, Parser.verdict]
  congr 1
  funext o
  rcases o with ⟨v, rest⟩ | ⟨committed, place⟩
  · simp only [Verdict.followedBy]
    rw [verdict_map, verdict_many_done (restores_matchList rules fuel p), map_list_done,
      verdict_many_eq]
  · rfl

/-- To match no times is to match nothing. -/
theorem verdict_times_zero :
    (times 0 p).verdict rules fuel turns input = some (matched (.list []) input) := rfl

/-- A counted repetition is the counted loop over lists, if it stays below the limit. -/
theorem verdict_times_eq (n : Nat) (hn : n < listLimit) :
    (times n p).verdict rules fuel turns input =
      (ParseTrail.verdict (Engine.timesAfter (matchList rules fuel p) n []) input).map
        (·.map .list) := by
  change ParseTrail.verdict (Value.list <$> listEngine.times (matchList rules fuel p) n) input = _
  rw [verdict_map, Engine.times, if_pos hn]

/-- To match once more is to match an item and then as many as before. -/
theorem verdict_times_succ (n : Nat) (hn : n + 1 < listLimit) :
    (times (n + 1) p).verdict rules fuel turns input =
      (p.verdict rules fuel input).bind (·.followedBy
        fun v rest => ((times n p).verdict rules fuel turns rest).map (·.map v.prepend)) := by
  rw [verdict_times_eq _ _ _ _ _ _ hn, Engine.timesAfter, verdict_bind, Parser.verdict]
  rcases ParseTrail.verdict (matchList rules fuel p) input with _ | ⟨v, rest⟩ | ⟨committed, place⟩
  · rfl
  · simp only [Option.bind_some, Verdict.followedBy]
    rw [verdict_timesAfter_done, map_list_done, verdict_times_eq _ _ _ _ _ _ (by omega)]
  · rfl

/-- No list can be as long as this. -/
theorem verdict_times_of_le (n : Nat) (hn : listLimit ≤ n) :
    (times n p).verdict rules fuel turns input = none := by
  change ParseTrail.verdict (Value.list <$> listEngine.times (matchList rules fuel p) n) input = _
  rw [verdict_map, Engine.times, if_neg (by omega)]
  rfl

/-- What is optional matches as it does, or comes to its absence. -/
theorem verdict_optional :
    (optional p).verdict rules fuel turns input =
      (p.verdict rules fuel input).bind (·.orElse (some (matched .absent input))
        fun v rest => some (matched (.present v) rest)) :=
  verdict_recover_bind (restores_matchList rules fuel p) _ _

/-- After an item, separators and items come to what repeating a separator before an item does. -/
theorem verdict_sepTail_done (v : Value α) :
    (ParseTrail.verdict
      (Value.list <$> listEngine.sepTail (matchList rules fuel p) (matchList rules fuel q) turns [v])
      input) =
      ((many (q.andThen p)).verdict rules (fuel + 1) turns input).map (·.map v.prepend) := by
  rw [verdict_map, verdict_sepTail (restores_matchList rules fuel p) (restores_matchList rules fuel q)
    (q.andThen p).label (q.andThen p).shape,
    verdict_many_done (restores_recorded _ _ _), map_list_done, verdict_many_eq]
  rfl

/-- A separated list is empty at the end of input and where no item is found. Otherwise it is an
item, and a repetition of separators with items after it. -/
theorem verdict_sepBy :
    (sepBy p q).verdict rules fuel turns input =
      if input = [] then some (matched (.list []) [])
      else (p.verdict rules fuel input).bind (·.orElse (some (matched (.list []) input))
        fun v rest => ((many (q.andThen p)).verdict rules (fuel + 1) turns rest).map
          (·.map v.prepend)) := by
  have hp := restores_matchList rules fuel p
  change ParseTrail.verdict (Value.list <$>
    listEngine.sepBy (matchList rules fuel p) (matchList rules fuel q) turns) input = _
  rw [verdict_map, Engine.sepBy, verdict_atEnd_bind, Parser.verdict]
  rcases input with _ | ⟨c, rest⟩
  · rfl
  · rw [if_neg (List.cons_ne_nil _ _)]
    change Option.map _ (ParseTrail.verdict (listEngine.recover (matchList rules fuel p) >>= _) _) = _
    rw [verdict_recover_bind hp]
    rcases ParseTrail.verdict (matchList rules fuel p) (c :: rest) with
      _ | ⟨v, after⟩ | ⟨_ | _, place⟩
    · rfl
    · simp only [Option.bind_some, Verdict.orElse]
      rw [← verdict_map, verdict_sepTail_done]
    · rfl
    · rfl

/-- Where one item at least is asked for, there is no other way for the list to begin. -/
theorem verdict_sepBy1 :
    (sepBy1 p q).verdict rules fuel turns input =
      (p.verdict rules fuel input).bind (·.followedBy
        fun v rest => ((many (q.andThen p)).verdict rules (fuel + 1) turns rest).map
          (·.map v.prepend)) := by
  change ParseTrail.verdict (matchList rules fuel p >>= fun first => Value.list <$>
    listEngine.sepTail (matchList rules fuel p) (matchList rules fuel q) turns [first]) input = _
  rw [verdict_bind, Parser.verdict]
  congr 1
  funext o
  rcases o with ⟨v, rest⟩ | ⟨committed, place⟩
  · exact verdict_sepTail_done _ _ _ _ _ _ _
  · rfl

/-! ### Alternatives and lookahead -/

/-- Among no alternatives none matches. -/
theorem verdict_choice_nil :
    (choice [] : Matcher Empty α).verdict rules fuel turns input = some (refused false input) := rfl

/-- The first alternative is tried, and if it is refused for now the others are. -/
theorem verdict_choice_cons (arms : List (Parser Empty α)) :
    (choice (p :: arms)).verdict rules fuel turns input =
      (p.verdict rules fuel input).bind (·.orElse ((choice arms).verdict rules fuel turns input)
        fun v rest => some (matched v rest)) := by
  have hnext : ParseTrail.verdict
      (listEngine.firstOf (armsLabel (p :: arms)) (arms.map (matchList rules fuel))) input =
      (choice arms).verdict rules fuel turns input := by
    rw [firstOf_listEngine _ (armsLabel arms)]
    rfl
  rw [← hnext]
  exact verdict_recover_bind (restores_matchList rules fuel p) _ _

/-- Behind a cut, what is refused is refused for good. -/
theorem verdict_cut :
    (cut p).verdict rules fuel turns input = (p.verdict rules fuel input).map Verdict.commit :=
  ParseTrail.verdict_cut _ _

/-- A look ahead gives back what it consumed. -/
theorem verdict_lookahead :
    (lookahead p).verdict rules fuel turns input =
      (p.verdict rules fuel input).map (Verdict.unread input) :=
  ParseTrail.verdict_lookahead _ _

/-- The exception is tried first, and refuses where it matches. -/
theorem verdict_butNot :
    (butNot p q).verdict rules fuel turns input =
      (q.verdict rules fuel input).bind (·.orElse (p.verdict rules fuel input)
        fun _ _ => some (refused false input)) := by
  change ParseTrail.verdict (listEngine.here >>= fun start =>
    listEngine.recover (matchList rules fuel q) >>= _) input = _
  rw [verdict_here_bind]
  exact verdict_recover_bind (restores_matchList rules fuel q) _ _

/-! ### Sequences and values -/

/-- Of two parsers in sequence, the first only has to match. -/
theorem verdict_andThen :
    (andThen p q).verdict rules fuel turns input =
      (p.verdict rules fuel input).bind (·.followedBy fun _ => q.verdict rules fuel) :=
  verdict_bind _ _ _

/-- Or it gives the value, once the second has matched after it. -/
theorem verdict_before :
    (before p q).verdict rules fuel turns input =
      (p.verdict rules fuel input).bind (·.followedBy
        fun v rest => (q.verdict rules fuel rest).map (·.map fun _ => v)) :=
  verdict_bind_bind_pure _ _ (fun v _ => v) _

/-- Or both values make a pair. -/
theorem verdict_both :
    (both p q).verdict rules fuel turns input =
      (p.verdict rules fuel input).bind (·.followedBy
        fun v rest => (q.verdict rules fuel rest).map (·.map (.pair v))) :=
  verdict_bind_bind_pure _ _ Value.pair _

/-- What stands between two parsers comes after the one and before the other. -/
theorem verdict_between (opening closing : Parser Empty α) :
    (between opening closing p).verdict rules fuel turns input =
      (opening.verdict rules fuel input).bind (·.followedBy
        fun _ => (before p closing).verdict rules fuel turns) :=
  verdict_bind _ _ _

/-- To map a value does not change what is consumed. -/
theorem verdict_mapped (f : Value α → Value α) :
    (map f p).verdict rules fuel turns input = (p.verdict rules fuel input).map (·.map f) :=
  verdict_map _ _ _

/-- A value that is rejected is refused where the match began. -/
theorem verdict_tryMap (f : Value α → Except String (Value α)) :
    (tryMap f p).verdict rules fuel turns input =
      (p.verdict rules fuel input).bind (·.followedBy fun v rest =>
        match f v with
        | .ok w => some (matched w rest)
        | .error _ => some (refused false input)) := by
  change ParseTrail.verdict (listEngine.here >>= fun start => matchList rules fuel p >>= _) input = _
  rw [verdict_here_bind, verdict_bind, Parser.verdict]
  congr 1
  funext o
  rcases o with ⟨v, rest⟩ | ⟨committed, place⟩
  · simp only [Verdict.followedBy]
    cases f v with
    | ok w => rfl
    | error reason => rfl
  · rfl

/-- A rule is what it was defined as, and comes to nothing without a definition. -/
theorem verdict_rule (key : Nat) :
    (rule key).verdict rules fuel turns input =
      match rules key with
      | .defined p => p.verdict rules fuel input
      | .pending | .dropped => none := by
  simp only [Matcher.verdict, Engine.perform]
  cases rules key with
  | defined p => rfl
  | pending => rfl
  | dropped => rfl

/-! ### What runs come to -/

section

variable {rules} {fuel : Nat}

/-- What repeating comes to is what it means, if that holds of the item. -/
theorem means_many {p : Parser Empty α}
    (hp : ∀ input o, p.verdict rules fuel input = some o → Means rules p.matcher input o)
    {turns : Nat} {input : List Char} {o : Verdict (Value α)}
    (h : (many p).verdict rules fuel turns input = some o) : Means rules (many p) input o := by
  induction turns generalizing input o with
  | zero =>
    rw [verdict_many_zero] at h
    cases h
  | succ turns ih =>
    rw [verdict_many_succ] at h
    split at h
    · next hinput =>
      cases h
      rw [hinput]
      exact .many_end
    · next hinput =>
      obtain ⟨v, rest, hv, h⟩ | ⟨place, hv, h⟩ | ⟨place, hv, rfl⟩ := bind_orElse_eq_some h
      · obtain ⟨o', ho', rfl⟩ := Option.map_eq_some_iff.mp h
        exact .many_next hinput (hp _ _ hv) (ih ho')
      · cases h
        exact .many_stop hinput (hp _ _ hv)
      · exact .many_committed hinput (hp _ _ hv)

variable (hrun : ∀ p input o, Parser.verdict rules fuel p input = some o →
  Means rules p.matcher input o)

include hrun

/-- What a counted repetition comes to is what it means, by induction on the count. -/
theorem means_times {p : Parser Empty α} {turns n : Nat} {input : List Char}
    {o : Verdict (Value α)} (h : (times n p).verdict rules fuel turns input = some o) :
    Means rules (times n p) input o := by
  by_cases hn : n < listLimit
  · induction n generalizing input o with
    | zero =>
      rw [verdict_times_zero] at h
      cases h
      exact .times_zero
    | succ n ih =>
      rw [verdict_times_succ _ _ _ _ _ _ hn] at h
      obtain ⟨v, rest, hv, h⟩ | ⟨committed, place, hv, rfl⟩ := bind_followedBy_eq_some h
      · obtain ⟨o', ho', rfl⟩ := Option.map_eq_some_iff.mp h
        exact .times_next hn (hrun _ _ _ hv) (ih ho' (by omega))
      · exact .times_refused hn (hrun _ _ _ hv)
  · rw [verdict_times_of_le _ _ _ _ _ _ (by omega)] at h
    cases h

/-- Repeating a separator before an item. -/
theorem means_many_andThen {p separator : Parser Empty α} {turns : Nat} {input : List Char}
    {o : Verdict (Value α)}
    (h : (many (separator.andThen p)).verdict rules (fuel + 1) turns input = some o) :
    Means rules (many (separator.andThen p)) input o := by
  refine means_many (fun input o h => ?_) h
  rw [Parser.verdict_succ] at h
  change (andThen separator p).verdict rules fuel fuel input = some o at h
  rw [verdict_andThen] at h
  obtain ⟨v, rest, hv, h⟩ | ⟨committed, place, hv, rfl⟩ := bind_followedBy_eq_some h
  · exact .andThen (hrun _ _ _ hv) (hrun _ _ _ h)
  · exact .andThen_refused (hrun _ _ _ hv)

/-- What a matcher comes to is what it means, if that holds of all parsers. -/
theorem means_of_verdict {turns : Nat} {m : Matcher Empty α} {input : List Char}
    {o : Verdict (Value α)} (h : m.verdict rules fuel turns input = some o) :
    Means rules m input o := by
  -- In each case it is what the first part comes to that decides which rule of the meaning applies.
  cases m with
  | literal s =>
    rw [verdict_literal] at h
    cases h
    split
    · next hstarts =>
      have hinput := List.take_append_drop s.length input
      have hmeans : Means rules (literal s) (s.toList ++ input.drop s.length)
        (matched (.text s) (input.drop s.length)) := .literal
      rw [hstarts] at hinput
      rwa [hinput] at hmeans
    · next hstarts =>
      refine .literal_refused fun hs => hstarts ?_
      rw [← String.length_toList]
      exact (List.prefix_iff_eq_take.mp hs).symm
  | satisfy label condition =>
    rcases input with _ | ⟨c, rest⟩
    · cases h
      exact .satisfy_end
    · rw [verdict_satisfy_cons] at h
      cases h
      split
      · next hc => exact .satisfy hc
      · next hc => exact .satisfy_refused hc
  | ending =>
    rcases input with _ | ⟨c, rest⟩
    · cases h
      exact .ending
    · cases h
      exact .ending_refused
  | succeed v =>
    cases h
    exact .succeed
  | refuse label =>
    cases h
    exact .refuse
  | many p => exact means_many (hrun p) h
  | many1 p =>
    rw [verdict_many1] at h
    obtain ⟨v, rest, hv, h⟩ | ⟨committed, place, hv, rfl⟩ := bind_followedBy_eq_some h
    · obtain ⟨o', ho', rfl⟩ := Option.map_eq_some_iff.mp h
      exact .many1 (hrun _ _ _ hv) (means_many (hrun p) ho')
    · exact .many1_refused (hrun _ _ _ hv)
  | times n p => exact means_times hrun h
  | optional p =>
    rw [verdict_optional] at h
    obtain ⟨v, rest, hv, h⟩ | ⟨place, hv, h⟩ | ⟨place, hv, rfl⟩ := bind_orElse_eq_some h
    · cases h
      exact .optional (hrun _ _ _ hv)
    · cases h
      exact .optional_absent (hrun _ _ _ hv)
    · exact .optional_committed (hrun _ _ _ hv)
  | sepBy p separator =>
    rw [verdict_sepBy] at h
    split at h
    · next hinput =>
      cases h
      rw [hinput]
      exact .sepBy_end
    · next hinput =>
      obtain ⟨v, rest, hv, h⟩ | ⟨place, hv, h⟩ | ⟨place, hv, rfl⟩ := bind_orElse_eq_some h
      · obtain ⟨o', ho', rfl⟩ := Option.map_eq_some_iff.mp h
        exact .sepBy_some hinput (hrun _ _ _ hv) (means_many_andThen hrun ho')
      · cases h
        exact .sepBy_none hinput (hrun _ _ _ hv)
      · exact .sepBy_committed hinput (hrun _ _ _ hv)
  | sepBy1 p separator =>
    rw [verdict_sepBy1] at h
    obtain ⟨v, rest, hv, h⟩ | ⟨committed, place, hv, rfl⟩ := bind_followedBy_eq_some h
    · obtain ⟨o', ho', rfl⟩ := Option.map_eq_some_iff.mp h
      exact .sepBy1 (hrun _ _ _ hv) (means_many_andThen hrun ho')
    · exact .sepBy1_refused (hrun _ _ _ hv)
  | choice arms =>
    -- The first arm decides, or what the others come to.
    induction arms generalizing o with
    | nil =>
      cases h
      exact .choice_nil
    | cons arm arms ih =>
      rw [verdict_choice_cons] at h
      obtain ⟨v, rest, hv, h⟩ | ⟨place, hv, h⟩ | ⟨place, hv, rfl⟩ := bind_orElse_eq_some h
      · cases h
        exact .choice_first (hrun _ _ _ hv)
      · exact .choice_next (hrun _ _ _ hv) (ih h)
      · exact .choice_committed (hrun _ _ _ hv)
  | cut p =>
    rw [verdict_cut] at h
    obtain ⟨o' | ⟨committed, place⟩, ho', rfl⟩ := Option.map_eq_some_iff.mp h
    · exact .cut (hrun _ _ _ ho')
    · exact .cut_refused (hrun _ _ _ ho')
  | between opening closing p =>
    rw [verdict_between] at h
    obtain ⟨v, rest, hv, h⟩ | ⟨committed, place, hv, rfl⟩ := bind_followedBy_eq_some h
    · refine .between (hrun _ _ _ hv) ?_
      rw [verdict_before] at h
      obtain ⟨w, rest', hw, h⟩ | ⟨committed, place, hw, rfl⟩ := bind_followedBy_eq_some h
      · obtain ⟨o', ho', rfl⟩ := Option.map_eq_some_iff.mp h
        exact .before (hrun _ _ _ hw) (hrun _ _ _ ho')
      · exact .before_refused (hrun _ _ _ hw)
    · exact .between_refused (hrun _ _ _ hv)
  | lookahead p =>
    rw [verdict_lookahead] at h
    obtain ⟨o' | ⟨committed, place⟩, ho', rfl⟩ := Option.map_eq_some_iff.mp h
    · exact .lookahead (hrun _ _ _ ho')
    · exact .lookahead_refused (hrun _ _ _ ho')
  | butNot p excluded =>
    rw [verdict_butNot] at h
    obtain ⟨v, rest, hv, h⟩ | ⟨place, hv, h⟩ | ⟨place, hv, rfl⟩ := bind_orElse_eq_some h
    · cases h
      exact .butNot_excluded (hrun _ _ _ hv)
    · exact .butNot (hrun _ _ _ hv) (hrun _ _ _ h)
    · exact .butNot_committed (hrun _ _ _ hv)
  | andThen p q =>
    rw [verdict_andThen] at h
    obtain ⟨v, rest, hv, h⟩ | ⟨committed, place, hv, rfl⟩ := bind_followedBy_eq_some h
    · exact .andThen (hrun _ _ _ hv) (hrun _ _ _ h)
    · exact .andThen_refused (hrun _ _ _ hv)
  | before p q =>
    rw [verdict_before] at h
    obtain ⟨v, rest, hv, h⟩ | ⟨committed, place, hv, rfl⟩ := bind_followedBy_eq_some h
    · obtain ⟨o', ho', rfl⟩ := Option.map_eq_some_iff.mp h
      exact .before (hrun _ _ _ hv) (hrun _ _ _ ho')
    · exact .before_refused (hrun _ _ _ hv)
  | both p q =>
    rw [verdict_both] at h
    obtain ⟨v, rest, hv, h⟩ | ⟨committed, place, hv, rfl⟩ := bind_followedBy_eq_some h
    · obtain ⟨o', ho', rfl⟩ := Option.map_eq_some_iff.mp h
      exact .both (hrun _ _ _ hv) (hrun _ _ _ ho')
    · exact .both_refused (hrun _ _ _ hv)
  | map f p =>
    rw [verdict_mapped] at h
    obtain ⟨o', ho', rfl⟩ := Option.map_eq_some_iff.mp h
    exact .map (hrun _ _ _ ho')
  | tryMap f p =>
    rw [verdict_tryMap] at h
    obtain ⟨v, rest, hv, h⟩ | ⟨committed, place, hv, rfl⟩ := bind_followedBy_eq_some h
    · split at h
      · next w hw =>
        cases h
        exact .tryMap (hrun _ _ _ hv) hw
      · next reason hreason =>
        cases h
        exact .tryMap_rejected (hrun _ _ _ hv) hreason
    · exact .tryMap_refused (hrun _ _ _ hv)
  | rule key =>
    rw [verdict_rule] at h
    split at h
    · next p hp => exact .rule hp (hrun _ _ _ h)
    · cases h
    · cases h
  | procedure key => exact key.elim

end

end Matcher

variable {rules}

/-- What a run of a parser comes to is what the parser means. -/
theorem Parser.means_of_verdict {fuel : Nat} {p : Parser Empty α} {input : List Char}
    {o : Verdict (Value α)} (h : p.verdict rules fuel input = some o) :
    Means rules p.matcher input o := by
  induction fuel generalizing p input o with
  | zero => cases h
  | succ fuel ih =>
    rw [verdict_succ] at h
    exact Matcher.means_of_verdict (fun _ _ _ => ih) h

/-! ### What is meant is reached -/

/-- With enough fuel and enough turns, a matcher always comes to an outcome. -/
def Reached (rules : Nat → Rule Empty α) (m : Matcher Empty α) (input : List Char)
    (o : Verdict (Value α)) : Prop :=
  ∃ enough, ∀ fuel turns, enough ≤ fuel → enough ≤ turns →
    m.verdict rules fuel turns input = some o

namespace Reached

variable {m m' : Matcher Empty α} {p q : Parser Empty α} {input input' input'' : List Char}
  {o o' o'' : Verdict (Value α)}

/-- The outcome of a parser is reached if that of its matcher is. -/
theorem parser (h : Reached rules p.matcher input o) :
    ∃ enough, ∀ fuel, enough ≤ fuel → p.verdict rules fuel input = some o := by
  obtain ⟨enough, h⟩ := h
  refine ⟨enough + 1, fun fuel hfuel => ?_⟩
  obtain ⟨fuel, rfl⟩ : ∃ n, fuel = n + 1 := ⟨fuel - 1, by omega⟩
  rw [Parser.verdict_succ]
  exact h fuel fuel (by omega) (by omega)

/-- An outcome that depends on nothing else. -/
theorem of_forall (h : ∀ fuel turns, m.verdict rules fuel (turns + 1) input = some o) :
    Reached rules m input o := by
  refine ⟨1, fun fuel turns _ hturns => ?_⟩
  obtain ⟨turns, rfl⟩ : ∃ n, turns = n + 1 := ⟨turns - 1, by omega⟩
  exact h fuel turns

/-- An outcome that depends on that of one part. -/
theorem of_part (hp : Reached rules p.matcher input o)
    (h : ∀ fuel turns, p.verdict rules fuel input = some o →
      m.verdict rules fuel (turns + 1) input' = some o') :
    Reached rules m input' o' := by
  obtain ⟨enough, hp⟩ := hp.parser
  refine ⟨enough + 1, fun fuel turns hfuel hturns => ?_⟩
  obtain ⟨turns, rfl⟩ : ∃ n, turns = n + 1 := ⟨turns - 1, by omega⟩
  exact h fuel turns (hp fuel (by omega))

/-- An outcome that depends on those of two parts. -/
theorem of_parts (hp : Reached rules p.matcher input o) (hq : Reached rules q.matcher input' o')
    (h : ∀ fuel turns, p.verdict rules fuel input = some o →
      q.verdict rules fuel input' = some o' →
        m.verdict rules fuel (turns + 1) input'' = some o'') :
    Reached rules m input'' o'' := by
  obtain ⟨enough, hp⟩ := hp.parser
  obtain ⟨enough', hq⟩ := hq.parser
  refine ⟨enough + enough' + 1, fun fuel turns hfuel hturns => ?_⟩
  obtain ⟨turns, rfl⟩ : ∃ n, turns = n + 1 := ⟨turns - 1, by omega⟩
  exact h fuel turns (hp fuel (by omega)) (hq fuel (by omega))

/-- An outcome that depends on those of a part and of another matcher, which may be given one turn
less or more fuel. -/
theorem of_part_of_matcher (hp : Reached rules p.matcher input o)
    (hm : Reached rules m' input' o')
    (h : ∀ fuel turns, p.verdict rules fuel input = some o →
      (∀ fuel' turns', fuel ≤ fuel' → turns ≤ turns' →
        m'.verdict rules fuel' turns' input' = some o') →
          m.verdict rules fuel (turns + 1) input'' = some o'') :
    Reached rules m input'' o'' := by
  obtain ⟨enough, hp⟩ := hp.parser
  obtain ⟨enough', hm⟩ := hm
  refine ⟨enough + enough' + 1, fun fuel turns hfuel hturns => ?_⟩
  obtain ⟨turns, rfl⟩ : ∃ n, turns = n + 1 := ⟨turns - 1, by omega⟩
  exact h fuel turns (hp fuel (by omega)) fun fuel' turns' hfuel' hturns' =>
    hm fuel' turns' (by omega) (by omega)

end Reached

/-- What a matcher means is reached. The induction is on the rules by which it means that. -/
theorem Matcher.reached_of_means {m : Matcher Empty α} {input : List Char} {o : Verdict (Value α)}
    (h : Means rules m input o) : Reached rules m input o := by
  induction h with
  | @literal s rest =>
    refine .of_forall fun fuel turns => ?_
    rw [verdict_literal, ← String.length_toList, List.take_left, if_pos rfl, List.drop_left]
  | @literal_refused s input hs =>
    refine .of_forall fun fuel turns => ?_
    rw [verdict_literal, if_neg]
    intro htake
    exact hs (htake ▸ List.take_prefix _ _)
  | satisfy hc => exact .of_forall fun _ _ => by rw [verdict_satisfy_cons, if_pos hc]
  | satisfy_refused hc => exact .of_forall fun _ _ => by rw [verdict_satisfy_cons, if_neg hc]
  | satisfy_end => exact .of_forall fun _ _ => by rw [verdict_satisfy_nil]
  | ending => exact .of_forall fun _ _ => by rw [verdict_ending_nil]
  | ending_refused => exact .of_forall fun _ _ => by rw [verdict_ending_cons]
  | succeed => exact .of_forall fun _ _ => by rw [verdict_succeed]
  | refuse => exact .of_forall fun _ _ => by rw [verdict_refuse]
  | many_end => exact .of_forall fun _ _ => by rw [verdict_many_succ, if_pos rfl]
  | many_stop hinput _ ih =>
    refine ih.of_part fun fuel turns hp => ?_
    rw [verdict_many_succ, if_neg hinput, hp]
    rfl
  | many_committed hinput _ ih =>
    refine ih.of_part fun fuel turns hp => ?_
    rw [verdict_many_succ, if_neg hinput, hp]
    rfl
  | many_next hinput _ _ ih ih' =>
    -- The rest of the loop has one turn less.
    refine ih.of_part_of_matcher ih' fun fuel turns hp hnext => ?_
    rw [verdict_many_succ, if_neg hinput, hp, Option.bind_some, Verdict.orElse,
      hnext fuel turns (Nat.le_refl _) (Nat.le_refl _), Option.map_some]
  | many1 _ _ ih ih' =>
    refine ih.of_part_of_matcher ih' fun fuel turns hp hnext => ?_
    rw [verdict_many1, hp, Option.bind_some, Verdict.followedBy,
      hnext fuel _ (Nat.le_refl _) (Nat.le_succ _), Option.map_some]
  | many1_refused _ ih =>
    refine ih.of_part fun fuel turns hp => ?_
    rw [verdict_many1, hp]
    rfl
  | times_zero => exact .of_forall fun _ _ => by rw [verdict_times_zero]
  | times_next hn _ _ ih ih' =>
    refine ih.of_part_of_matcher ih' fun fuel turns hp hnext => ?_
    rw [verdict_times_succ _ _ _ _ _ _ hn, hp, Option.bind_some, Verdict.followedBy,
      hnext fuel _ (Nat.le_refl _) (Nat.le_succ _), Option.map_some]
  | times_refused hn _ ih =>
    refine ih.of_part fun fuel turns hp => ?_
    rw [verdict_times_succ _ _ _ _ _ _ hn, hp]
    rfl
  | optional _ ih =>
    refine ih.of_part fun fuel turns hp => ?_
    rw [verdict_optional, hp]
    rfl
  | optional_absent _ ih =>
    refine ih.of_part fun fuel turns hp => ?_
    rw [verdict_optional, hp]
    rfl
  | optional_committed _ ih =>
    refine ih.of_part fun fuel turns hp => ?_
    rw [verdict_optional, hp]
    rfl
  | sepBy_end => exact .of_forall fun _ _ => by rw [verdict_sepBy, if_pos rfl]
  | sepBy_none hinput _ ih =>
    refine ih.of_part fun fuel turns hp => ?_
    rw [verdict_sepBy, if_neg hinput, hp]
    rfl
  | sepBy_committed hinput _ ih =>
    refine ih.of_part fun fuel turns hp => ?_
    rw [verdict_sepBy, if_neg hinput, hp]
    rfl
  | sepBy_some hinput _ _ ih ih' =>
    -- A separator before an item is a parser of its own, one level deeper.
    refine ih.of_part_of_matcher ih' fun fuel turns hp hnext => ?_
    rw [verdict_sepBy, if_neg hinput, hp, Option.bind_some, Verdict.orElse,
      hnext _ _ (Nat.le_succ _) (Nat.le_succ _), Option.map_some]
  | sepBy1 _ _ ih ih' =>
    refine ih.of_part_of_matcher ih' fun fuel turns hp hnext => ?_
    rw [verdict_sepBy1, hp, Option.bind_some, Verdict.followedBy,
      hnext _ _ (Nat.le_succ _) (Nat.le_succ _), Option.map_some]
  | sepBy1_refused _ ih =>
    refine ih.of_part fun fuel turns hp => ?_
    rw [verdict_sepBy1, hp]
    rfl
  | choice_nil => exact .of_forall fun _ _ => by rw [verdict_choice_nil]
  | choice_first _ ih =>
    refine ih.of_part fun fuel turns hp => ?_
    rw [verdict_choice_cons, hp]
    rfl
  | choice_committed _ ih =>
    refine ih.of_part fun fuel turns hp => ?_
    rw [verdict_choice_cons, hp]
    rfl
  | choice_next _ _ ih ih' =>
    refine ih.of_part_of_matcher ih' fun fuel turns hp hnext => ?_
    rw [verdict_choice_cons, hp, Option.bind_some, Verdict.orElse]
    exact hnext fuel _ (Nat.le_refl _) (Nat.le_succ _)
  | cut _ ih =>
    refine ih.of_part fun fuel turns hp => ?_
    rw [verdict_cut, hp]
    rfl
  | cut_refused _ ih =>
    refine ih.of_part fun fuel turns hp => ?_
    rw [verdict_cut, hp]
    rfl
  | lookahead _ ih =>
    refine ih.of_part fun fuel turns hp => ?_
    rw [verdict_lookahead, hp]
    rfl
  | lookahead_refused _ ih =>
    refine ih.of_part fun fuel turns hp => ?_
    rw [verdict_lookahead, hp]
    rfl
  | butNot _ _ ih ih' =>
    refine ih.of_parts ih' fun fuel turns hq hp => ?_
    rw [verdict_butNot, hq, Option.bind_some, Verdict.orElse, hp]
  | butNot_excluded _ ih =>
    refine ih.of_part fun fuel turns hq => ?_
    rw [verdict_butNot, hq]
    rfl
  | butNot_committed _ ih =>
    refine ih.of_part fun fuel turns hq => ?_
    rw [verdict_butNot, hq]
    rfl
  | andThen _ _ ih ih' =>
    refine ih.of_parts ih' fun fuel turns hp hq => ?_
    rw [verdict_andThen, hp, Option.bind_some, Verdict.followedBy, hq]
  | andThen_refused _ ih =>
    refine ih.of_part fun fuel turns hp => ?_
    rw [verdict_andThen, hp]
    rfl
  | before _ _ ih ih' =>
    refine ih.of_parts ih' fun fuel turns hp hq => ?_
    rw [verdict_before, hp, Option.bind_some, Verdict.followedBy, hq, Option.map_some]
  | before_refused _ ih =>
    refine ih.of_part fun fuel turns hp => ?_
    rw [verdict_before, hp]
    rfl
  | both _ _ ih ih' =>
    refine ih.of_parts ih' fun fuel turns hp hq => ?_
    rw [verdict_both, hp, Option.bind_some, Verdict.followedBy, hq, Option.map_some]
  | both_refused _ ih =>
    refine ih.of_part fun fuel turns hp => ?_
    rw [verdict_both, hp]
    rfl
  | between _ _ ih ih' =>
    refine ih.of_part_of_matcher ih' fun fuel turns hp hnext => ?_
    rw [verdict_between, hp, Option.bind_some, Verdict.followedBy]
    exact hnext fuel _ (Nat.le_refl _) (Nat.le_succ _)
  | between_refused _ ih =>
    refine ih.of_part fun fuel turns hp => ?_
    rw [verdict_between, hp]
    rfl
  | map _ ih =>
    refine ih.of_part fun fuel turns hp => ?_
    rw [verdict_mapped, hp, Option.map_some]
  | tryMap _ hf ih =>
    refine ih.of_part fun fuel turns hp => ?_
    rw [verdict_tryMap, hp]
    simp only [Option.bind_some, Verdict.followedBy, hf]
  | tryMap_rejected _ hf ih =>
    refine ih.of_part fun fuel turns hp => ?_
    rw [verdict_tryMap, hp]
    simp only [Option.bind_some, Verdict.followedBy, hf]
  | tryMap_refused _ ih =>
    refine ih.of_part fun fuel turns hp => ?_
    rw [verdict_tryMap, hp]
    rfl
  | rule hrule _ ih =>
    refine ih.of_part fun fuel turns hp => ?_
    rw [verdict_rule]
    simp only [hrule, hp]

/-- What a parser means, every run with enough fuel comes to. -/
theorem Parser.verdict_of_means {p : Parser Empty α} {input : List Char} {o : Verdict (Value α)}
    (h : Means rules p.matcher input o) :
    ∃ enough, ∀ fuel, enough ≤ fuel → p.verdict rules fuel input = some o :=
  (Matcher.reached_of_means h).parser

/-- A parser has one meaning at most. -/
theorem Means.unique {m : Matcher Empty α} {input : List Char} {o o' : Verdict (Value α)}
    (h : Means rules m input o) (h' : Means rules m input o') : o = o' := by
  obtain ⟨enough, h⟩ := Matcher.reached_of_means h
  obtain ⟨enough', h'⟩ := Matcher.reached_of_means h'
  have hverdict := h (max enough enough') (max enough enough') (Nat.le_max_left _ _)
    (Nat.le_max_left _ _)
  rw [h' _ _ (Nat.le_max_right _ _) (Nat.le_max_right _ _), Option.some.injEq] at hverdict
  exact hverdict.symm

end ParseTrail
