import ParseTrail.Proofs.Engine
import ParseTrail.Proofs.Meaning
import ParseTrail.Proofs.Outcome

/-!
# Matching on lists

Parsers can be run on a list of characters as well as in a session, by the engine below. What such a
run comes to is its verdict, and the verdict of each way of matching is told by an equation:

- `verdict_bind`, `verdict_recover_bind`, `verdict_recorded`: computations in sequence, absorbed
  failures and attempts;
- `verdict_many_succ`, `verdict_sepTail`: loops.
-/

namespace ParseTrail

/-- Why matching on a list failed. -/
structure Refusal where
  /-- Whether nothing else may be tried. -/
  committed : Bool
  /-- What remained where the failure stands. -/
  place : List Char

/-- A computation on the list of characters that remain. -/
abbrev Matching := ExceptT Refusal (StateT (List Char) (Except Halt))

/-- Lists as a world to match in. A place is what remains there. -/
def listEngine : Engine Matching (List Char) where
  fault cause := throwThe Halt (.fault cause)
  outOfFuel := throwThe Halt .outOfFuel
  here := get
  returnTo place := set place
  read n := do
    let input ← get
    set (input.drop n)
    return input.take n
  readChar := do
    let input ← get
    set (input.drop 1)
    return input.head?
  peek n := return (← get).take n
  atEnd := return (← get).isEmpty
  expected place _ := throw ⟨false, place⟩
  expectedFound place _ _ := throw ⟨false, place⟩
  reject place _ := throw ⟨false, place⟩
  recover x := do
    match ← (ExceptT.lift x.run : Matching _) with
    | .ok v => return some v
    | .error r => if r.committed then throw r else return none
  cut x := do
    match ← (ExceptT.lift x.run : Matching _) with
    | .ok v => return v
    | .error r => throw { r with committed := true }
  lookahead x := do
    let start ← get
    let result ← (ExceptT.lift x.run : Matching _)
    set start
    match result with
    | .ok v => return v
    | .error r => throw r
  recorded _ _ x := do
    let start ← get
    match ← (ExceptT.lift x.run : Matching _) with
    | .ok v => return v
    | .error r =>
      set start
      throw r

variable {β γ κ α : Type} {x : Matching β} {input : List Char}

open Verdict

/-! ### Verdicts -/

/-- The verdict of an outcome; there is none if it is a halt. -/
def Verdict.ofOutcome : Except Halt (Except Refusal β × List Char) → Option (Verdict β)
  | .error _ => none
  | .ok (.ok v, rest) => some (matched v rest)
  | .ok (.error r, _) => some (refused r.committed r.place)

/-- What a computation on a list comes to. -/
def verdict (x : Matching β) (input : List Char) : Option (Verdict β) :=
  Verdict.ofOutcome (outcome x input)

/-- What comes after a verdict: a refusal stays, and a match is followed by what depends on it. -/
def Verdict.followedBy (next : β → List Char → Option (Verdict γ)) : Verdict β → Option (Verdict γ)
  | matched v rest => next v rest
  | refused committed place => some (refused committed place)

/-- What comes after a verdict if a recoverable refusal is absorbed. -/
def Verdict.orElse (absorbed : Option (Verdict γ)) (next : β → List Char → Option (Verdict γ)) :
    Verdict β → Option (Verdict γ)
  | matched v rest => next v rest
  | refused true place => some (refused true place)
  | refused false _ => absorbed

/-- Where something comes after a verdict, it was a match, or a refusal that stays. -/
theorem Verdict.bind_followedBy_eq_some {x : Option (Verdict β)}
    {next : β → List Char → Option (Verdict γ)} {o : Verdict γ}
    (h : x.bind (·.followedBy next) = some o) :
    (∃ v rest, x = some (matched v rest) ∧ next v rest = some o) ∨
      ∃ committed place, x = some (refused committed place) ∧ o = refused committed place := by
  rcases x with _ | ⟨v, rest⟩ | ⟨committed, place⟩
  · cases h
  · exact .inl ⟨v, rest, rfl, h⟩
  · cases h
    exact .inr ⟨committed, place, rfl, rfl⟩

/-- Where a refusal may be absorbed, it was a match, such a refusal, or one for good. -/
theorem Verdict.bind_orElse_eq_some {x : Option (Verdict β)} {absorbed : Option (Verdict γ)}
    {next : β → List Char → Option (Verdict γ)} {o : Verdict γ}
    (h : x.bind (·.orElse absorbed next) = some o) :
    (∃ v rest, x = some (matched v rest) ∧ next v rest = some o) ∨
      (∃ place, x = some (refused false place) ∧ absorbed = some o) ∨
        ∃ place, x = some (refused true place) ∧ o = refused true place := by
  rcases x with _ | ⟨v, rest⟩ | ⟨_ | _, place⟩
  · cases h
  · exact .inl ⟨v, rest, rfl, h⟩
  · exact .inr (.inl ⟨place, rfl, h⟩)
  · cases h
    exact .inr (.inr ⟨place, rfl, rfl⟩)

/-- A verdict that lets nothing else be tried if it is a refusal. -/
def Verdict.commit : Verdict β → Verdict β
  | matched v rest => matched v rest
  | refused _ place => refused true place

/-- A verdict that consumes nothing of the input. -/
def Verdict.unread (input : List Char) : Verdict β → Verdict β
  | matched v _ => matched v input
  | refused committed place => refused committed place

/-- A computation that leaves the list as it was if it fails. -/
def Restores (x : Matching β) : Prop :=
  ∀ input r after, outcome x input = .ok (.error r, after) → after = input

/-- To give a value consumes nothing. -/
theorem verdict_pure (v : β) (input : List Char) :
    verdict (pure v) input = some (matched v input) := rfl

/-- What comes after a match goes on where the match ended. -/
theorem verdict_bind (x : Matching β) (f : β → Matching γ) (input : List Char) :
    verdict (x >>= f) input = (verdict x input).bind (·.followedBy fun v => verdict (f v)) := by
  unfold verdict
  rw [outcome_bind]
  rcases outcome x input with h | ⟨r | v, after⟩ <;> rfl

/-- To map a value does not change what remains. -/
theorem verdict_map (x : Matching β) (f : β → γ) (input : List Char) :
    verdict (f <$> x) input = (verdict x input).map (·.map f) := by
  unfold verdict
  rw [outcome_map]
  rcases outcome x input with h | ⟨r | v, after⟩ <;> rfl

/-- Two computations in sequence, for a value made of both of theirs. -/
theorem verdict_bind_bind_pure {δ : Type} (x : Matching β) (y : Matching γ) (f : β → γ → δ)
    (input : List Char) :
    verdict (x >>= fun v => y >>= fun w => pure (f v w)) input =
      (verdict x input).bind (·.followedBy fun v rest => (verdict y rest).map (·.map (f v))) := by
  rw [verdict_bind]
  congr 1
  funext o
  rcases o with ⟨v, rest⟩ | ⟨committed, place⟩
  · simp only [Verdict.followedBy]
    rw [verdict_bind]
    rcases verdict y rest with _ | _ | _
    · rfl
    · rfl
    · rfl
  · rfl

/-- What remains is passed on to what comes next. -/
theorem verdict_here_bind (f : List Char → Matching β) (input : List Char) :
    verdict (listEngine.here >>= f) input = verdict (f input) input := rfl

/-- Whether anything remains is passed on, too. -/
theorem verdict_atEnd_bind (f : Bool → Matching β) (input : List Char) :
    verdict (listEngine.atEnd >>= f) input = verdict (f input.isEmpty) input := rfl

/-- What follows a computation that may fail: absorbing its failure starts again at the input. -/
theorem verdict_recover_bind (hx : Restores x) (f : Option β → Matching γ) (input : List Char) :
    verdict (listEngine.recover x >>= f) input =
      (verdict x input).bind
        (·.orElse (verdict (f none) input) fun v => verdict (f (some v))) := by
  have hafter := hx input
  rw [verdict_bind]
  unfold verdict
  change ((Verdict.ofOutcome (outcome ((ExceptT.lift x.run : Matching _) >>= _) input)).bind _) = _
  rw [outcome_bind, outcome_lift_run]
  generalize outcome x input = o at hafter ⊢
  rcases o with h | ⟨⟨_ | _, place⟩ | v, after⟩
  · rfl
  · -- The computation has gone back, so that the next one starts at the input again.
    cases hafter _ _ rfl
    rfl
  · rfl
  · rfl

/-- A cut makes a refusal one for good. -/
theorem verdict_cut (x : Matching β) (input : List Char) :
    verdict (listEngine.cut x) input = (verdict x input).map Verdict.commit := by
  unfold verdict
  change Verdict.ofOutcome (outcome ((ExceptT.lift x.run : Matching _) >>= _) input) = _
  rw [outcome_bind, outcome_lift_run]
  rcases outcome x input with h | ⟨r | v, after⟩ <;> rfl

/-- A look ahead gives back what was consumed. -/
theorem verdict_lookahead (x : Matching β) (input : List Char) :
    verdict (listEngine.lookahead x) input = (verdict x input).map (Verdict.unread input) := by
  unfold verdict
  change Verdict.ofOutcome (outcome ((ExceptT.lift x.run : Matching _) >>= _) input) = _
  rw [outcome_bind, outcome_lift_run]
  rcases outcome x input with h | ⟨r | v, after⟩ <;> rfl

/-- To record a computation on a list is to give the list back if it fails. -/
theorem outcome_recorded_listEngine (label : String) (shape : Shape) (x : Matching β)
    (input : List Char) :
    outcome (listEngine.recorded label shape x) input =
      match outcome x input with
      | .error h => .error h
      | .ok (.ok v, rest) => .ok (.ok v, rest)
      | .ok (.error r, _) => .ok (.error r, input) := by
  change outcome ((ExceptT.lift x.run : Matching _) >>= _) input = _
  rw [outcome_bind, outcome_lift_run]
  rcases outcome x input with h | ⟨r | v, after⟩ <;> rfl

/-- This changes no verdict. -/
theorem verdict_recorded (label : String) (shape : Shape) (x : Matching β) (input : List Char) :
    verdict (listEngine.recorded label shape x) input = verdict x input := by
  unfold verdict
  rw [outcome_recorded_listEngine]
  rcases outcome x input with h | ⟨r | v, after⟩ <;> rfl

/-- So what is recorded leaves the list as it was if it fails. -/
theorem restores_recorded (label : String) (shape : Shape) (x : Matching β) :
    Restores (listEngine.recorded label shape x) := by
  intro input r after h
  rw [outcome_recorded_listEngine] at h
  generalize outcome x input = o at h
  rcases o with _ | ⟨r' | v, rest⟩
  · cases h
  · cases h
    rfl
  · cases h

/-! ### Loops -/

variable {turns : Nat} {done : List β} {y : Matching γ}

/-- A text is compared with as many characters as it has. -/
theorem verdict_literal (s : String) (input : List Char) :
    verdict (listEngine.literal s) input =
      some (if input.take s.length = s.toList then matched () (input.drop s.length)
        else refused false input) := by
  change verdict (if input.take s.length = s.toList then pure () else throw ⟨false, input⟩)
    (input.drop s.length) = _
  split
  · rfl
  · rfl

/-- A turn of a repetition ends it at the end of the list or where the item is refused for now.
Otherwise it adds the value of the item to those before. -/
theorem verdict_many_succ (hx : Restores x) (turns : Nat) (done : List β) (input : List Char) :
    verdict (listEngine.many x (turns + 1) done) input =
      if input = [] then some (matched done.reverse [])
      else (verdict x input).bind (·.orElse (some (matched done.reverse input))
        fun v => verdict (listEngine.many x turns (v :: done))) := by
  rw [Engine.many, verdict_atEnd_bind]
  rcases input with _ | ⟨c, rest⟩
  · rfl
  · exact verdict_recover_bind hx _ _

/-- The items of a loop come after those that it has already. -/
theorem verdict_many_done (hx : Restores x) (turns : Nat) (done : List β) (input : List Char) :
    verdict (listEngine.many x turns done) input =
      (verdict (listEngine.many x turns []) input).map (·.map (done.reverse ++ ·)) := by
  induction turns generalizing done input with
  | zero => rfl
  | succ turns ih =>
    rw [verdict_many_succ hx, verdict_many_succ hx]
    split
    · simp
    · rcases verdict x input with _ | ⟨v, rest⟩ | ⟨_ | _, place⟩
      · rfl
      · simp only [Option.bind_some, Verdict.orElse]
        rw [ih (v :: done), ih [v], Option.map_map]
        congr 1
        funext o
        rcases o with _ | _
        · simp
        · rfl
      · simp [Verdict.orElse]
      · rfl

/-- The values that a counted repetition has already come before those that it finds. -/
theorem verdict_timesAfter_done (x : Matching β) (n : Nat) (done : List β) (input : List Char) :
    verdict (Engine.timesAfter x n done) input =
      (verdict (Engine.timesAfter x n []) input).map (·.map (done.reverse ++ ·)) := by
  induction n generalizing done input with
  | zero =>
    simp only [Engine.timesAfter, verdict_pure]
    simp
  | succ n ih =>
    rw [Engine.timesAfter, Engine.timesAfter, verdict_bind, verdict_bind]
    rcases verdict x input with _ | ⟨v, rest⟩ | ⟨committed, place⟩
    · rfl
    · simp only [Option.bind_some, Verdict.followedBy]
      rw [ih (v :: done), ih [v], Option.map_map]
      congr 1
      funext o
      rcases o with _ | _
      · simp
      · rfl
    · rfl

/-- Separators and items come to what repeating a separator followed by an item comes to. -/
theorem verdict_sepTail (hx : Restores x) (hy : Restores y) (label : String) (shape : Shape)
    (turns : Nat) (done : List β) (input : List Char) :
    verdict (listEngine.sepTail x y turns done) input =
      verdict (listEngine.many (listEngine.recorded label shape (y >>= fun _ => x)) turns done)
        input := by
  induction turns generalizing done input with
  | zero => rfl
  | succ turns ih =>
    rw [Engine.sepTail, verdict_many_succ (restores_recorded _ _ _), verdict_atEnd_bind,
      verdict_recorded, verdict_bind]
    -- At the end of the input both loops are done.
    rcases input with _ | ⟨c, rest⟩
    · rfl
    · change verdict (listEngine.here >>= _) _ = _
      rw [verdict_here_bind, verdict_recover_bind hy, if_neg (List.cons_ne_nil _ _)]
      rcases verdict y (c :: rest) with _ | ⟨w, after⟩ | ⟨_ | _, place⟩
      · rfl
      · simp only [Option.bind_some, Verdict.orElse, Verdict.followedBy]
        rw [verdict_recover_bind hx]
        rcases verdict x after with _ | ⟨v, after'⟩ | ⟨_ | _, place⟩
        · rfl
        · exact ih _ _
        · rfl
        · rfl
      · rfl
      · rfl

/-- What no alternative is left to expect does not matter. -/
theorem firstOf_listEngine (label label' : String) (arms : List (Matching β)) :
    listEngine.firstOf label arms = listEngine.firstOf label' arms := by
  induction arms with
  | nil => rfl
  | cons arm arms ih => rw [Engine.firstOf, Engine.firstOf, ih]

end ParseTrail
