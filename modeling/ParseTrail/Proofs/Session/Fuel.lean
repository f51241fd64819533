import ParseTrail.Proofs.Engine.Simulation
import ParseTrail.Proofs.Session.Outcome

/-!
# Fuel

Fuel bounds how deep parsers nest and how many turns their loops take. It decides whether a run
comes to an end, but not to which:

- `correspondence_refuelled`: all ways of putting actions together pass on the lack of fuel;
- `perform_refuelled`: so do procedures;
- `run_refuelled`, `parse_refuelled`: with more fuel a parser does what it does with less, unless it
  ran out of that.
-/

namespace ParseTrail

variable {β γ : Type}

/-- The second action does what the first does, unless that runs out of fuel. -/
def Action.Refuelled (x y : Action β) : Prop :=
  ∀ s, outcome x s = .error .outOfFuel ∨ outcome y s = outcome x s

namespace Action.Refuelled

variable {x y : Action β}

/-- An action does what it does. -/
theorem refl (x : Action β) : x.Refuelled x :=
  fun _ => .inr rfl

/-- All actions do more than running out of fuel. -/
theorem outOfFuel (y : Action β) : Refuelled Action.outOfFuel y :=
  fun _ => .inl rfl

/-- In a sequence the first part may run out of fuel, or the rest. -/
theorem bind {f k : β → Action γ} (hxy : x.Refuelled y) (hfk : ∀ v, (f v).Refuelled (k v)) :
    Refuelled (x >>= f) (y >>= k) := by
  intro s
  rcases hxy s with hfuel | hsame
  · exact .inl (by rw [outcome_bind, hfuel])
  · rw [outcome_bind, outcome_bind, hsame]
    rcases outcome x s with h | ⟨f' | v, t⟩
    · exact .inr rfl
    · exact .inr rfl
    · exact hfk v t

/-- A value is mapped once there is one. -/
theorem map (f : β → γ) (hxy : x.Refuelled y) : Refuelled (f <$> x) (f <$> y) := by
  intro s
  rcases hxy s with hfuel | hsame
  · exact .inl (by rw [outcome_map, hfuel])
  · exact .inr (by rw [outcome_map, outcome_map, hsame])

/-- To run out of fuel is no failure that could be taken for a value. -/
theorem attempt (hxy : x.Refuelled y) : (Action.attempt x).Refuelled (Action.attempt y) := by
  intro s
  rcases hxy s with hfuel | hsame
  · exact .inl (by rw [outcome_attempt, hfuel])
  · exact .inr (by rw [outcome_attempt, outcome_attempt, hsame])

/-- Neither can it be absorbed. -/
theorem recover (hxy : x.Refuelled y) : (Action.recover x).Refuelled (Action.recover y) := by
  intro s
  rcases hxy s with hfuel | hsame
  · exact .inl (by rw [outcome_recover, hfuel])
  · exact .inr (by rw [outcome_recover, outcome_recover, hsame])

/-- Neither can it be committed. -/
theorem cut (hxy : x.Refuelled y) : (Action.cut x).Refuelled (Action.cut y) := by
  intro s
  rcases hxy s with hfuel | hsame
  · exact .inl (by rw [outcome_cut, hfuel])
  · exact .inr (by rw [outcome_cut, outcome_cut, hsame])

/-- There is no way back from it. -/
theorem lookahead (hxy : x.Refuelled y) : (Action.lookahead x).Refuelled (Action.lookahead y) := by
  intro s
  rcases hxy s with hfuel | hsame
  · exact .inl (by rw [outcome_lookahead_eq, hfuel])
  · exact .inr (by rw [outcome_lookahead_eq, outcome_lookahead_eq, hsame])

/-- No attempt is left with it. -/
theorem recorded (label : String) (shape : Shape) (hxy : x.Refuelled y) :
    (Action.recorded label shape x).Refuelled (Action.recorded label shape y) := by
  intro s
  rw [outcome_recorded, outcome_recorded]
  by_cases hdeep : s.maxDepth ≠ 0 ∧ s.depth ≥ s.maxDepth
  · rw [if_pos hdeep, if_pos hdeep]
    exact .inr rfl
  · rw [if_neg hdeep, if_neg hdeep]
    rcases hxy (s.entered label shape.anchor) with hfuel | hsame
    · exact .inl (by rw [hfuel])
    · exact .inr (by rw [hsame])

/-- No scope is closed after it. -/
theorem speculate (accept : β → Bool) (hxy : x.Refuelled y) :
    (Action.speculate accept x).Refuelled (Action.speculate accept y) := by
  intro s
  rcases hxy { s with cursor := s.cursor.openScope } with hfuel | hsame
  · exact .inl (by rw [outcome_speculate, hfuel])
  · exact .inr (by rw [outcome_speculate, outcome_speculate, hsame])

end Action.Refuelled

open ParseTrail.Action (Refuelled)

/-! ### Computations with the cursor -/

/-- The second computation does what the first does, unless that runs out of fuel. -/
def Reading.Refuelled (x y : Reading β) : Prop :=
  ∀ c, x c = .error .outOfFuel ∨ y c = x c

/-- What is done with the cursor is done in a session as well. -/
theorem Reading.Refuelled.ofReading {x y : Reading β} (hxy : x.Refuelled y) :
    (Action.ofReading x).Refuelled (Action.ofReading y) := by
  intro s
  rw [outcome_ofReading, outcome_ofReading]
  rcases hxy s.cursor with hfuel | hsame
  · exact .inl (by rw [StateT.run, hfuel])
  · exact .inr (by rw [StateT.run, StateT.run, hsame])

section

variable {x y : Action β} (config : Config)

/-- A session of its own runs out of fuel with its action. -/
theorem Action.Refuelled.session (hxy : x.Refuelled y) :
    (Reading.session config x).Refuelled (Reading.session config y) := by
  intro c
  rw [session_eq, session_eq]
  rcases hxy (Session.start c config) with hfuel | hsame
  · exact .inl (by rw [hfuel])
  · exact .inr (by rw [hsame])

/-- So does an invocation. -/
theorem Action.Refuelled.invoke (hxy : x.Refuelled y) :
    (Reading.invoke config x).Refuelled (Reading.invoke config y) := by
  intro c
  rw [invoke_eq, invoke_eq]
  rcases hxy (Session.start c.openScope config) with hfuel | hsame
  · exact .inl (by rw [hfuel])
  · exact .inr (by rw [hsame])

/-- So does a parse. -/
theorem Action.Refuelled.parse (hxy : x.Refuelled y) :
    (Reading.parse config x).Refuelled (Reading.parse config y) := by
  intro c
  rw [parse_eq, parse_eq]
  rcases hxy.invoke config c with hfuel | hsame
  · exact .inl (by rw [hfuel])
  · exact .inr (by rw [hsame])

/-- So does a look ahead. -/
theorem Action.Refuelled.parseAhead (hxy : x.Refuelled y) :
    (Reading.parseAhead x).Refuelled (Reading.parseAhead y) := by
  intro c
  rw [parseAhead_eq, parseAhead_eq]
  rcases hxy.invoke {} c with hfuel | hsame
  · exact .inl (by rw [hfuel])
  · exact .inr (by rw [hsame])

/-- A parse of another text. Its cursor is left behind. -/
theorem Action.Refuelled.parseText (hxy : x.Refuelled y) (text : String) :
    Refuelled (liftM ((Reading.parse {} x).run' (Cursor.ofText text)) : Action _)
      (liftM ((Reading.parse {} y).run' (Cursor.ofText text)) : Action _) := by
  intro s
  rw [outcome_liftM, outcome_liftM, StateT.run', StateT.run']
  rcases hxy.parse {} (Cursor.ofText text) with hfuel | hsame
  · exact .inl (by rw [hfuel]; rfl)
  · exact .inr (by rw [hsame])

end

/-- All ways of putting actions together pass on the lack of fuel. -/
theorem correspondence_refuelled :
    Engine.Correspondence sessionEngine sessionEngine (fun (_ : Unit) m n => m = n)
      (fun _ _ x y => x.Refuelled y) where
  pure _ := .refl _
  bind := .bind
  map f h := h.map f
  here h := fun s => h () _ _ rfl s
  returnTo := by
    rintro _ m _ rfl
    exact .refl _
  read _ := .refl _
  readChar := .refl _
  peek _ := .refl _
  atEnd := .refl _
  expected := by
    rintro _ m _ _ label rfl
    exact .refl _
  expectedFound := by
    rintro _ m _ _ label found rfl
    exact .refl _
  reject := by
    rintro _ m _ _ reason rfl
    exact .refl _
  recover h := h.recover
  cut h := h.cut
  lookahead h := (h ()).lookahead

/-! ### Loops -/

variable {x y : Action β} {x' y' : Action γ} {turns turns' : Nat}

/-- A repetition with more turns does what it does with fewer, by induction on these. -/
theorem many_refuelled (hxy : x.Refuelled y) (hturns : turns ≤ turns') (done : List β) :
    Refuelled (sessionEngine.many x turns done) (sessionEngine.many y turns' done) := by
  induction turns generalizing turns' done with
  | zero => exact .outOfFuel _
  | succ turns ih =>
    obtain ⟨turns', rfl⟩ := Nat.exists_eq_add_of_le' (Nat.zero_lt_of_lt hturns)
    refine .bind (.refl sessionEngine.atEnd) fun finished => ?_
    rcases finished with _ | _
    · refine .bind hxy.recover fun found => ?_
      rcases found with _ | v
      · exact .refl (pure done.reverse)
      · exact ih (Nat.le_of_succ_le_succ hturns) (v :: done)
    · exact .refl (pure done.reverse)

/-- So does a separated list. -/
theorem sepTail_refuelled (hxy : x.Refuelled y) (hxy' : x'.Refuelled y') (hturns : turns ≤ turns')
    (done : List β) :
    Refuelled (sessionEngine.sepTail x x' turns done) (sessionEngine.sepTail y y' turns' done) := by
  induction turns generalizing turns' done with
  | zero => exact .outOfFuel _
  | succ turns ih =>
    obtain ⟨turns', rfl⟩ := Nat.exists_eq_add_of_le' (Nat.zero_lt_of_lt hturns)
    refine .bind (.refl sessionEngine.atEnd) fun finished => ?_
    rcases finished with _ | _
    · refine .bind (.refl sessionEngine.here) fun mark => .bind hxy'.recover fun found => ?_
      rcases found with _ | _
      · exact .refl (pure done.reverse)
      · refine .bind hxy.recover fun found => ?_
        rcases found with _ | v
        · exact .refl (sessionEngine.returnTo mark >>= fun _ => pure done.reverse)
        · exact ih (Nat.le_of_succ_le_succ hturns) (v :: done)
    · exact .refl (pure done.reverse)

/-! ### Procedures -/

variable {κ α : Type} (g : Grammar κ α)

/-- A procedure passes on the lack of fuel of the parsers that it runs, wherever it runs them. -/
theorem perform_refuelled {run run' : Parser κ α → Action (Value α)}
    (hrun : ∀ p, (run p).Refuelled (run' p)) (procedure : Procedure κ α) :
    (procedure.perform g run).Refuelled (procedure.perform g run') := by
  induction procedure with
  | done v => exact .refl (pure v)
  | fail f => exact .refl (throw f)
  | fault cause => exact .refl (Action.fault cause)
  | depth next ih => exact fun s => ih s.depth s
  | trail next ih => exact fun s => ih s.trail s
  | cursor request next ih => exact .bind (.refl (Action.ask request)) ih
  | attempt p next ih => exact .bind (hrun p).attempt ih
  | reject offset label next ih => exact .bind (.refl (Action.reject offset label)) ih
  | speculate accept body next ihbody ih => exact .bind (ihbody.speculate accept) ih
  | parse p config next ih => exact .bind ((hrun p).parse config).ofReading ih
  | lookahead p next ih => exact .bind (hrun p).parseAhead.ofReading ih
  | parseText text rule next ih =>
    simp only [Procedure.perform]
    cases g.rules rule with
    | defined p => exact .bind ((hrun p).parseText text) ih
    | pending => exact .refl (Action.fault .rulePending)
    | dropped => exact .refl (Action.fault .ruleDropped)
  | apart config body next ihbody ih =>
    exact .bind (ihbody.session config).ofReading fun told => ih told.1 told.2

/-! ### Parsers -/

variable {fuel fuel' : Nat}

/-- With more fuel a parser does what it does with less, unless it ran out of that. -/
theorem run_refuelled (hfuel : fuel ≤ fuel') (p : Parser κ α) :
    (p.run g fuel).Refuelled (p.run g fuel') := by
  induction fuel generalizing fuel' p with
  | zero => exact .outOfFuel _
  | succ fuel ih =>
    obtain ⟨fuel', rfl⟩ := Nat.exists_eq_add_of_le' (Nat.zero_lt_of_lt hfuel)
    have hle : fuel ≤ fuel' := Nat.le_of_succ_le_succ hfuel
    -- The parts have less fuel, and the loops less turns.
    have hperform : Refuelled
        (sessionEngine.perform g.rules (fun key => (g.procedures key).perform g (Parser.run g fuel))
          (Parser.run g fuel) fuel p.matcher)
        (sessionEngine.perform g.rules
          (fun key => (g.procedures key).perform g (Parser.run g fuel')) (Parser.run g fuel') fuel'
          p.matcher) :=
      correspondence_refuelled.perform p.matcher (fun q _ _ => ih hle q) (fun _ q _ _ _ => ih hle q)
        (fun key _ _ => perform_refuelled g (ih hle) (g.procedures key))
        (fun q _ done _ => many_refuelled (ih hle q) hle done)
        (fun q r _ done _ => sepTail_refuelled (ih hle q) (ih hle r) hle done)
        (fun _ _ _ _ _ => .refl _) (fun _ _ _ _ => .refl _) (fun _ _ _ _ => .refl _) ()
    rw [perform_sessionEngine, perform_sessionEngine] at hperform
    exact hperform.recorded p.label p.shape

/-- A parse that does not run out of fuel has the same outcome with more. -/
theorem parse_refuelled (hfuel : fuel ≤ fuel') (p : Parser κ α) (config : Config) (c : Cursor)
    (h : (p.parse g fuel config).run c ≠ .error .outOfFuel) :
    (p.parse g fuel' config).run c = (p.parse g fuel config).run c :=
  ((run_refuelled g hfuel p).parse config c).resolve_left h

end ParseTrail
