import ParseTrail.Proofs.Session.Trying

/-!
# Chains of alternatives

Parsers may be put together by `or` in any bracketing. As it takes mere lists of alternatives
apart, the bracketing leaves no trace in the parser that comes out. What this parser comes to is
what nested choices between two parsers come to, as long as nobody looks at how deep they nest.

- `Chain`: parsers in some bracketing, put together by `or` and by nested choices;
- `or_chains_flatten`: the bracketing makes no difference, and next to none the nesting;
- `nested_chain_is_deeper`: a procedure that asks for the depth tells them apart.
-/

namespace ParseTrail

variable {κ α β : Type}

/-- Parsers between which to choose, in some bracketing. -/
inductive Chain (κ α : Type) where
  /-- A parser. -/
  | one (p : Parser κ α)
  /-- The parsers of a chain, or else those of another. -/
  | either (first second : Chain κ α)

theorem Parser.alternatives_choice (arms : List (Parser κ α)) :
    (Parser.choice arms).alternatives = spread arms := by
  rw [Parser.choice, Matcher.toParser, Parser.alternatives]

namespace Chain

/-- The parsers of a chain, in order. -/
def parsers : Chain κ α → List (Parser κ α)
  | one p => [p]
  | either first second => first.parsers ++ second.parsers

/-- The parsers put together by `or`. -/
def flat : Chain κ α → Parser κ α
  | one p => p
  | either first second => first.flat.or second.flat

/-- The parsers put together by choices between two. -/
def nested : Chain κ α → Parser κ α
  | one p => p
  | either first second => .choice [first.nested, second.nested]

/-- What `or` takes from a chain is what it takes from each of its parsers. -/
theorem arms_flat (a : Chain κ α) :
    a.flat.arms?.getD [a.flat] = a.parsers.flatMap fun p => p.arms?.getD [p] := by
  induction a with
  | one p => rw [flat, parsers, List.flatMap_singleton]
  | either first second ihfirst ihsecond =>
    have harms : (either first second).flat.arms? =
        some (first.flat.arms?.getD [first.flat] ++ second.flat.arms?.getD [second.flat]) := rfl
    rw [harms, Option.getD_some, ihfirst, ihsecond, parsers, List.flatMap_append]

theorem flat_either (first second : Chain κ α) :
    (either first second).flat =
      .choice ((either first second).parsers.flatMap fun p => p.arms?.getD [p]) := by
  rw [flat, Parser.or, arms_flat, arms_flat, parsers, List.flatMap_append]

theorem parsers_ne_nil (a : Chain κ α) : a.parsers ≠ [] := by
  induction a with
  | one p => exact List.cons_ne_nil p []
  | either first second ihfirst _ => exact List.append_ne_nil_of_left_ne_nil ihfirst _

/-- A parser alone is no sequence of two. -/
theorem parsers_one_ne_either (p : Parser κ α) (first second : Chain κ α) :
    (one p).parsers ≠ (either first second).parsers := by
  intro h
  have hlength := congrArg List.length h
  have hfirst := List.length_pos_iff.2 first.parsers_ne_nil
  have hsecond := List.length_pos_iff.2 second.parsers_ne_nil
  simp only [parsers, List.length_singleton, List.length_append] at hlength
  omega

/-- The bracketing leaves no trace. -/
theorem flat_congr {a b : Chain κ α} (h : a.parsers = b.parsers) : a.flat = b.flat := by
  -- One parser is what it is, and from two on the arms are all that `or` keeps.
  cases a with
  | one p =>
    cases b with
    | one q =>
      obtain rfl := List.head_eq_of_cons_eq h
      rfl
    | either first second => exact absurd h (parsers_one_ne_either p first second)
  | either first second =>
    cases b with
    | one q => exact absurd h.symm (parsers_one_ne_either q first second)
    | either first' second' => rw [flat_either, flat_either, h]

/-- Both ways of putting the parsers together lead to the same alternatives. -/
theorem alternatives_nested (a : Chain κ α) : a.nested.alternatives = a.flat.alternatives := by
  induction a with
  | one p => rfl
  | either first second ihfirst ihsecond =>
    rw [nested, flat, Parser.or, Parser.alternatives_choice, Parser.alternatives_choice,
      spread_append, Parser.spread_arms, Parser.spread_arms, spread_cons, spread_cons, spread_nil,
      List.append_nil, ihfirst, ihsecond]

end Chain

/-! ### What chains come to -/

/-- Outcomes are the same, but for the labels under which nothing matched. -/
inductive Concur :
    Except Halt (Except Failure β × Cursor) → Except Halt (Except Failure β × Cursor) → Prop
  | refl (o : Except Halt (Except Failure β × Cursor)) : Concur o o
  | expected (offset : Nat) (label label' : String) (d : Cursor) :
    Concur (.ok (.error (.expected { offset, label }), d))
      (.ok (.error (.expected { offset, label := label' }), d))

theorem Concur.symm {o o' : Except Halt (Except Failure β × Cursor)} (h : Concur o o') :
    Concur o' o := by
  cases h with
  | refl => exact .refl o
  | expected offset label label' d => exact .expected offset label' label d

theorem Trial.concur (w : Trial α) (label label' : String) (offset : Nat) :
    Concur (w.outcome label offset) (w.outcome label' offset) := by
  cases w with
  | halted h => exact .refl _
  | decided r d => exact .refl _
  | declined d => exact .expected offset label label' d

section

variable {g : Grammar κ α} (hg : g.Discreet) {c : Cursor} (hc : c.InBounds)
  {o : Except Halt (Except Failure (Value α) × Cursor)}

include hg hc

/-- Choices that spread out to the same alternatives concur. -/
theorem Parser.Gives.choice_congr {ps qs : List (Parser κ α)} (hspread : spread ps = spread qs)
    (h : (Parser.choice ps).Gives g c o) :
    ∃ o', (Parser.choice qs).Gives g c o' ∧ Concur o o' := by
  obtain ⟨w, hw, rfl⟩ := (gives_choice_iff hg hc).1 h
  rw [← tried_spread hg hc, hspread, tried_spread hg hc] at hw
  exact ⟨_, (gives_choice_iff hg hc).2 ⟨w, hw, rfl⟩, w.concur ..⟩

/-- What the parsers of a chain give, put together by `or` and by choices between two. -/
theorem Chain.gives_concur (a : Chain κ α) :
    (∀ o, a.flat.Gives g c o → ∃ o', a.nested.Gives g c o' ∧ Concur o o') ∧
      ∀ o', a.nested.Gives g c o' → ∃ o, a.flat.Gives g c o ∧ Concur o o' := by
  cases a with
  | one p => exact ⟨fun o h => ⟨o, h, .refl o⟩, fun o h => ⟨o, h, .refl o⟩⟩
  | either first second =>
    -- The lists of both are different, but not once they are spread out.
    have halternatives := (either first second).alternatives_nested
    rw [nested, flat, Parser.or, Parser.alternatives_choice, Parser.alternatives_choice]
      at halternatives
    refine ⟨fun o h => h.choice_congr hg hc halternatives.symm, fun o' h => ?_⟩
    obtain ⟨o, ho, hconcur⟩ := h.choice_congr hg hc halternatives
    exact ⟨o, ho, hconcur.symm⟩

end

/-- Sequences of parsers put together by `or` in two bracketings are the same parser, label and all,
so that no session tells them apart. In a session without a limit, where no procedure asks for the
depth or the trail, it comes to what nested choices of the same bracketing come to, so far as the
cursor is concerned: to a halt, a value or a failure, at the same place, where only the labels under
which nothing matched may differ. -/
theorem or_chains_flatten {a b : Chain κ α} (hab : a.parsers = b.parsers) :
    a.flat = b.flat ∧
    ∀ {g : Grammar κ α} {s : Session}, g.Discreet → s.maxDepth = 0 → s.cursor.InBounds →
      ((∃ fuel, outcome (a.flat.run g fuel) s ≠ .error .outOfFuel) ↔
        ∃ fuel, outcome (a.nested.run g fuel) s ≠ .error .outOfFuel) ∧
      ∀ fuel fuel', outcome (a.flat.run g fuel) s ≠ .error .outOfFuel →
        outcome (a.nested.run g fuel') s ≠ .error .outOfFuel →
        Concur (atCursor (outcome (a.flat.run g fuel) s))
          (atCursor (outcome (a.nested.run g fuel') s)) := by
  refine ⟨a.flat_congr hab, fun {g s} hg hs hc => ?_⟩
  obtain ⟨hnested, hflat⟩ := a.gives_concur hg hc
  -- The nested choices may take more fuel, so that either side comes with an amount of its own.
  refine ⟨⟨?_, ?_⟩, ?_⟩
  · rintro ⟨fuel, h⟩
    obtain ⟨o, ho, -⟩ := hnested _ (Parser.gives_of_outcome hg hs h)
    exact ho.exists_outcome hg hs
  · rintro ⟨fuel, h⟩
    obtain ⟨o, ho, -⟩ := hflat _ (Parser.gives_of_outcome hg hs h)
    exact ho.exists_outcome hg hs
  · intro fuel fuel' h h'
    obtain ⟨o, ho, hconcur⟩ := hnested _ (Parser.gives_of_outcome hg hs h)
    rwa [ho.unique (Parser.gives_of_outcome hg hs h')] at hconcur

/-- Reads a character and rejects it, whatever it is. -/
def spurning : Grammar Unit Unit where
  rules _ := .pending
  procedures _ := .cursor .readChar fun _ => .reject 0 "nothing" fun f => .fail f

/-- The first two of three parsers in brackets. The second is a list of alternatives itself. -/
def leftChain : Chain Unit Unit :=
  .either (.either (.one (.procedure none ())) (.one ((Parser.literal "a").or (.literal "b"))))
    (.one (.literal "c"))

/-- The last two of the same in brackets. -/
def rightChain : Chain Unit Unit :=
  .either (.one (.procedure none ()))
    (.either (.one ((Parser.literal "a").or (.literal "b"))) (.one (.literal "c")))

/-- Whether the alternatives are four, or two of which one is a choice again, they come to the same.
-/
theorem or_chains_flatten_letters :
    leftChain.parsers = rightChain.parsers ∧ leftChain.flat = rightChain.flat ∧
    leftChain.flat.arms?.map List.length = some 4 ∧
    leftChain.nested.arms?.map List.length = some 2 ∧
    spurning.Discreet ∧
    ∃ s : Session, s.maxDepth = 0 ∧ s.cursor.InBounds ∧
      ∃ v d, atCursor (outcome (leftChain.flat.run spurning 4) s) = .ok (.ok v, d) ∧
        d.position = 1 ∧ atCursor (outcome (leftChain.nested.run spurning 4) s) = .ok (.ok v, d) := by
  have hparsers : leftChain.parsers = rightChain.parsers := rfl
  have hdiscreet : spurning.Discreet := fun _ _ _ => trivial
  obtain ⟨hflat, hconcur⟩ := or_chains_flatten hparsers
  refine ⟨hparsers, hflat, by decide, by decide, hdiscreet,
    Session.start (Cursor.ofText "b") {}, rfl, Cursor.inBounds_ofText "b", ?_⟩
  have hmatched : passes (fun q => passes (fun _ => decide (q.2.cursor.position = 1)) q.1)
      (outcome (leftChain.flat.run spurning 4) (Session.start (Cursor.ofText "b") {})) = true := by
    decide +kernel
  have hends : passes (fun _ => true)
      (outcome (leftChain.nested.run spurning 4) (Session.start (Cursor.ofText "b") {})) =
        true := by
    decide +kernel
  obtain ⟨⟨r, t⟩, hrun, hplace⟩ := exists_of_passes hmatched
  obtain ⟨v, rfl, hposition⟩ := exists_of_passes hplace
  obtain ⟨last, hrun', -⟩ := exists_of_passes hends
  -- Neither run is out of fuel, so both come to the same.
  have hboth := (hconcur hdiscreet rfl (Cursor.inBounds_ofText "b")).2 4 4
    (by rw [hrun]; rintro ⟨⟩) (by rw [hrun']; rintro ⟨⟩)
  rw [hrun, atCursor] at hboth
  refine ⟨v, t.cursor, by rw [hrun, atCursor], of_decide_eq_true hposition, ?_⟩
  generalize atCursor (outcome (leftChain.nested.run spurning 4) _) = o at hboth ⊢
  cases hboth
  rfl

/-- Asks how deep it is nested. -/
def sounding : Grammar Unit Unit where
  rules _ := .pending
  procedures _ := .depth fun n => .done (.number n)

/-- A procedure in front of two parsers that match nothing. -/
def soundingChain : Chain Unit Unit :=
  .either (.either (.one (.procedure none ())) (.one (.refuse "x"))) (.one (.refuse "y"))

/-- A procedure that asks for the depth finds itself one deeper in the nested choices. -/
theorem nested_chain_is_deeper :
    ∃ s : Session, s.maxDepth = 0 ∧ s.cursor.InBounds ∧
      (∃ t, outcome (soundingChain.flat.run sounding 4) s = .ok (.ok (.number 2), t)) ∧
      (∃ t, outcome (soundingChain.nested.run sounding 4) s = .ok (.ok (.number 3), t)) ∧
      ¬Concur (atCursor (outcome (soundingChain.flat.run sounding 4) s))
        (atCursor (outcome (soundingChain.nested.run sounding 4) s)) := by
  have hflat : ∃ t, outcome (soundingChain.flat.run sounding 4)
      (Session.start (Cursor.ofText "a") {}) = .ok (.ok (.number 2), t) := ⟨_, rfl⟩
  have hnested : ∃ t, outcome (soundingChain.nested.run sounding 4)
      (Session.start (Cursor.ofText "a") {}) = .ok (.ok (.number 3), t) := ⟨_, rfl⟩
  refine ⟨Session.start (Cursor.ofText "a") {}, rfl, Cursor.inBounds_ofText "a", hflat, hnested, ?_⟩
  obtain ⟨t, ht⟩ := hflat
  obtain ⟨t', ht'⟩ := hnested
  rw [ht, ht', atCursor, atCursor]
  rintro ⟨⟩

end ParseTrail
