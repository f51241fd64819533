import ParseTrail.Proofs.Meaning

/-!
# Alternatives

What a list of alternatives means does not depend on how the list is grouped. An alternative that
is itself a list of alternatives may as well be replaced by its own, at any depth, and this is what
`spread` does.

- `means_choice_cons`, `means_choice_append`: the first alternative that decides, decides;
- `means_choice_spread`: a list means what it means when it is spread out;
- `means_choice_congr`: two lists that spread out to the same one mean the same.
-/

namespace ParseTrail

open Verdict

variable {κ α : Type}

/-! ### The first that decides -/

/-- Nothing else is tried after this verdict. -/
inductive Verdict.Decisive {β : Type} : Verdict β → Prop
  | matched {v : β} {rest : List Char} : Decisive (matched v rest)
  | committed {place : List Char} : Decisive (refused true place)

/-- After a refusal that is not for good something else is tried. -/
theorem Verdict.not_decisive {β : Type} {place : List Char} :
    ¬(refused false place : Verdict β).Decisive := nofun

section

variable {rules : Nat → Rule κ α} {p : Parser κ α} {ps qs : List (Parser κ α)} {input : List Char}
  {o : Verdict (Value α)}

/-- A matcher is refused, and another may be tried. -/
def Declines (rules : Nat → Rule κ α) (m : Matcher κ α) (input : List Char) : Prop :=
  ∃ place, Means rules m input (refused false place)

/-- Where there are no alternatives, nothing matches. -/
theorem means_choice_nil : Means rules (.choice []) input o ↔ o = refused false input := by
  constructor
  · rintro ⟨⟩
    rfl
  · rintro rfl
    exact .choice_nil

/-- The first alternative decides, or it declines and the others decide. -/
theorem means_choice_cons :
    Means rules (.choice (p :: ps)) input o ↔
      o.Decisive ∧ Means rules p.matcher input o ∨
        Declines rules p.matcher input ∧ Means rules (.choice ps) input o := by
  constructor
  · intro h
    cases h with
    | choice_first h => exact .inl ⟨.matched, h⟩
    | choice_committed h => exact .inl ⟨.committed, h⟩
    | choice_next hp hps => exact .inr ⟨⟨_, hp⟩, hps⟩
  · rintro (⟨⟨⟩ | ⟨⟩, h⟩ | ⟨⟨place, hp⟩, hps⟩)
    · exact .choice_first h
    · exact .choice_committed h
    · exact .choice_next hp hps

/-- No alternatives decline. -/
theorem declines_choice_nil : Declines rules (.choice []) input :=
  ⟨input, .choice_nil⟩

/-- Alternatives decline if each of them does. -/
theorem declines_choice_cons :
    Declines rules (.choice (p :: ps)) input ↔
      Declines rules p.matcher input ∧ Declines rules (.choice ps) input := by
  simp only [Declines, means_choice_cons, not_decisive, false_and, false_or, exists_and_left]

/-- Two lists of alternatives are tried one after the other. -/
theorem means_choice_append :
    Means rules (.choice (ps ++ qs)) input o ↔
      o.Decisive ∧ Means rules (.choice ps) input o ∨
        Declines rules (.choice ps) input ∧ Means rules (.choice qs) input o := by
  induction ps with
  | nil =>
    have hnil : ¬(o.Decisive ∧ Means rules (.choice []) input o) := by
      rintro ⟨ho, h⟩
      exact not_decisive (means_choice_nil.1 h ▸ ho)
    simp only [List.nil_append, hnil, declines_choice_nil, true_and, false_or]
  | cons p ps ih =>
    rw [List.cons_append, means_choice_cons, ih, means_choice_cons, declines_choice_cons]
    grind

end

/-! ### The alternatives of a parser -/

mutual

/-- The alternatives of a parser, none of which is a list of alternatives itself. -/
def Parser.alternatives : Parser κ α → List (Parser κ α)
  | .mk _ _ _ (.choice arms) => spread arms
  | p => [p]

/-- The alternatives of the parsers of a list, in order. -/
def spread : List (Parser κ α) → List (Parser κ α)
  | [] => []
  | p :: ps => p.alternatives ++ spread ps

end

/-- A parser is no list of alternatives. -/
def Parser.Single (p : Parser κ α) : Prop :=
  ∀ label named shape arms, p ≠ .mk label named shape (.choice arms)

/-- A parser is a list of alternatives or it is not. -/
theorem Parser.single_or_choice (p : Parser κ α) :
    p.Single ∨ ∃ label named shape arms, p = .mk label named shape (.choice arms) := by
  by_cases h : ∃ label named shape arms, p = .mk label named shape (.choice arms)
  · exact .inr h
  · exact .inl fun label named shape arms hp => h ⟨label, named, shape, arms, hp⟩

/-- If it is not, it is its only alternative. -/
theorem Parser.Single.alternatives_eq {p : Parser κ α} (h : p.Single) : p.alternatives = [p] := by
  rw [Parser.alternatives]
  exact h

/-- Nothing spreads to nothing. -/
@[simp]
theorem spread_nil : spread ([] : List (Parser κ α)) = [] := by
  rw [spread]

/-- The alternatives of the first parser come first. -/
@[simp]
theorem spread_cons (p : Parser κ α) (ps : List (Parser κ α)) :
    spread (p :: ps) = p.alternatives ++ spread ps := by
  rw [spread]

/-- Lists of parsers spread one after the other. -/
@[simp]
theorem spread_append (ps qs : List (Parser κ α)) :
    spread (ps ++ qs) = spread ps ++ spread qs := by
  induction ps with
  | nil => rw [spread_nil, List.nil_append, List.nil_append]
  | cons p ps ih => rw [List.cons_append, spread_cons, ih, spread_cons, List.append_assoc]

/-- What `or` takes from a parser spreads out to its alternatives, whether it takes the parser or
the list that the parser is. -/
theorem Parser.spread_arms (p : Parser κ α) : spread (p.arms?.getD [p]) = p.alternatives := by
  rcases hp : p.arms? with _ | arms
  · rw [Option.getD_none, spread_cons, spread_nil, List.append_nil]
  · rw [Option.getD_some]
    unfold Parser.arms? at hp
    split at hp
    · obtain rfl := Option.some.inj hp
      rw [Parser.alternatives]
    · cases hp

/-- A list of parsers none of which can be spread out any further. -/
theorem spread_eq_self {ps : List (Parser κ α)} (h : ∀ p ∈ ps, p.Single) : spread ps = ps := by
  induction ps with
  | nil => exact spread_nil
  | cons p ps ih =>
    rw [spread_cons, (h p List.mem_cons_self).alternatives_eq,
      ih fun q hq => h q (List.mem_cons_of_mem p hq), List.singleton_append]

/-- What parsers are spread out to cannot be spread out any further. -/
theorem single_of_mem_spread (ps : List (Parser κ α)) : ∀ q ∈ spread ps, q.Single := by
  refine spread.induct (fun p => ∀ q ∈ p.alternatives, q.Single)
    (fun ps => ∀ q ∈ spread ps, q.Single) ?_ ?_ ?_ ?_ ps
  · intro label named shape arms harms q hq
    rw [Parser.alternatives] at hq
    exact harms q hq
  · intro p (hp : p.Single) q hq
    rw [hp.alternatives_eq, List.mem_singleton] at hq
    exact hq ▸ hp
  · intro q hq
    rw [spread_nil] at hq
    exact absurd hq List.not_mem_nil
  · intro p ps hp hps q hq
    rw [spread_cons, List.mem_append] at hq
    exact hq.elim (hp q) (hps q)

/-- A list of alternatives means what it means when it is spread out. -/
theorem means_choice_spread {rules : Nat → Rule κ α} {ps : List (Parser κ α)} {input : List Char}
    {o : Verdict (Value α)} :
    Means rules (.choice (spread ps)) input o ↔ Means rules (.choice ps) input o := by
  -- By induction on how the list is spread out. Of a parser it is told that its alternatives stand
  -- for it in front of any others.
  refine spread.induct
    (fun p => ∀ qs o, Means rules (.choice (p.alternatives ++ qs)) input o ↔
      Means rules (.choice (p :: qs)) input o)
    (fun ps => ∀ o, Means rules (.choice (spread ps)) input o ↔ Means rules (.choice ps) input o)
    ?_ ?_ ?_ ?_ ps o
  · intro label named shape arms harms qs o
    simp only [Parser.alternatives, means_choice_append, means_choice_cons, Declines, harms,
      Parser.matcher]
  · intro p (hp : p.Single) qs o
    rw [hp.alternatives_eq, List.singleton_append]
  · intro o
    rw [spread_nil]
  · intro p ps hp hps o
    rw [spread_cons, hp, means_choice_cons, hps, means_choice_cons]

/-- Lists of alternatives mean the same if they are the same but for their grouping. -/
theorem means_choice_congr {rules : Nat → Rule κ α} {ps qs : List (Parser κ α)}
    {input : List Char} {o : Verdict (Value α)} (h : spread ps = spread qs) :
    Means rules (.choice ps) input o ↔ Means rules (.choice qs) input o := by
  rw [← means_choice_spread, h, means_choice_spread]

end ParseTrail
