import ParseTrail.Proofs.Session.Nesting

/-!
# Parsers that need no grammar

Which rules a grammar has, and which procedures, matters to the parsers that refer to them. All
others do the same in every grammar, whatever type the keys of its procedures are of:

- `Parser.mapKey`: the same parser with other keys;
- `Parser.run_mapKey`: it does the same, if it comes to no rule and to no procedure;
- `Parser.run_eq_alone`: so its runs may be looked at where there is no grammar at all.
-/

namespace ParseTrail

variable {κ κ' α : Type} {f : κ → κ'} {n fuel : Nat}

mutual

/-- The parser with the keys of its procedures replaced. -/
def Parser.mapKey (f : κ → κ') : Parser κ α → Parser κ' α
  | .mk label named shape m => .mk label named shape (m.mapKey f)

/-- The matcher with the keys of its procedures replaced. -/
def Matcher.mapKey (f : κ → κ') : Matcher κ α → Matcher κ' α
  | .literal s => .literal s
  | .satisfy label condition => .satisfy label condition
  | .ending => .ending
  | .succeed v => .succeed v
  | .refuse label => .refuse label
  | .many p => .many (p.mapKey f)
  | .many1 p => .many1 (p.mapKey f)
  | .times n p => .times n (p.mapKey f)
  | .optional p => .optional (p.mapKey f)
  | .sepBy p separator => .sepBy (p.mapKey f) (separator.mapKey f)
  | .sepBy1 p separator => .sepBy1 (p.mapKey f) (separator.mapKey f)
  | .choice arms => .choice (Parser.mapKeys f arms)
  | .cut p => .cut (p.mapKey f)
  | .between opening closing p => .between (opening.mapKey f) (closing.mapKey f) (p.mapKey f)
  | .lookahead p => .lookahead (p.mapKey f)
  | .butNot p excluded => .butNot (p.mapKey f) (excluded.mapKey f)
  | .andThen p q => .andThen (p.mapKey f) (q.mapKey f)
  | .before p q => .before (p.mapKey f) (q.mapKey f)
  | .both p q => .both (p.mapKey f) (q.mapKey f)
  | .map h p => .map h (p.mapKey f)
  | .tryMap h p => .tryMap h (p.mapKey f)
  | .rule key => .rule key
  | .procedure key => .procedure (f key)

/-- The parsers of a list with the keys of their procedures replaced. -/
def Parser.mapKeys (f : κ → κ') : List (Parser κ α) → List (Parser κ' α)
  | [] => []
  | p :: ps => p.mapKey f :: Parser.mapKeys f ps

end

namespace Parser

@[simp]
theorem label_mapKey (p : Parser κ α) : (p.mapKey f).label = p.label := by
  cases p
  rfl

@[simp]
theorem shape_mapKey (p : Parser κ α) : (p.mapKey f).shape = p.shape := by
  cases p
  rfl

@[simp]
theorem matcher_mapKey (p : Parser κ α) : (p.mapKey f).matcher = p.matcher.mapKey f := by
  cases p
  rfl

/-- Keys are replaced in each parser of a list. -/
theorem mapKeys_eq_map (ps : List (Parser κ α)) : mapKeys f ps = ps.map (mapKey f) := by
  induction ps with
  | nil => rfl
  | cons p ps ih => rw [mapKeys, ih, List.map_cons]

end Parser

/-- A matcher that does not refer to the grammar does the same with other keys, if its parts do. -/
theorem Matcher.perform_mapKey (g : Grammar κ α) (g' : Grammar κ' α) {m : Matcher κ α}
    {run : Parser κ α → Action (Value α)} {run' : Parser κ' α → Action (Value α)}
    (hrefers : ¬m.Refers) (hparts : ∀ p ∈ m.parts, run' (p.mapKey f) = run p) (fuel : Nat) :
    (m.mapKey f).perform g' run' fuel = m.perform g run fuel := by
  cases m with
  | rule key => exact absurd trivial hrefers
  | procedure key => exact absurd trivial hrefers
  | choice arms =>
    -- The labels of the alternatives are part of what a failure expects.
    have hlabel : armsLabel (arms.map (Parser.mapKey f)) = armsLabel arms := by
      rw [armsLabel, armsLabel, List.map_map]
      exact congrArg _ (congrArg _ (List.map_congr_left fun p _ => p.label_mapKey))
    have hruns : (arms.map (Parser.mapKey f)).map run' = arms.map run := by
      rw [List.map_map]
      exact List.map_congr_left hparts
    rw [mapKey, perform, perform, Parser.mapKeys_eq_map, hlabel, hruns]
  | _ => simp_all [mapKey, perform, parts, label]

/-- A parser that comes to no rule and to no procedure does the same in every grammar. -/
theorem Parser.run_mapKey (g : Grammar κ α) (g' : Grammar κ' α) (fuel : Nat) {p : Parser κ α}
    (hp : p.Nests n) : (p.mapKey f).run g' fuel = p.run g fuel := by
  -- By induction on how deep attempts nest, as the fuel is spent on them.
  induction n generalizing p fuel with
  | zero => exact hp.elim
  | succ n ih =>
    obtain ⟨hrefers, hparts⟩ := hp
    cases fuel with
    | zero => rfl
    | succ fuel =>
      rw [run, run, label_mapKey, shape_mapKey, matcher_mapKey,
        Matcher.perform_mapKey g g' hrefers fun q hq => ih fuel (hparts q hq)]

/-- A grammar without rules and procedures. -/
def catalogAlone : Grammar Empty α where
  rules _ := .dropped
  procedures := Empty.elim

/-- In any grammar such a parser does what it does alone. -/
theorem Parser.run_eq_alone (g : Grammar κ α) {p : Parser Empty α} {q : Parser κ α}
    (hp : p.Nests n) (hq : p.mapKey Empty.elim = q) (fuel : Nat) :
    q.run g fuel = p.run catalogAlone fuel :=
  hq ▸ run_mapKey catalogAlone g fuel hp

end ParseTrail
