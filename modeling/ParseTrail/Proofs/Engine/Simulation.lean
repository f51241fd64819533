import ParseTrail.Proofs.Engine

/-!
# Simulations between engines

Two engines are related by a family of relations between their computations, indexed by a base: a
place both of them can still go back to. If the family respects what an engine offers, and the way
computations are put together, then it relates everything a parser does:

- `Engine.Simulation.perform`: what a matcher does is related if what its parts do is;
- `Engine.Simulation.run`, `Engine.Simulation.run_of`: what a parser does is related, for every
  amount of fuel;
- `Engine.Simulation.run_alone`, `Engine.Simulation.run_alone_of`: so it is if the relations speak
  of one of the engines only.

A relation may ask that a computation is related from every base where it is run again from a
place of its own. Recording is left to the parsers at hand, as it depends on their shapes.

A family that has something to say about computations that halt may not relate them at all. It is a
`Engine.Correspondence` as long as it respects the rest, and then `Engine.Correspondence.perform`
leaves the halts of a matcher to be looked at, and its loops, which may halt for lack of fuel.
-/

namespace ParseTrail

/-- The parsers that a matcher is made of. -/
def Matcher.parts {κ α : Type} : Matcher κ α → List (Parser κ α)
  | .literal _ | .satisfy _ _ | .ending | .succeed _ | .refuse _ | .rule _ | .procedure _ => []
  | .many p | .many1 p | .times _ p | .optional p | .cut p | .lookahead p | .map _ p
  | .tryMap _ p => [p]
  | .sepBy p q | .sepBy1 p q | .butNot p q | .andThen p q | .before p q | .both p q => [p, q]
  | .between opening closing p => [opening, closing, p]
  | .choice arms => arms

namespace Engine

variable {M₁ M₂ : Type → Type} [Monad M₁] [Monad M₂] {μ₁ μ₂ σ κ α β γ : Type}

/-- A family of relations that respects what two engines offer, except halts. `At b m n` says that
`m` and `n` are the places of the base `b`. -/
structure Correspondence (E₁ : Engine M₁ μ₁) (E₂ : Engine M₂ μ₂) (At : σ → μ₁ → μ₂ → Prop)
    (Rel : σ → ∀ {β : Type}, M₁ β → M₂ β → Prop) : Prop where
  pure {b : σ} {β : Type} (v : β) : Rel b (pure v : M₁ β) (pure v)
  bind {b : σ} {β γ : Type} {x : M₁ β} {y : M₂ β} {f : β → M₁ γ} {k : β → M₂ γ} :
    Rel b x y → (∀ v, Rel b (f v) (k v)) → Rel b (x >>= f) (y >>= k)
  map {b : σ} {β γ : Type} {x : M₁ β} {y : M₂ β} (f : β → γ) :
    Rel b x y → Rel b (f <$> x) (f <$> y)
  /-- Asking for the present place sets the base to it. -/
  here {b : σ} {β : Type} {f : μ₁ → M₁ β} {k : μ₂ → M₂ β} :
    (∀ b' m n, At b' m n → Rel b' (f m) (k n)) → Rel b (E₁.here >>= f) (E₂.here >>= k)
  returnTo {b : σ} {m : μ₁} {n : μ₂} : At b m n → Rel b (E₁.returnTo m) (E₂.returnTo n)
  read {b : σ} (n : Nat) : Rel b (E₁.read n) (E₂.read n)
  readChar {b : σ} : Rel b E₁.readChar E₂.readChar
  peek {b : σ} (n : Nat) : Rel b (E₁.peek n) (E₂.peek n)
  atEnd {b : σ} : Rel b E₁.atEnd E₂.atEnd
  expected {b : σ} {m : μ₁} {n : μ₂} {β : Type} (label : String) :
    At b m n → Rel b (E₁.expected m label : M₁ β) (E₂.expected n label)
  expectedFound {b : σ} {m : μ₁} {n : μ₂} {β : Type} (label : String) (found : List Char) :
    At b m n → Rel b (E₁.expectedFound m label found : M₁ β) (E₂.expectedFound n label found)
  reject {b : σ} {m : μ₁} {n : μ₂} {β : Type} (reason : String) :
    At b m n → Rel b (E₁.reject m reason : M₁ β) (E₂.reject n reason)
  recover {b : σ} {β : Type} {x : M₁ β} {y : M₂ β} :
    Rel b x y → Rel b (E₁.recover x) (E₂.recover y)
  cut {b : σ} {β : Type} {x : M₁ β} {y : M₂ β} : Rel b x y → Rel b (E₁.cut x) (E₂.cut y)
  lookahead {b : σ} {β : Type} {x : M₁ β} {y : M₂ β} :
    (∀ b', Rel b' x y) → Rel b (E₁.lookahead x) (E₂.lookahead y)

/-- A family of relations that respects what two engines offer. -/
structure Simulation (E₁ : Engine M₁ μ₁) (E₂ : Engine M₂ μ₂) (At : σ → μ₁ → μ₂ → Prop)
    (Rel : σ → ∀ {β : Type}, M₁ β → M₂ β → Prop) : Prop extends
    Correspondence E₁ E₂ At Rel where
  outOfFuel {b : σ} {β : Type} : Rel b (E₁.outOfFuel : M₁ β) E₂.outOfFuel
  limitExceeded {b : σ} {β : Type} :
    Rel b (E₁.fault .limitExceeded : M₁ β) (E₂.fault .limitExceeded)
  rulePending {b : σ} {β : Type} :
    Rel b (E₁.fault .rulePending : M₁ β) (E₂.fault .rulePending)
  ruleDropped {b : σ} {β : Type} :
    Rel b (E₁.fault .ruleDropped : M₁ β) (E₂.fault .ruleDropped)

namespace Correspondence

variable {E₁ : Engine M₁ μ₁} {E₂ : Engine M₂ μ₂} {At : σ → μ₁ → μ₂ → Prop}
  {Rel : σ → ∀ {β : Type}, M₁ β → M₂ β → Prop} (S : Correspondence E₁ E₂ At Rel)

include S

/-! ### The ways of matching -/

/-- A text is read and compared in both worlds. -/
theorem literal (b : σ) (s : String) : Rel b (E₁.literal s) (E₂.literal s) := by
  refine S.here fun b' m n hat => S.bind (S.read _) fun found => ?_
  by_cases h : found = s.toList
  · simp only [if_pos h]
    exact S.pure ()
  · simp only [if_neg h]
    exact S.expectedFound _ _ hat

/-- So is a single character. -/
theorem satisfy (b : σ) (label : String) (condition : Char → Bool) :
    Rel b (E₁.satisfy label condition) (E₂.satisfy label condition) := by
  refine S.here fun b' m n hat => S.bind S.readChar fun found => ?_
  rcases found with _ | c
  · exact S.expected _ hat
  · by_cases h : condition c
    · simp only [if_pos h]
      exact S.pure c
    · simp only [if_neg h]
      exact S.expectedFound _ _ hat

/-- At the end of input nothing more is asked. Otherwise one character is looked at, for the report.
-/
theorem ending (b : σ) (label : String) : Rel b (E₁.ending label) (E₂.ending label) := by
  refine S.here fun b' m n hat => S.bind S.atEnd fun finished => ?_
  rcases finished with _ | _
  · exact S.bind (S.peek 1) fun found => S.expectedFound _ found hat
  · exact S.pure ()

/-- Counted repetitions are related, by induction on the count. -/
theorem timesAfter {x : M₁ β} {y : M₂ β} {b : σ} (hxy : Rel b x y) (n : Nat) (done : List β) :
    Rel b (Engine.timesAfter x n done) (Engine.timesAfter y n done) := by
  induction n generalizing done with
  | zero => exact S.pure _
  | succ n ih => exact S.bind hxy fun v => ih (v :: done)

/-- Past the limit both have the same fault. -/
theorem times {x : M₁ β} {y : M₂ β} {b : σ} (hxy : Rel b x y) {n : Nat}
    (hlimit : listLimit ≤ n →
      Rel b (E₁.fault .limitExceeded : M₁ (List β)) (E₂.fault .limitExceeded)) :
    Rel b (E₁.times x n) (E₂.times y n) := by
  unfold Engine.times
  by_cases h : n < listLimit
  · simp only [if_pos h]
    exact S.timesAfter hxy n []
  · simp only [if_neg h]
    exact hlimit (Nat.le_of_not_lt h)

/-- Separated lists are related if what comes after their first items is. -/
theorem sepBy {x : M₁ β} {y : M₂ β} {x' : M₁ γ} {y' : M₂ γ} {fuel₁ fuel₂ : Nat} {b : σ}
    (hxy : Rel b x y)
    (htail : ∀ v, Rel b (E₁.sepTail x x' fuel₁ [v]) (E₂.sepTail y y' fuel₂ [v])) :
    Rel b (E₁.sepBy x x' fuel₁) (E₂.sepBy y y' fuel₂) := by
  refine S.bind S.atEnd fun finished => ?_
  rcases finished with _ | _
  · refine S.bind (S.recover hxy) fun found => ?_
    rcases found with _ | v
    · exact S.pure _
    · exact htail v
  · exact S.pure _

/-- Alternatives are related, by induction on those that are left. -/
theorem firstOf (label : String) {arms : List γ} {run₁ : γ → M₁ β} {run₂ : γ → M₂ β} {b : σ}
    (harms : ∀ arm ∈ arms, Rel b (run₁ arm) (run₂ arm)) :
    Rel b (E₁.firstOf label (arms.map run₁)) (E₂.firstOf label (arms.map run₂)) := by
  induction arms with
  | nil => exact S.here fun b' m n hat => S.expected _ hat
  | cons arm arms ih =>
    refine S.bind (S.recover (harms arm List.mem_cons_self)) fun found => ?_
    rcases found with _ | v
    · exact ih fun arm harm => harms arm (List.mem_cons_of_mem _ harm)
    · exact S.pure v

/-- The exception is tried in both worlds, and both go back if it matches. -/
theorem butNot (label : String) {x : M₁ β} {y : M₂ β} {x' : M₁ γ} {y' : M₂ γ}
    (hxy : ∀ b, Rel b x y) (hxy' : ∀ b, Rel b x' y') (b : σ) :
    Rel b (E₁.butNot label x x') (E₂.butNot label y y') := by
  refine S.here fun b' m n hat => S.bind (S.recover (hxy' b')) fun found => ?_
  rcases found with _ | _
  · exact hxy b'
  · exact S.bind (S.returnTo hat) fun _ => S.expected _ hat

/-- A rejection is recorded at the place where both began. -/
theorem tryMap (f : β → Except String γ) {x : M₁ β} {y : M₂ β} (hxy : ∀ b, Rel b x y) (b : σ) :
    Rel b (E₁.tryMap f x) (E₂.tryMap f y) := by
  refine S.here fun b' m n hat => S.bind (hxy b') fun v => ?_
  rcases f v with reason | w
  · exact S.reject reason hat
  · exact S.pure w

/-! ### Matchers -/

/-- What a matcher does is related if what its parts do is, and so are its loops and its halts. The
loops may take other numbers of turns. -/
theorem perform {rules : Nat → Rule κ α} {procedure₁ : κ → M₁ (Value α)}
    {procedure₂ : κ → M₂ (Value α)} {run₁ : Parser κ α → M₁ (Value α)}
    {run₂ : Parser κ α → M₂ (Value α)} {fuel₁ fuel₂ : Nat} (m : Matcher κ α)
    (hparts : ∀ p ∈ m.parts, ∀ b, Rel b (run₁ p) (run₂ p))
    (hrules : ∀ key p, m = .rule key → rules key = .defined p → ∀ b, Rel b (run₁ p) (run₂ p))
    (hprocedure : ∀ key, m = .procedure key → ∀ b, Rel b (procedure₁ key) (procedure₂ key))
    (hmany : ∀ p, m = .many p ∨ m = .many1 p → ∀ done b,
      Rel b (E₁.many (run₁ p) fuel₁ done) (E₂.many (run₂ p) fuel₂ done))
    (hsepTail : ∀ p q, m = .sepBy p q ∨ m = .sepBy1 p q → ∀ done b,
      Rel b (E₁.sepTail (run₁ p) (run₁ q) fuel₁ done) (E₂.sepTail (run₂ p) (run₂ q) fuel₂ done))
    (htimes : ∀ n p, m = .times n p → listLimit ≤ n → ∀ b,
      Rel b (E₁.fault .limitExceeded : M₁ (List (Value α))) (E₂.fault .limitExceeded))
    (hpending : ∀ key, m = .rule key → rules key = .pending → ∀ b,
      Rel b (E₁.fault .rulePending : M₁ (Value α)) (E₂.fault .rulePending))
    (hdropped : ∀ key, m = .rule key → rules key = .dropped → ∀ b,
      Rel b (E₁.fault .ruleDropped : M₁ (Value α)) (E₂.fault .ruleDropped))
    (b : σ) :
    Rel b (E₁.perform rules procedure₁ run₁ fuel₁ m)
      (E₂.perform rules procedure₂ run₂ fuel₂ m) := by
  -- The parts are related, and so is whatever a matcher makes of them.
  cases m with
  | literal s => exact S.bind (S.literal b s) fun _ => S.pure _
  | satisfy label condition => exact S.map _ (S.satisfy b label condition)
  | ending => exact S.bind (S.ending b _) fun _ => S.pure _
  | succeed v => exact S.pure v
  | refuse label => exact S.here fun b' m n hat => S.expected _ hat
  | many p => exact S.map _ (hmany p (.inl rfl) [] b)
  | many1 p =>
    exact S.bind (hparts p (by simp [Matcher.parts]) b) fun first =>
      S.map _ (hmany p (.inr rfl) [first] b)
  | times n p =>
    exact S.map _ (S.times (hparts p (by simp [Matcher.parts]) b) fun h => htimes n p rfl h b)
  | optional p =>
    refine S.bind (S.recover (hparts p (by simp [Matcher.parts]) b)) fun found => ?_
    rcases found with _ | v
    · exact S.pure _
    · exact S.pure _
  | sepBy p separator =>
    exact S.map _ (S.sepBy (hparts p (by simp [Matcher.parts]) b) fun first =>
      hsepTail p separator (.inl rfl) [first] b)
  | sepBy1 p separator =>
    exact S.bind (hparts p (by simp [Matcher.parts]) b) fun first =>
      S.map _ (hsepTail p separator (.inr rfl) [first] b)
  | choice arms => exact S.firstOf _ fun arm harm => hparts arm harm b
  | cut p => exact S.cut (hparts p (by simp [Matcher.parts]) b)
  | between opening closing p =>
    exact S.bind (hparts opening (by simp [Matcher.parts]) b) fun _ =>
      S.bind (hparts p (by simp [Matcher.parts]) b) fun _ =>
        S.bind (hparts closing (by simp [Matcher.parts]) b) fun _ => S.pure _
  | lookahead p => exact S.lookahead (hparts p (by simp [Matcher.parts]))
  | butNot p excluded =>
    exact S.butNot _ (hparts p (by simp [Matcher.parts]))
      (hparts excluded (by simp [Matcher.parts])) b
  | andThen p q =>
    exact S.bind (hparts p (by simp [Matcher.parts]) b) fun _ =>
      hparts q (by simp [Matcher.parts]) b
  | before p q =>
    exact S.bind (hparts p (by simp [Matcher.parts]) b) fun _ =>
      S.bind (hparts q (by simp [Matcher.parts]) b) fun _ => S.pure _
  | both p q =>
    exact S.bind (hparts p (by simp [Matcher.parts]) b) fun _ =>
      S.bind (hparts q (by simp [Matcher.parts]) b) fun _ => S.pure _
  | map f p => exact S.map f (hparts p (by simp [Matcher.parts]) b)
  | tryMap f p => exact S.tryMap f (hparts p (by simp [Matcher.parts])) b
  | rule key =>
    simp only [Engine.perform]
    cases hrule : rules key with
    | defined p => exact hrules key p rfl hrule b
    | pending => exact hpending key rfl hrule b
    | dropped => exact hdropped key rfl hrule b
  | procedure key => exact hprocedure key rfl b

omit S in
/-- Relations that speak of one engine only. What a matcher does in it has the property, if this is
so of its parts, its loops and its halts. -/
theorem perform_alone {M : Type → Type} [Monad M] {μ : Type} {E : Engine M μ}
    {At : σ → μ → μ → Prop} {P : σ → ∀ {β : Type}, M β → Prop}
    (S : Correspondence E E At (fun b _ x _ => P b x)) {rules : Nat → Rule κ α}
    {procedure : κ → M (Value α)} {run : Parser κ α → M (Value α)} {fuel : Nat} (m : Matcher κ α)
    (hparts : ∀ p ∈ m.parts, ∀ b, P b (run p))
    (hrules : ∀ key p, m = .rule key → rules key = .defined p → ∀ b, P b (run p))
    (hprocedure : ∀ key, m = .procedure key → ∀ b, P b (procedure key))
    (hmany : ∀ p, m = .many p ∨ m = .many1 p → ∀ done b, P b (E.many (run p) fuel done))
    (hsepTail : ∀ p q, m = .sepBy p q ∨ m = .sepBy1 p q → ∀ done b,
      P b (E.sepTail (run p) (run q) fuel done))
    (htimes : ∀ n p, m = .times n p → listLimit ≤ n → ∀ b,
      P b (E.fault .limitExceeded : M (List (Value α))))
    (hpending : ∀ key, m = .rule key → rules key = .pending → ∀ b,
      P b (E.fault .rulePending : M (Value α)))
    (hdropped : ∀ key, m = .rule key → rules key = .dropped → ∀ b,
      P b (E.fault .ruleDropped : M (Value α)))
    (b : σ) : P b (E.perform rules procedure run fuel m) :=
  -- The second engine plays no part, so that what is done in it has to be told.
  @perform M M _ _ μ μ σ κ α E E At _ S rules procedure procedure run run fuel fuel m hparts hrules
    hprocedure hmany hsepTail htimes hpending hdropped b

end Correspondence

namespace Simulation

variable {E₁ : Engine M₁ μ₁} {E₂ : Engine M₂ μ₂} {At : σ → μ₁ → μ₂ → Prop}
  {Rel : σ → ∀ {β : Type}, M₁ β → M₂ β → Prop} (S : Simulation E₁ E₂ At Rel)

include S

/-! ### Loops -/

/-- Repetitions that take the same number of turns are related. -/
theorem many {x : M₁ β} {y : M₂ β} (hxy : ∀ b, Rel b x y) (fuel : Nat) (done : List β) (b : σ) :
    Rel b (E₁.many x fuel done) (E₂.many y fuel done) := by
  -- By induction on the turns left. Both loops end at the same turn, since they see the same.
  induction fuel generalizing done with
  | zero => exact S.outOfFuel
  | succ fuel ih =>
    refine S.bind S.atEnd fun finished => ?_
    rcases finished with _ | _
    · refine S.bind (S.recover (hxy b)) fun found => ?_
      rcases found with _ | v
      · exact S.pure _
      · exact ih (v :: done)
    · exact S.pure _

/-- So is what comes after the first items of lists. -/
theorem sepTail {x : M₁ β} {y : M₂ β} {x' : M₁ γ} {y' : M₂ γ} (hxy : ∀ b, Rel b x y)
    (hxy' : ∀ b, Rel b x' y') (fuel : Nat) (done : List β) (b : σ) :
    Rel b (E₁.sepTail x x' fuel done) (E₂.sepTail y y' fuel done) := by
  induction fuel generalizing done b with
  | zero => exact S.outOfFuel
  | succ fuel ih =>
    refine S.bind S.atEnd fun finished => ?_
    rcases finished with _ | _
    · -- The mark taken here is where the cursor returns to if no item follows.
      refine S.here fun b' m n hat => S.bind (S.recover (hxy' b')) fun found => ?_
      rcases found with _ | _
      · exact S.pure _
      · refine S.bind (S.recover (hxy b')) fun found => ?_
        rcases found with _ | v
        · exact S.bind (S.returnTo hat) fun _ => S.pure _
        · exact ih (v :: done) b'
    · exact S.pure _

/-! ### Matchers and parsers -/

/-- What a matcher does is related if what its parts do is. -/
theorem perform {rules : Nat → Rule κ α} {procedure₁ : κ → M₁ (Value α)}
    {procedure₂ : κ → M₂ (Value α)} {run₁ : Parser κ α → M₁ (Value α)}
    {run₂ : Parser κ α → M₂ (Value α)} (m : Matcher κ α)
    (hparts : ∀ p ∈ m.parts, ∀ b, Rel b (run₁ p) (run₂ p))
    (hrules : ∀ key p, m = .rule key → rules key = .defined p → ∀ b, Rel b (run₁ p) (run₂ p))
    (hprocedure : ∀ key, m = .procedure key → ∀ b, Rel b (procedure₁ key) (procedure₂ key))
    (fuel : Nat) (b : σ) :
    Rel b (E₁.perform rules procedure₁ run₁ fuel m) (E₂.perform rules procedure₂ run₂ fuel m) := by
  refine S.toCorrespondence.perform m hparts hrules hprocedure (fun p hm => ?_) (fun p q hm => ?_)
    (fun _ _ _ _ _ => S.limitExceeded) (fun _ _ _ _ => S.rulePending)
    (fun _ _ _ _ => S.ruleDropped) b
  · have hp : p ∈ m.parts := by rcases hm with rfl | rfl <;> simp [Matcher.parts]
    exact S.many (hparts p hp) fuel
  · have hp : p ∈ m.parts ∧ q ∈ m.parts := by rcases hm with rfl | rfl <;> simp [Matcher.parts]
    exact S.sepTail (hparts p hp.1) (hparts q hp.2) fuel

/-- What a parser does is related, if this is so of recording the parsers that it can come to run,
and of the procedures among them once it is so of the parsers they run. -/
theorem run_of {Q : Parser κ α → Prop} {rules : Nat → Rule κ α}
    {procedure₁ : (Parser κ α → M₁ (Value α)) → κ → M₁ (Value α)}
    {procedure₂ : (Parser κ α → M₂ (Value α)) → κ → M₂ (Value α)}
    (hparts : ∀ p, Q p → ∀ q ∈ p.matcher.parts, Q q)
    (hrules : ∀ p key q, Q p → p.matcher = .rule key → rules key = .defined q → Q q)
    (hrecorded : ∀ p, Q p → ∀ {x : M₁ (Value α)} {y : M₂ (Value α)}, (∀ b, Rel b x y) →
      ∀ b, Rel b (E₁.recorded p.label p.shape x) (E₂.recorded p.label p.shape y))
    (hprocedure : ∀ p key, Q p → p.matcher = .procedure key → ∀ run₁ run₂,
      (∀ q, Q q → ∀ b, Rel b (run₁ q) (run₂ q)) →
        ∀ b, Rel b (procedure₁ run₁ key) (procedure₂ run₂ key))
    (fuel : Nat) {p : Parser κ α} (hp : Q p) (b : σ) :
    Rel b (E₁.run rules procedure₁ fuel p) (E₂.run rules procedure₂ fuel p) := by
  -- By induction on fuel, for all these parsers, as rules may lead to any.
  induction fuel generalizing p b with
  | zero => exact S.outOfFuel
  | succ fuel ih =>
    refine hrecorded p hp (fun b' => ?_) b
    exact S.perform p.matcher (fun q hq => ih (hparts p hp q hq))
      (fun key q hkey hq => ih (hrules p key q hp hkey hq))
      (fun key hkey => hprocedure p key hp hkey _ _ fun q hq => ih hq) fuel b'

/-- What a parser does is related, if recording respects the relations, and procedures are related
if the parsers they run are. -/
theorem run {rules : Nat → Rule κ α}
    {procedure₁ : (Parser κ α → M₁ (Value α)) → κ → M₁ (Value α)}
    {procedure₂ : (Parser κ α → M₂ (Value α)) → κ → M₂ (Value α)}
    (hrecorded : ∀ (label : String) (shape : Shape) {x : M₁ (Value α)} {y : M₂ (Value α)},
      (∀ b, Rel b x y) → ∀ b, Rel b (E₁.recorded label shape x) (E₂.recorded label shape y))
    (hprocedure : ∀ run₁ run₂, (∀ p b, Rel b (run₁ p) (run₂ p)) →
      ∀ key b, Rel b (procedure₁ run₁ key) (procedure₂ run₂ key))
    (fuel : Nat) (p : Parser κ α) (b : σ) :
    Rel b (E₁.run rules procedure₁ fuel p) (E₂.run rules procedure₂ fuel p) :=
  S.run_of (Q := fun _ => True) (fun _ _ _ _ => trivial) (fun _ _ _ _ _ _ => trivial)
    (fun p _ => hrecorded p.label p.shape)
    (fun _ key _ _ run₁ run₂ hrun => hprocedure run₁ run₂ (fun p => hrun p trivial) key)
    fuel trivial b

omit S in
/-- Relations that speak of one engine only. What a matcher does in it has the property, if what its
parts do has. -/
theorem perform_alone {M : Type → Type} [Monad M] {μ : Type} {E : Engine M μ}
    {At : σ → μ → μ → Prop} {P : σ → ∀ {β : Type}, M β → Prop}
    (S : Simulation E E At (fun b _ x _ => P b x)) {rules : Nat → Rule κ α}
    {procedure : κ → M (Value α)} {run : Parser κ α → M (Value α)} (m : Matcher κ α)
    (hparts : ∀ p ∈ m.parts, ∀ b, P b (run p))
    (hrules : ∀ key p, m = .rule key → rules key = .defined p → ∀ b, P b (run p))
    (hprocedure : ∀ key, m = .procedure key → ∀ b, P b (procedure key)) (fuel : Nat) (b : σ) :
    P b (E.perform rules procedure run fuel m) :=
  -- The second engine plays no part, so that what is done in it has to be told.
  @perform M M _ _ μ μ σ κ α E E At _ S rules procedure procedure run run m hparts hrules hprocedure
    fuel b

omit S in
/-- The same for parsers, if recording and procedures keep the property. -/
theorem run_alone {M : Type → Type} [Monad M] {μ : Type} {E : Engine M μ} {At : σ → μ → μ → Prop}
    {P : σ → ∀ {β : Type}, M β → Prop} (S : Simulation E E At (fun b _ x _ => P b x))
    {rules : Nat → Rule κ α} {procedure : (Parser κ α → M (Value α)) → κ → M (Value α)}
    (hrecorded : ∀ (label : String) (shape : Shape) {x : M (Value α)},
      (∀ b, P b x) → ∀ b, P b (E.recorded label shape x))
    (hprocedure : ∀ run, (∀ p b, P b (run p)) → ∀ key b, P b (procedure run key))
    (fuel : Nat) (p : Parser κ α) (b : σ) : P b (E.run rules procedure fuel p) :=
  -- The second engine plays no part, so that what procedures do in it has to be told.
  @run M M _ _ μ μ σ κ α E E At _ S rules procedure procedure
    (fun label shape _ _ => hrecorded label shape) (fun run _ => hprocedure run) fuel p b

omit S in
/-- The same, for the parsers that a parser can come to run. -/
theorem run_alone_of {M : Type → Type} [Monad M] {μ : Type} {E : Engine M μ}
    {At : σ → μ → μ → Prop} {P : σ → ∀ {β : Type}, M β → Prop}
    (S : Simulation E E At (fun b _ x _ => P b x)) {Q : Parser κ α → Prop}
    {rules : Nat → Rule κ α} {procedure : (Parser κ α → M (Value α)) → κ → M (Value α)}
    (hparts : ∀ p, Q p → ∀ q ∈ p.matcher.parts, Q q)
    (hrules : ∀ p key q, Q p → p.matcher = .rule key → rules key = .defined q → Q q)
    (hrecorded : ∀ p, Q p → ∀ {x : M (Value α)}, (∀ b, P b x) →
      ∀ b, P b (E.recorded p.label p.shape x))
    (hprocedure : ∀ p key, Q p → p.matcher = .procedure key → ∀ run,
      (∀ q, Q q → ∀ b, P b (run q)) → ∀ b, P b (procedure run key))
    (fuel : Nat) {p : Parser κ α} (hp : Q p) (b : σ) : P b (E.run rules procedure fuel p) :=
  @run_of M M _ _ μ μ σ κ α E E At _ S Q rules procedure procedure hparts hrules
    (fun p hp _ _ => hrecorded p hp) (fun p key hp hkey run _ => hprocedure p key hp hkey run)
    fuel p hp b

end Simulation

end Engine

end ParseTrail
