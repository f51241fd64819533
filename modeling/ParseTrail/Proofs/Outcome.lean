import ParseTrail.Action.Combinators

/-!
# Outcomes and their agreement

What a computation on a state gives, as a plain value: a halt, or a result beside the state after
it. Outcomes of two computations agree if both halt alike, or if their results and the states after
them correspond. A `Likeness` fixes what corresponds, and `Likeness.Alike` is agreement wherever the
computations start in corresponding states. The ways of putting computations together respect it:

- `Alike.bind`, `Alike.map`: sequences of alike computations are alike;
- `Alike.attempt`: so are computations whose failures become values.

A fact about one computation is the case where it is compared with itself.
-/

namespace ParseTrail

variable {F F₁ F₂ S S₁ S₂ σ β β' γ γ' : Type}

/-- A computation on a state that may fail or halt. -/
abbrev Computation (F S β : Type) := ExceptT F (StateT S (Except Halt)) β

/-! ### Outcomes -/

/-- What a computation gives in a state. -/
def outcome (x : Computation F S β) (s : S) : Except Halt (Except F β × S) :=
  x.run.run s

/-- A value comes out, and the state is as it was. -/
@[simp]
theorem outcome_pure (v : β) (s : S) :
    outcome (pure v : Computation F S β) s = .ok (.ok v, s) := rfl

/-- So it is with a failure. -/
@[simp]
theorem outcome_throw (f : F) (s : S) :
    outcome (throw f : Computation F S β) s = .ok (.error f, s) := rfl

/-- What comes next is done in the state after the value, if there is one. -/
theorem outcome_bind (x : Computation F S β) (k : β → Computation F S γ) (s : S) :
    outcome (x >>= k) s =
      match outcome x s with
      | .error h => .error h
      | .ok (.error f, t) => .ok (.error f, t)
      | .ok (.ok v, t) => outcome (k v) t := by
  change (do let (r, t) ← x.run.run s; _ : Except Halt (Except F γ × S)) = _
  unfold outcome
  rcases x.run.run s with h | ⟨f | v, t⟩ <;> rfl

/-- To map a value does not change the state. -/
theorem outcome_map (g : β → γ) (x : Computation F S β) (s : S) :
    outcome (g <$> x) s =
      match outcome x s with
      | .error h => .error h
      | .ok (.error f, t) => .ok (.error f, t)
      | .ok (.ok v, t) => .ok (.ok (g v), t) := by
  change (do let (r, t) ← x.run.run s; _ : Except Halt (Except F γ × S)) = _
  unfold outcome
  rcases x.run.run s with h | ⟨f | v, t⟩ <;> rfl

/-- What fails in a sequence is its first part, or what comes after it. -/
theorem outcome_bind_eq_error {x : Computation F S β} {k : β → Computation F S γ} {s u : S} {f : F}
    (h : outcome (x >>= k) s = .ok (.error f, u)) :
    outcome x s = .ok (.error f, u) ∨
      ∃ v t, outcome x s = .ok (.ok v, t) ∧ outcome (k v) t = .ok (.error f, u) := by
  rw [outcome_bind] at h
  rcases hx : outcome x s with halt | ⟨f' | v, t⟩
  · rw [hx] at h
    cases h
  · rw [hx] at h
    cases h
    exact .inl rfl
  · rw [hx] at h
    exact .inr ⟨v, t, rfl, h⟩

/-- To convert a value cannot fail. -/
theorem outcome_map_eq_error {g : β → γ} {x : Computation F S β} {s t : S} {f : F}
    (h : outcome (g <$> x) s = .ok (.error f, t)) : outcome x s = .ok (.error f, t) := by
  rw [outcome_map] at h
  rcases hx : outcome x s with halt | ⟨f' | v, t'⟩
  · rw [hx] at h
    cases h
  · rw [hx] at h
    cases h
    rfl
  · rw [hx] at h
    cases h

/-- The failure of a computation as a value. -/
theorem outcome_lift_run (x : Computation F S β) (s : S) :
    outcome (ExceptT.lift x.run : Computation F S (Except F β)) s =
      match outcome x s with
      | .error h => .error h
      | .ok (r, t) => .ok (.ok r, t) := by
  change (do let (r, t) ← x.run.run s; _ : Except Halt (Except F (Except F β) × S)) = _
  unfold outcome
  rcases x.run.run s with h | ⟨r, t⟩ <;> rfl

/-! ### Tests -/

/-- Whether something ends well, and what it ends with passes a test. -/
def passes {ε : Type} (test : β → Bool) : Except ε β → Bool
  | .ok v => test v
  | .error _ => false

/-- What passes a test has ended well. -/
theorem exists_of_passes {ε : Type} {test : β → Bool} {r : Except ε β}
    (h : passes test r = true) : ∃ v, r = .ok v ∧ test v = true := by
  rcases r with e | v
  · cases h
  · exact ⟨v, rfl, h⟩

/-! ### Agreement -/

/-- Two results correspond: both are values, or both failures. -/
inductive Results (failures : F₁ → F₂ → Prop) (V : β → γ → Prop) :
    Except F₁ β → Except F₂ γ → Prop
  | ok {v : β} {w : γ} : V v w → Results failures V (.ok v) (.ok w)
  | error {f : F₁} {g : F₂} : failures f g → Results failures V (.error f) (.error g)

/-- Two outcomes agree: both halt, for one cause that satisfies `H`, or their results are related
by `V` and the states after them by `I`. -/
inductive Agree (H : Halt → Prop) (V : β → γ → Prop) (I : S₁ → S₂ → Prop) :
    Except Halt (β × S₁) → Except Halt (γ × S₂) → Prop
  | halt {h : Halt} : H h → Agree H V I (.error h) (.error h)
  | done {v : β} {w : γ} {s : S₁} {t : S₂} : V v w → I s t → Agree H V I (.ok (v, s)) (.ok (w, t))

namespace Agree

variable {H : Halt → Prop} {V V' : β → γ → Prop} {I I' : S₁ → S₂ → Prop}
  {o : Except Halt (β × S₁)} {p : Except Halt (γ × S₂)}

/-- Outcomes that agree in a strict sense agree in a weaker one. -/
theorem mono (h : Agree H V I o p) (hV : ∀ v w, V v w → V' v w) (hI : ∀ s t, I s t → I' s t) :
    Agree H V' I' o p := by
  cases h with
  | halt hh => exact .halt hh
  | done hv hs => exact .done (hV _ _ hv) (hI _ _ hs)

end Agree

/-! ### Likeness -/

/-- How computations of two worlds are compared, from a base in both of them on. -/
structure Likeness (σ S₁ S₂ F₁ F₂ : Type) where
  /-- Which states correspond, from a base on. -/
  states : σ → S₁ → S₂ → Prop
  /-- Which failures correspond. -/
  failures : F₁ → F₂ → Prop
  /-- Which halts may happen. -/
  halts : Halt → Prop

namespace Likeness

variable (L : Likeness σ S₁ S₂ F₁ F₂)

/-- Wherever two computations start in corresponding states, their outcomes agree. -/
def Alike (b : σ) (V : β → γ → Prop) (x : Computation F₁ S₁ β) (y : Computation F₂ S₂ γ) : Prop :=
  ∀ s t, L.states b s t →
    Agree L.halts (Results L.failures V) (L.states b) (outcome x s) (outcome y t)

variable {L} {b : σ} {V : β → γ → Prop} {W : β' → γ' → Prop}

/-- Values that correspond are alike. -/
theorem Alike.pure {v : β} {w : γ} (h : V v w) :
    L.Alike b V (pure v : Computation F₁ S₁ β) (pure w : Computation F₂ S₂ γ) :=
  fun _ _ hst => .done (.ok h) hst

/-- So are failures that correspond. -/
theorem Alike.throw {f : F₁} {g : F₂} (h : L.failures f g) :
    L.Alike b V (throw f : Computation F₁ S₁ β) (throw g : Computation F₂ S₂ γ) :=
  fun _ _ hst => .done (.error h) hst

/-- So are halts that may happen. -/
theorem Alike.halt {h : Halt} (hh : L.halts h) :
    L.Alike b V (throwThe Halt h : Computation F₁ S₁ β) (throwThe Halt h : Computation F₂ S₂ γ) :=
  fun _ _ _ => .halt hh

variable {x : Computation F₁ S₁ β} {y : Computation F₂ S₂ γ}

/-- Sequences are alike if their parts are, for values that correspond. -/
theorem Alike.bind {f : β → Computation F₁ S₁ β'} {k : γ → Computation F₂ S₂ γ'}
    (hxy : L.Alike b V x y) (hfk : ∀ v w, V v w → L.Alike b W (f v) (k w)) :
    L.Alike b W (x >>= f) (y >>= k) := by
  intro s t hst
  have hagree := hxy s t hst
  rw [outcome_bind, outcome_bind]
  generalize outcome x s = o, outcome y t = p at hagree ⊢
  -- A halt and a failure end the whole, a value goes on to the next computation.
  rcases hagree with hh | ⟨hv | hf, hst'⟩
  · exact .halt hh
  · exact hfk _ _ hv _ _ hst'
  · exact .done (.error hf) hst'

/-- Values may be mapped to others that correspond. -/
theorem Alike.map {f : β → β'} {k : γ → γ'} (hxy : L.Alike b V x y)
    (hfk : ∀ v w, V v w → W (f v) (k w)) : L.Alike b W (f <$> x) (k <$> y) := by
  intro s t hst
  have hagree := hxy s t hst
  rw [outcome_map, outcome_map]
  generalize outcome x s = o, outcome y t = p at hagree ⊢
  rcases hagree with hh | ⟨hv | hf, hst'⟩
  · exact .halt hh
  · exact .done (.ok (hfk _ _ hv)) hst'
  · exact .done (.error hf) hst'

/-- Failures may be taken for values on both sides. -/
theorem Alike.attempt (hxy : L.Alike b V x y) :
    L.Alike b (Results L.failures V) (ExceptT.lift x.run : Computation F₁ S₁ (Except F₁ β))
      (ExceptT.lift y.run : Computation F₂ S₂ (Except F₂ γ)) := by
  intro s t hst
  have hagree := hxy s t hst
  rw [outcome_lift_run, outcome_lift_run]
  generalize outcome x s = o, outcome y t = p at hagree ⊢
  rcases hagree with hh | ⟨hr, hst'⟩
  · exact .halt hh
  · exact .done (.ok hr) hst'

/-- A sequence after the same value on both sides. -/
theorem Alike.bindEq {x : Computation F₁ S₁ β} {y : Computation F₂ S₂ β}
    {f : β → Computation F₁ S₁ β'} {k : β → Computation F₂ S₂ γ'}
    (hxy : L.Alike b Eq x y) (hfk : ∀ v, L.Alike b W (f v) (k v)) :
    L.Alike b W (x >>= f) (y >>= k) :=
  hxy.bind fun _ _ hvw => hvw ▸ hfk _

/-- What one side does alone changes nothing if the states still correspond after it. -/
theorem Alike.after {x : Computation F₁ S₁ β} {f : β → Computation F₁ S₁ β'}
    {y : Computation F₂ S₂ γ} {V : β' → γ → Prop}
    (hx : ∀ s t, L.states b s t → ∃ v s', outcome x s = .ok (.ok v, s') ∧ L.states b s' t)
    (hf : ∀ v, L.Alike b V (f v) y) : L.Alike b V (x >>= f) y := by
  intro s t hst
  obtain ⟨v, s', hv, hst'⟩ := hx s t hst
  rw [outcome_bind, hv]
  exact hf v s' t hst'

end Likeness

end ParseTrail
