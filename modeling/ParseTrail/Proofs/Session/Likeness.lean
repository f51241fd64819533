import ParseTrail.Proofs.Engine.Simulation
import ParseTrail.Proofs.Outcome

/-!
# Likeness of sessions

Parsers run in two sessions at a time. A likeness of sessions respects parsing if it respects the
few primitive actions: reading, returning to the mark of a base, and the bookkeeping of attempts.
Then it respects everything that parsers do:

- `Likeness.Respects.run`: running a parser is alike, if its procedures are.
-/

namespace ParseTrail

namespace Likeness

variable {σ β : Type}

/-- A likeness of sessions that the primitive actions respect. `mark b` is the offset of the base
`b` in both sessions. -/
structure Respects (L : Likeness σ Session Session Failure Failure) (mark : σ → Nat) : Prop where
  failures : L.failures = Eq
  /-- Corresponding sessions stand at the same offset, and from there on they have a base of their
  own. -/
  narrow {b : σ} {s t : Session} : L.states b s t →
    ∃ b', L.states b' s t ∧ (∀ s' t', L.states b' s' t' → L.states b s' t') ∧
      mark b' = s.cursor.position ∧ mark b' = t.cursor.position
  read {b : σ} (n : Nat) : L.Alike b Eq (Action.read n) (Action.read n)
  readChar {b : σ} : L.Alike b Eq Action.readChar Action.readChar
  peek {b : σ} (n : Nat) : L.Alike b Eq (Action.peek n) (Action.peek n)
  atEnd {b : σ} : L.Alike b Eq Action.atEnd Action.atEnd
  returnTo {b : σ} : L.Alike b Eq (Action.returnTo (mark b)) (Action.returnTo (mark b))
  reject {b : σ} (label : String) :
    L.Alike b Eq (Action.reject (mark b) label) (Action.reject (mark b) label)
  enter {b : σ} (label : String) (shape : Shape) :
    L.Alike b Eq (Action.enter label shape) (Action.enter label shape)
  leave {b : σ} (id stop : Nat) (failed : Bool) (shape : Shape) :
    L.Alike b Eq (Action.leave id stop failed shape) (Action.leave id stop failed shape)
  outOfFuel : L.halts .outOfFuel
  limitExceeded : L.halts (.fault .limitExceeded)
  rulePending : L.halts (.fault .rulePending)
  ruleDropped : L.halts (.fault .ruleDropped)

namespace Respects

variable {L : Likeness σ Session Session Failure Failure} {mark : σ → Nat} (R : L.Respects mark)
  {b : σ} {x y : Action β}

include R

/-! ### Places -/

/-- The cursors of the two sessions stand at one offset. -/
theorem position : L.Alike b Eq Action.position Action.position := by
  intro s t hst
  obtain ⟨b', -, -, hs, ht⟩ := R.narrow hst
  have hpos : s.cursor.position = t.cursor.position := hs.symm.trans ht
  exact .done (.ok hpos) hst

/-- What starts by asking for the offset may count on a base there. -/
theorem here {γ : Type} {V : β → γ → Prop} {f : Nat → Action β} {k : Nat → Action γ}
    (hfk : ∀ b', L.Alike b' V (f (mark b')) (k (mark b'))) :
    L.Alike b V (Action.position >>= f) (Action.position >>= k) := by
  intro s t hst
  -- From here on the base is the place that was asked for, which narrows what corresponds.
  obtain ⟨b', hst', hback, hs, ht⟩ := R.narrow hst
  have hagree := hfk b' s t hst'
  rw [hs] at hagree
  rw [← hs, ht] at hagree
  change Agree L.halts (Results L.failures V) (L.states b) (outcome (f s.cursor.position) s)
    (outcome (k t.cursor.position) t)
  rw [← hs, ← ht]
  exact (hfk b' s t hst').mono (fun _ _ h => h) hback

/-! ### Failing and absorbing failures -/

/-- Failures are the same on both sides. -/
theorem throw (f : Failure) : L.Alike b Eq (throw f : Action β) (throw f) :=
  Alike.throw (by rw [R.failures])

/-- They may be taken for values. -/
theorem attempt (hxy : L.Alike b Eq x y) :
    L.Alike b Eq (Action.attempt x) (Action.attempt y) := by
  intro s t hst
  refine (hxy.attempt s t hst).mono ?_ fun _ _ h => h
  -- A failure that became a value corresponds to itself.
  rintro _ _ (hr | hf)
  · refine .ok ?_
    rcases hr with hv | hf
    · rw [hv]
    · rw [R.failures] at hf
      rw [hf]
  · exact .error hf

/-- And they may be taken back. -/
theorem ofAttempt (r : Except Failure β) :
    L.Alike b Eq (Action.ofAttempt r) (Action.ofAttempt r) := by
  rcases r with f | v
  · exact R.throw f
  · exact Alike.pure rfl

/-- So they may be absorbed. -/
theorem recover (hxy : L.Alike b Eq x y) :
    L.Alike b Eq (Action.recover x) (Action.recover y) := by
  refine (R.attempt hxy).bindEq fun r => ?_
  rcases r with f | v
  · by_cases h : f.isRecoverable
    · simp only [if_pos h]
      exact Alike.pure rfl
    · simp only [if_neg h]
      exact R.throw f
  · exact Alike.pure rfl

/-- So they may be committed. -/
theorem cut (hxy : L.Alike b Eq x y) : L.Alike b Eq (Action.cut x) (Action.cut y) := by
  refine (R.attempt hxy).bindEq fun r => ?_
  rcases r with f | v
  · exact R.throw f.commit
  · exact Alike.pure rfl

/-- Both sides go back to where they were. -/
theorem lookahead (hxy : ∀ b, L.Alike b Eq x y) :
    L.Alike b Eq (Action.lookahead x) (Action.lookahead y) :=
  R.here fun b' => (R.attempt (hxy b')).bindEq fun r => R.returnTo.bindEq fun _ => R.ofAttempt r

/-- Both sides record an attempt in the same place. -/
theorem recorded (label : String) (shape : Shape) (hxy : ∀ b, L.Alike b Eq x y) :
    L.Alike b Eq (Action.recorded label shape x) (Action.recorded label shape y) := by
  -- The base moves to where the attempt starts, as this is where it may have to go back to.
  refine R.here fun b' => (R.enter label shape).bindEq fun id => ?_
  refine (R.attempt (hxy b')).bindEq fun r => R.position.bindEq fun stop => ?_
  rcases r with f | v
  · exact R.returnTo.bindEq fun _ => (R.leave id stop true shape).bindEq fun _ => R.throw f
  · exact (R.leave id stop false shape).bindEq fun _ => Alike.pure rfl

/-! ### Parsers -/

/-- A likeness that respects parsing is a simulation of the engine of sessions by itself. -/
theorem simulation :
    Engine.Simulation sessionEngine sessionEngine (fun b m n => m = mark b ∧ n = mark b)
      (fun b _ x y => L.Alike b Eq x y) where
  pure _ := Alike.pure rfl
  bind := Alike.bindEq
  map f h := h.map fun _ _ hvw => hvw ▸ rfl
  here h := R.here fun b' => h b' _ _ ⟨rfl, rfl⟩
  returnTo := by
    rintro b _ _ ⟨rfl, rfl⟩
    exact R.returnTo
  read := R.read
  readChar := R.readChar
  peek := R.peek
  atEnd := R.atEnd
  expected := by
    rintro b _ _ β label ⟨rfl, rfl⟩
    exact R.throw _
  expectedFound := by
    rintro b _ _ β label found ⟨rfl, rfl⟩
    exact R.throw _
  reject := by
    rintro b _ _ β reason ⟨rfl, rfl⟩
    exact (R.reject reason).bindEq fun f => R.throw f
  outOfFuel := Alike.halt R.outOfFuel
  limitExceeded := Alike.halt R.limitExceeded
  rulePending := Alike.halt R.rulePending
  ruleDropped := Alike.halt R.ruleDropped
  recover := R.recover
  cut := R.cut
  lookahead := R.lookahead

/-- Running a parser is alike in corresponding sessions, if procedures are for every way of running
parsers that is. -/
theorem run {κ α : Type} (g : Grammar κ α)
    (hprocedures : ∀ run : Parser κ α → Action (Value α), (∀ p b, L.Alike b Eq (run p) (run p)) →
      ∀ key b, L.Alike b Eq ((g.procedures key).perform g run) ((g.procedures key).perform g run))
    (fuel : Nat) (p : Parser κ α) (b : σ) : L.Alike b Eq (p.run g fuel) (p.run g fuel) := by
  induction fuel generalizing p b with
  | zero => exact Alike.halt R.outOfFuel
  | succ fuel ih =>
    refine R.recorded p.label p.shape fun b' => ?_
    -- The ways of matching are handled once for all engines.
    rw [← perform_sessionEngine]
    exact R.simulation.perform p.matcher (fun q _ => ih q) (fun _ q _ _ => ih q)
      (fun key _ => hprocedures _ ih key) fuel b'

end Respects

end Likeness

end ParseTrail
