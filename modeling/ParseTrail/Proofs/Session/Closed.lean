import ParseTrail.Proofs.Engine.Simulation

/-!
# Closed predicates on actions

What parsers do is put together from a few primitive actions, in sequence and by taking failures for
values; only opening an attempt is more than that. A predicate on actions that is closed under this
holds of all that parsers do as long as it holds of their attempts:

- `Action.Closed`: such a predicate;
- `Action.Closed.simulation`: it holds of all ways of matching, attempts apart.
-/

namespace ParseTrail.Action

/-- The predicate holds of the primitive actions, and of those that are put together from actions of
which it holds. -/
structure Closed (P : ∀ {β : Type}, Action β → Prop) : Prop where
  pure {β : Type} (v : β) : P (pure v : Action β)
  throw {β : Type} (f : Failure) : P (throw f : Action β)
  halt {β : Type} (h : Halt) : P (throwThe Halt h : Action β)
  position : P position
  ofReading {β : Type} (x : Reading β) : P (ofReading x)
  reject (offset : Nat) (label : String) : P (reject offset label)
  bind {β γ : Type} {x : Action β} {f : β → Action γ} : P x → (∀ v, P (f v)) → P (x >>= f)
  attempt {β : Type} {x : Action β} : P x → P (attempt x)

namespace Closed

variable {P : ∀ {β : Type}, Action β → Prop} (C : Closed P) {β : Type} {x : Action β}

include C

/-- Answers of the source are values or failures. -/
theorem ofSource (r : Except SourceError β) : P (ofSource r) := by
  rcases r with e | v
  · exact C.throw (.source e)
  · exact C.pure v

/-- An operation on the cursor whose answer is passed on is made of the two. -/
theorem ask {request : Cursor.Request} {reply : request.Reply → Except SourceError β} :
    P (ask request >>= fun told => Action.ofSource (reply told)) :=
  C.bind (C.ofReading _) fun told => C.ofSource (reply told)

theorem ofAttempt (r : Except Failure β) : P (ofAttempt r) := by
  rcases r with f | v
  · exact C.throw f
  · exact C.pure v

/-- To absorb a failure is to take it for a value first. -/
theorem recover (hx : P x) : P (recover x) := by
  refine C.bind (C.attempt hx) fun r => ?_
  rcases r with f | v
  · dsimp only
    split
    · exact C.pure none
    · exact C.throw f
  · exact C.pure (some v)

/-- To commit one is, too. -/
theorem cut (hx : P x) : P (cut x) := by
  refine C.bind (C.attempt hx) fun r => ?_
  rcases r with f | v
  · exact C.throw f.commit
  · exact C.pure v

/-- A look ahead goes back by the cursor alone. -/
theorem lookahead (hx : P x) : P (lookahead x) :=
  C.bind C.position fun _ => C.bind (C.attempt hx) fun r =>
    C.bind (C.ofReading _) fun _ => C.ofAttempt r

/-- So does a speculation, between the two ends of its scope. -/
theorem speculate (accept : β → Bool) (hx : P x) : P (speculate accept x) := by
  refine C.bind C.position fun start => C.bind (C.ofReading _) fun _ => ?_
  refine C.bind (C.attempt hx) fun r => C.bind (C.ofReading _) fun _ => ?_
  -- The cursor goes back unless there is a value and it is accepted.
  rcases r with f | v
  · exact C.bind (C.ofReading _) fun _ => C.pure (Except.error f)
  · dsimp only
    split
    · exact C.bind (C.ofReading _) fun _ => C.pure (Except.ok v)
    · exact C.pure (Except.ok v)

/-- Alternatives are made of attempts and sequences, by induction on those left. -/
theorem firstOf (label : String) {xs : List (Action β)} (hxs : ∀ x ∈ xs, P x) :
    P (firstOf label xs) := by
  induction xs with
  | nil => exact C.bind C.position fun offset => C.throw (.expected { offset, label })
  | cons x xs ih =>
    refine C.bind (C.recover (hxs x List.mem_cons_self)) fun found => ?_
    rcases found with _ | v
    · exact ih fun x hx => hxs x (List.mem_cons_of_mem _ hx)
    · exact C.pure v

/-- All ways of putting actions together keep to the predicate. -/
theorem simulation :
    Engine.Simulation sessionEngine sessionEngine (fun (_ : Unit) m n => m = n)
      (fun _ _ x _ => P x) where
  pure := C.pure
  bind := C.bind
  map f h := C.bind h fun v => C.pure (f v)
  here h := C.bind C.position fun n => h () n n rfl
  returnTo _ := C.ofReading _
  read _ := C.ask
  readChar := C.ask
  peek _ := C.ask
  atEnd := C.ask
  expected _ _ := C.throw _
  expectedFound _ _ _ := C.throw _
  reject reason _ := C.bind (C.reject _ reason) fun f => C.throw f
  outOfFuel := C.halt _
  limitExceeded := C.halt _
  rulePending := C.halt _
  ruleDropped := C.halt _
  recover := C.recover
  cut := C.cut
  lookahead h := C.lookahead (h ())

end Closed

end ParseTrail.Action
