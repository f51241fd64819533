import ParseTrail.Proofs.Cursor.Forward
import ParseTrail.Proofs.Engine.Simulation
import ParseTrail.Proofs.Session.Outcome

/-!
# The course of a session

A course says how a session may lead to another while it goes on. An action follows the course if
the session before it leads to the session after it, whatever its result, or whatever but some
failures that excuse it. A course that the primitive actions follow is one that all parsers follow,
if only recording does:

- `Course.Kept.simulation`: the ways of putting actions together follow a course that is kept;
- `Course.Kept.run`: so do parsers.
-/

namespace ParseTrail

/-- How a session may lead to another. -/
structure Course where
  /-- The sessions that the course is about, from which an action may go back to an offset. -/
  ready : Nat → Session → Prop
  /-- Whether a session may lead to another. -/
  leads : Session → Session → Prop
  /-- The failures after which nothing is said. -/
  excuses : Failure → Prop

namespace Course

/-- Wherever an action starts, the session leads to the one after it, unless a failure excuses it.
-/
def Follows (C : Course) {β : Type} (b : Nat) (x : Action β) : Prop :=
  ∀ s r t, C.ready b s → outcome x s = .ok (r, t) → (∀ f, r = .error f → ¬C.excuses f) → C.leads s t

/-- A course that the primitive actions follow. -/
structure Kept (C : Course) : Prop where
  refl {b : Nat} {s : Session} : C.ready b s → C.leads s s
  trans {s t u : Session} : C.leads s t → C.leads t u → C.leads s u
  ready_of_leads {b : Nat} {s t : Session} : C.ready b s → C.leads s t → C.ready b t
  /-- An action may go back to where it began. -/
  narrow {b : Nat} {s : Session} : C.ready b s → C.ready s.cursor.position s
  /-- To commit a failure excuses no less. -/
  excuses_commit {f : Failure} : C.excuses f → C.excuses f.commit
  /-- What is absorbed excuses nothing. -/
  not_excuses {f : Failure} : f.isRecoverable = true → ¬C.excuses f
  read {b : Nat} (n : Nat) : C.Follows b (Action.read n)
  readChar {b : Nat} : C.Follows b Action.readChar
  peek {b : Nat} (n : Nat) : C.Follows b (Action.peek n)
  atEnd {b : Nat} : C.Follows b Action.atEnd
  returnTo {b : Nat} : C.Follows b (Action.returnTo b)
  reject {b : Nat} (label : String) : C.Follows b (Action.reject b label)

variable {C : Course} {β γ : Type} {b : Nat} {x : Action β}

/-- An operation on the cursor whose answer is passed on. -/
theorem follows_ofSource {request : Cursor.Request}
    {reply : request.Reply → Except SourceError β}
    (h : ∀ s d told, C.ready b s → s.cursor.perform request = .ok (told, d) →
      (∀ e, reply told = .error e → ¬C.excuses (.source e)) → C.leads s { s with cursor := d }) :
    C.Follows b (Action.ask request >>= fun told => Action.ofSource (reply told)) := by
  intro s r t hs ht hr
  rw [outcome_bind, outcome_ask] at ht
  rcases hperform : s.cursor.perform request with cause | ⟨told, d⟩
  · rw [hperform] at ht
    cases ht
  · rw [hperform] at ht
    dsimp only at ht
    rw [outcome_ofSource] at ht
    -- An error of the source becomes a failure, and that may be an excuse.
    rcases hreply : reply told with e | v
    · rw [hreply] at ht
      cases ht
      refine h s d told hs hperform fun e' he' => ?_
      rw [hreply, Except.error.injEq] at he'
      exact he' ▸ hr _ rfl
    · rw [hreply] at ht
      cases ht
      refine h s d told hs hperform fun e' he' => ?_
      rw [hreply] at he'
      cases he'

namespace Follows

theorem halt (h : Halt) : C.Follows b (throwThe Halt h : Action β) :=
  fun _ _ _ _ ht => nomatch ht

end Follows

namespace Kept

variable (K : C.Kept)

include K

theorem pure (v : β) : C.Follows b (pure v : Action β) := by
  intro s r t hs ht _
  cases ht
  exact K.refl hs

theorem throw (f : Failure) : C.Follows b (throw f : Action β) := by
  intro s r t hs ht _
  cases ht
  exact K.refl hs

theorem bind {f : β → Action γ} (hx : C.Follows b x) (hf : ∀ v, C.Follows b (f v)) :
    C.Follows b (x >>= f) := by
  intro s r u hs hu hr
  rw [outcome_bind] at hu
  split at hu
  · cases hu
  · next ht =>
    cases hu
    exact hx s _ _ hs ht fun f hf => hr f (by rw [Except.error.inj hf])
  · next v t ht =>
    have hst := hx s _ t hs ht fun f hf => nomatch hf
    exact K.trans hst (hf v t r u (K.ready_of_leads hs hst) hu hr)

theorem here {f : Nat → Action γ} (hf : ∀ b', C.Follows b' (f b')) :
    C.Follows b (Action.position >>= f) :=
  fun s r t hs ht hr => hf s.cursor.position s r t (K.narrow hs) ht hr

/-! ### Failures as values -/

theorem recover (hx : C.Follows b x) : C.Follows b (Action.recover x) := by
  intro s r t hs ht hr
  rw [outcome_recover] at ht
  split at ht
  · cases ht
  · next hu =>
    cases ht
    exact hx s _ _ hs hu fun f hf => nomatch hf
  · next f u hu =>
    split at ht
    · next hf =>
      cases ht
      exact hx s _ _ hs hu fun f' hf' => Except.error.inj hf' ▸ K.not_excuses hf
    · cases ht
      exact hx s _ _ hs hu fun f' hf' => hr f' (by rw [Except.error.inj hf'])

theorem cut (hx : C.Follows b x) : C.Follows b (Action.cut x) := by
  intro s r t hs ht hr
  rw [outcome_cut] at ht
  split at ht
  · cases ht
  · next hu =>
    cases ht
    exact hx s _ _ hs hu fun f hf => nomatch hf
  · next f u hu =>
    cases ht
    exact hx s _ _ hs hu fun f' hf' hexcused =>
      hr f.commit rfl (K.excuses_commit (Except.error.inj hf' ▸ hexcused))

/-- Going back after an action, whatever came of it. -/
theorem lookahead (hx : ∀ b, C.Follows b x) : C.Follows b (Action.lookahead x) := by
  intro s r u hs hu hr
  rw [outcome_lookahead_eq] at hu
  rcases hout : outcome x s with h | ⟨result, t⟩
  · rw [hout] at hu
    cases hu
  · rw [hout] at hu
    dsimp only at hu
    rcases hreturn : t.cursor.returnTo s.cursor.position with cause | d
    · rw [hreturn] at hu
      cases hu
    · rw [hreturn] at hu
      cases hu
      -- The result is that of the action, so that what excuses it excuses the whole.
      have hs := K.narrow hs
      have hst := hx _ s _ t hs hout hr
      have hback := outcome_returnTo t s.cursor.position
      rw [hreturn] at hback
      exact K.trans hst (K.returnTo t _ _ (K.ready_of_leads hs hst) hback fun f hf => nomatch hf)

/-! ### Parsers -/

/-- All ways of putting actions together follow a course that is kept. -/
theorem simulation :
    Engine.Simulation sessionEngine sessionEngine (fun b m n => m = b ∧ n = b)
      (fun b _ x _ => C.Follows b x) where
  pure := K.pure
  bind := K.bind
  map f h := K.bind h fun v => K.pure (f v)
  here h := K.here fun b' => h b' _ _ ⟨rfl, rfl⟩
  returnTo := by
    rintro b _ _ ⟨rfl, rfl⟩
    exact K.returnTo
  read := K.read
  readChar := K.readChar
  peek := K.peek
  atEnd := K.atEnd
  expected _ _ := K.throw _
  expectedFound _ _ _ := K.throw _
  reject := by
    rintro b _ _ β reason ⟨rfl, rfl⟩
    exact K.bind (K.reject reason) fun f => K.throw f
  outOfFuel := .halt _
  limitExceeded := .halt _
  rulePending := .halt _
  ruleDropped := .halt _
  recover := K.recover
  cut := K.cut
  lookahead := K.lookahead

/-- Matchers without procedures follow a course that is kept, if their parts do. -/
theorem perform {α : Type} (g : Grammar Empty α) {run : Parser Empty α → Action (Value α)}
    (m : Matcher Empty α) (hparts : ∀ p ∈ m.parts, ∀ b, C.Follows b (run p))
    (hrules : ∀ key p, m = .rule key → g.rules key = .defined p → ∀ b, C.Follows b (run p))
    (fuel : Nat) (b : Nat) : C.Follows b (m.perform g run fuel) := by
  rw [← perform_sessionEngine]
  exact K.simulation.perform_alone m hparts hrules (fun key => key.elim) fuel b

/-- So do the parsers that a parser can come to run, if recording them does. -/
theorem run_of {α : Type} (g : Grammar Empty α) {Q : Parser Empty α → Prop}
    (hparts : ∀ p, Q p → ∀ q ∈ p.matcher.parts, Q q)
    (hrules : ∀ p key q, Q p → p.matcher = .rule key → g.rules key = .defined q → Q q)
    (hrecorded : ∀ p, Q p → ∀ {x : Action (Value α)}, (∀ b, C.Follows b x) →
      ∀ b, C.Follows b (Action.recorded p.label p.shape x))
    (fuel : Nat) {p : Parser Empty α} (hp : Q p) (b : Nat) : C.Follows b (p.run g fuel) := by
  rw [← run_sessionEngine]
  exact K.simulation.run_alone_of hparts hrules hrecorded (fun _ key => key.elim) fuel hp b

/-- All parsers without procedures follow a course that is kept, if recording does. -/
theorem run {α : Type} (g : Grammar Empty α)
    (hrecorded : ∀ (label : String) (shape : Shape) {x : Action (Value α)},
      (∀ b, C.Follows b x) → ∀ b, C.Follows b (Action.recorded label shape x))
    (fuel : Nat) (p : Parser Empty α) (b : Nat) : C.Follows b (p.run g fuel) :=
  K.run_of g (Q := fun _ => True) (fun _ _ _ _ => trivial) (fun _ _ _ _ _ _ => trivial)
    (fun p _ => hrecorded p.label p.shape) fuel trivial b

end Kept

end Course

end ParseTrail
