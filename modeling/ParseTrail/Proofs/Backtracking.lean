import ParseTrail.Parser.Catalog
import ParseTrail.Proofs.Cursor.Forward
import ParseTrail.Proofs.Session.Steady

/-!
# Going back

A run of a parser that fails leaves the cursor where it found it, and an invocation that fails does
the same to whoever made it. Both rest on the text being kept while they last. To say this of every
run inside an invocation, however deeply nested, `Parser.watchedRun` checks each of them as it ends:
it halts if the origin or the scopes of the cursor have changed, or if the run failed elsewhere than
it began.

- `outcome_watchedRun`: the checks change nothing, so all of them pass;
- `invocations_go_back`: invocations keep the origin up to their own release and the scopes, leave
  the cursor where it was if they fail, and never miss the place to return to.
-/

namespace ParseTrail

/-- Whether a computation with the cursor owes nothing to those around it: it never misses a place
to return to, it closes the scopes it opens, and it leaves the cursor where it was if it fails. -/
structure Reading.GoesBack {ε β : Type} (x : Reading (Except ε β)) (c : Cursor) : Prop where
  returns : ∀ h, x.run c = .error h → ¬h.IsReturn
  scopes : ∀ r d, x.run c = .ok (r, d) → d.scopes = c.scopes
  inBounds : ∀ r d, x.run c = .ok (r, d) → d.InBounds
  position : ∀ e d, x.run c = .ok (.error e, d) → d.position = c.position

variable {β κ α : Type} {g : Grammar κ α}

/-! ### Watched runs -/

/-- Runs an action and checks that it has kept the origin and the scopes of the cursor, and that the
cursor stands where it began if the action failed. -/
def Action.watched (x : Action β) : Action β := do
  let before ← get
  let result ← attempt x
  let after ← get
  let moved : Bool := match result with
    | .ok _ => false
    | .error _ => after.cursor.position != before.cursor.position
  if after.cursor.origin ≠ before.cursor.origin ∨ after.cursor.scopes ≠ before.cursor.scopes
      ∨ moved then
    fault (.returnOutside before.cursor.position after.cursor.origin after.cursor.buffered)
  ofAttempt result

/-- Runs a parser as `Parser.run` does, and checks every run of a parser on the way. -/
def Parser.watchedRun (g : Grammar κ α) : Nat → Parser κ α → Action (Value α)
  | 0, _ => Action.outOfFuel
  | fuel + 1, p =>
    Action.watched
      (Action.recorded p.label p.shape
        (p.matcher.perform g (Parser.watchedRun g fuel) fuel))

/-- A check that passes changes nothing. -/
theorem outcome_watched {x : Action β} {s : Session}
    (h : ∀ r t, outcome x s = .ok (r, t) → s.cursor.Extends t.cursor ∧
      ∀ f, r = .error f → t.cursor.position = s.cursor.position) :
    outcome (Action.watched x) s = outcome x s := by
  -- The two checks read the session only, so they pass or halt and change nothing.
  rw [Action.watched, outcome_get_bind, outcome_bind, Action.attempt, outcome_lift_run]
  rcases hx : outcome x s with hh | ⟨r, t⟩
  · rfl
  · obtain ⟨hext, hposition⟩ := h r t hx
    dsimp only
    rw [outcome_get_bind]
    rcases r with f | v
    · -- After a failure there are three checks, after a value two.
      have hback := hposition f rfl
      simp [hext.origin, hext.scopes, hback]
      rfl
    · simp [hext.origin, hext.scopes]
      rfl

/-- What is like another action is like itself. -/
theorem alike_self {x y : Action β} {b : BacktrackPoint} (hxy : steady.Alike b Eq x y) :
    steady.Alike b Eq x x := by
  rintro s _ ⟨rfl, hs⟩
  have hagree := hxy s _ ⟨rfl, hs⟩
  generalize outcome x s = o, outcome y s = p at hagree ⊢
  rcases hagree with hh | ⟨hv | hf, rfl, hext⟩
  · exact .halt hh
  · exact .done (.ok rfl) ⟨rfl, hext⟩
  · exact .done (.error rfl) ⟨rfl, hext⟩

/-- Watching the runs of all parsers changes no outcome. -/
theorem alike_watchedRun (hg : ∀ key, (g.procedures key).RaisesNoReturn) (fuel : Nat)
    (p : Parser κ α) (b : BacktrackPoint) :
    steady.Alike b Eq (p.watchedRun g fuel) (p.run g fuel) := by
  -- By induction on fuel. What is watched one level down is like what runs there, and so the checks
  -- at this level pass.
  induction fuel generalizing p b with
  | zero => exact Likeness.Alike.halt respects_steady.outOfFuel
  | succ fuel ih =>
    have hmatcher (b : BacktrackPoint) :
        steady.Alike b Eq (p.matcher.perform g (Parser.watchedRun g fuel) fuel)
          (p.matcher.perform g (Parser.run g fuel) fuel) := by
      rw [← perform_sessionEngine, ← perform_sessionEngine]
      exact respects_steady.simulation.perform p.matcher (fun q _ => ih q) (fun _ q _ _ => ih q)
        (fun key _ b => alike_perform (g.procedures key) (hg key) ih b) fuel b
    have hself (b : BacktrackPoint) := alike_self (hmatcher b)
    rintro s _ ⟨rfl, hs⟩
    have hrecorded := respects_steady.recorded (b := b) p.label p.shape hmatcher s _ ⟨rfl, hs⟩
    have hwatched := outcome_watched (x := Action.recorded p.label p.shape
      (p.matcher.perform g (Parser.watchedRun g fuel) fuel)) (s := s) fun r t hrt => by
        refine ⟨?_, fun f hf => position_of_recorded (hf ▸ hrt)⟩
        -- The base is the session itself here, so that its own cursor is what has been kept.
        have hhere := respects_steady.recorded (b := .after hs) p.label p.shape hself s _
          ⟨rfl, .refl hs.inBounds⟩
        rw [hrt] at hhere
        rcases hhere with _ | ⟨-, -, hext⟩
        exact hext
    rw [Parser.watchedRun, Parser.run, hwatched]
    exact hrecorded

theorem outcome_watchedRun (hg : ∀ key, (g.procedures key).RaisesNoReturn) (fuel : Nat)
    (p : Parser κ α) (s : Session) (hs : s.cursor.InBounds) (hscope : 0 < s.cursor.scopes) :
    outcome (p.watchedRun g fuel) s = outcome (p.run g fuel) s := by
  have hagree := alike_watchedRun hg fuel p ⟨s.cursor, hs, hscope⟩ s _ ⟨rfl, .refl hs⟩
  generalize outcome (p.watchedRun g fuel) s = o, outcome (p.run g fuel) s = o' at hagree ⊢
  rcases hagree with hh | ⟨hv | hf, rfl, -⟩
  · rfl
  · rw [hv]
  · exact congrArg (fun f => Except.ok (Except.error f, _)) hf

/-! ### Invocations -/

/-- Running a parser keeps what a cursor keeps, since its watched run does. -/
theorem alike_run (hg : ∀ key, (g.procedures key).RaisesNoReturn) (fuel : Nat) (p : Parser κ α)
    (b : BacktrackPoint) : steady.Alike b Eq (p.run g fuel) (p.run g fuel) :=
  respects_steady.run g
    (fun _ hrun key b => alike_perform (g.procedures key) (hg key) hrun b) fuel p b

variable {c : Cursor}

theorem Reading.GoesBack.of_halt {ε : Type} {x : Reading (Except ε β)} {h : Halt}
    (hx : x.run c = .error h) (hh : ¬h.IsReturn) : x.GoesBack c where
  returns := by
    intro h' hh'
    rw [hx] at hh'
    cases hh'
    exact hh
  scopes := by
    intro r d hd
    rw [hx] at hd
    cases hd
  inBounds := by
    intro r d hd
    rw [hx] at hd
    cases hd
  position := by
    intro e d hd
    rw [hx] at hd
    cases hd

theorem Reading.GoesBack.of_done {ε : Type} {x : Reading (Except ε β)} {r : Except ε β}
    {d : Cursor} (hx : x.run c = .ok (r, d)) (hscopes : d.scopes = c.scopes) (hd : d.InBounds)
    (hposition : ∀ e, r = .error e → d.position = c.position) : x.GoesBack c where
  returns := by
    intro h hh
    rw [hx] at hh
    cases hh
  scopes := by
    intro r' d' hd'
    rw [hx] at hd'
    cases hd'
    exact hscopes
  inBounds := by
    intro r' d' hd'
    rw [hx] at hd'
    cases hd'
    exact hd
  position := by
    intro e d' hd'
    rw [hx] at hd'
    cases hd'
    exact hposition e rfl

theorem goesBack_parse (config : Config) {x : Action β} (hx : ∀ b, steady.Alike b Eq x x)
    (hc : c.InBounds) : (Reading.parse config x).GoesBack c := by
  have hagree := agree_invoke config hx hc
  have hindex (err : ParseError) (d : Cursor) (h : Reading.invoke config x c = .ok (.error err, d)) :
      d.index = c.index := invoke_index hx hc h
  have hrun : (Reading.parse config x).run c = _ := parse_eq config x c
  generalize Reading.invoke config x c = o at hagree hindex hrun
  rcases hagree with hh | ⟨-, -, hext⟩
  · exact .of_halt hrun hh
  · refine .of_done hrun ?_ hext.inBounds.release fun e he => ?_
    · -- The release drops text before the cursor and moves nothing.
      rw [Cursor.release_scopes, hext.scopes]
    · subst he
      rw [Cursor.release_position, Cursor.position, hext.origin, hindex _ _ rfl, Cursor.position]

theorem goesBack_parseAhead {x : Action β} (hx : ∀ b, steady.Alike b Eq x x) (hc : c.InBounds) :
    (Reading.parseAhead x).GoesBack c ∧
      ∀ r d, (Reading.parseAhead x).run c = .ok (r, d) → d.position = c.position := by
  have hagree := agree_parseAhead hx hc
  generalize hrun : (Reading.parseAhead x).run c = o
  change Agree _ _ _ ((Reading.parseAhead x).run c) ((Reading.parseAhead x).run c) at hagree
  rw [hrun] at hagree
  rcases hagree with hh | ⟨-, -, hext, hindex⟩
  · exact ⟨.of_halt hrun hh, by rintro r d ⟨⟩⟩
  · next r d =>
    have hposition : d.position = c.position := by
      rw [Cursor.position, hext.origin, hindex, Cursor.position]
    refine ⟨.of_done hrun hext.scopes hext.inBounds fun _ _ => hposition, ?_⟩
    rintro _ _ ⟨⟩
    exact hposition

theorem matchesAt_run (g : Grammar κ α) (fuel : Nat) (p : Parser κ α) (c : Cursor) :
    (p.matchesAt g fuel).run c =
      match (p.parseAhead g fuel).run c with
      | .error h => .error h
      | .ok (.ok _, d) => .ok (.ok true, d)
      | .ok (.error (.failed _), d) => .ok (.ok false, d)
      | .ok (.error e, d) => .ok (.error e, d) := by
  change (do let (r, d) ← (p.parseAhead g fuel).run c; _ : Except Halt (Except ParseError Bool × _)) = _
  rcases (p.parseAhead g fuel).run c with h | ⟨(_ | _ | _) | v, d⟩ <;> rfl

theorem goesBack_matchesAt (hg : ∀ key, (g.procedures key).RaisesNoReturn) (fuel : Nat)
    (p : Parser κ α) (hc : c.InBounds) :
    (p.matchesAt g fuel).GoesBack c ∧
      ∀ r d, (p.matchesAt g fuel).run c = .ok (r, d) → d.position = c.position := by
  obtain ⟨hback, hposition⟩ := goesBack_parseAhead (alike_run hg fuel p) hc
  have hrun := matchesAt_run g fuel p c
  have hahead : p.parseAhead g fuel = Reading.parseAhead (p.run g fuel) := rfl
  rw [← hahead] at hback hposition
  cases h : (p.parseAhead g fuel).run c with
  | error hh =>
    rw [h] at hrun
    exact ⟨.of_halt hrun (hback.returns hh h), by rw [hrun]; rintro r d ⟨⟩⟩
  | ok told =>
    obtain ⟨r, d⟩ := told
    -- Whatever looking ahead told, the cursor is the one it left.
    obtain ⟨r', hr'⟩ : ∃ r', (p.matchesAt g fuel).run c = .ok (r', d) := by
      rw [hrun, h]
      rcases r with (_ | _ | _) | v
      · exact ⟨_, rfl⟩
      · exact ⟨_, rfl⟩
      · exact ⟨_, rfl⟩
      · exact ⟨_, rfl⟩
    refine ⟨.of_done hr' (hback.scopes r d h) (hback.inBounds r d h) fun _ _ => hposition r d h, ?_⟩
    rw [hr']
    rintro _ _ ⟨⟩
    exact hposition r d h

/-- Invocations go back. While one lasts, every run of a parser inside it keeps the origin and the
scopes of the cursor and goes back if it fails, as watching all of them changes nothing; whatever a
procedure has done so far has kept all text. So has the invocation until its own release. If it
fails, or only looks ahead, the cursor stands where it was, and nothing in it ever misses a place to
return to. -/
theorem invocations_go_back (g : Grammar κ α) (hg : ∀ key, (g.procedures key).RaisesNoReturn)
    (fuel : Nat) (p : Parser κ α) (config : Config) (c : Cursor) (hc : c.InBounds) :
    Reading.invoke config (p.watchedRun g fuel) c = Reading.invoke config (p.run g fuel) c ∧
      (∀ steps : Procedure κ α, steps.RaisesNoReturn →
        ∀ s : Session, s.cursor.InBounds → 0 < s.cursor.scopes →
          ∀ r t, outcome (steps.perform g (Parser.run g fuel)) s = .ok (r, t) →
            s.cursor.Extends t.cursor) ∧
      (∀ r d, Reading.invoke config (p.run g fuel) c = .ok (r, d) →
        c.Extends d ∧ (p.parse g fuel config).run c = .ok (r, d.release)) ∧
      (p.parse g fuel config).GoesBack c ∧
      (p.parseAhead g fuel).GoesBack c ∧
      (∀ r d, (p.parseAhead g fuel).run c = .ok (r, d) → d.position = c.position) ∧
      (p.matchesAt g fuel).GoesBack c ∧
      ∀ r d, (p.matchesAt g fuel).run c = .ok (r, d) → d.position = c.position := by
  have hrun := alike_run hg fuel p
  obtain ⟨hahead, haheadPosition⟩ := goesBack_parseAhead hrun hc
  obtain ⟨hmatches, hmatchesPosition⟩ := goesBack_matchesAt hg fuel p hc
  refine ⟨?_, ?_, fun r d hd => ⟨?_, ?_⟩, goesBack_parse config hrun hc, hahead, haheadPosition,
    hmatches, hmatchesPosition⟩
  · -- Watching changes nothing.
    rw [invoke_eq, invoke_eq,
      outcome_watchedRun hg fuel p (Session.start c.openScope config) hc (Nat.succ_pos _)]
  · -- What a procedure has done so far is a procedure itself, steady from where it began.
    intro steps hsteps s hs hscope r t hrt
    have hagree := alike_perform (g := g) steps hsteps (alike_run hg fuel) ⟨s.cursor, hs, hscope⟩ s _
      ⟨rfl, .refl hs⟩
    rw [hrt] at hagree
    rcases hagree with _ | ⟨-, -, hext⟩
    exact hext
  · -- So is the invocation, up to its release.
    have hagree := agree_invoke config hrun hc
    rw [hd] at hagree
    rcases hagree with _ | ⟨-, -, hext⟩
    exact hext
  · have hparse := parse_eq config (p.run g fuel) c
    rw [hd] at hparse
    exact hparse

/-- A procedure that releases text, reads on, parses on and releases again before it fails. -/
def releasing : Grammar Unit Unit where
  rules _ := .dropped
  procedures _ :=
    .cursor .release fun _ => .cursor (.read 2) fun _ =>
      .parse (Matcher.literal "b").toParser {} fun _ => .cursor .release fun _ =>
        .fail (.expected { offset := 0, label := "more" })

/-- An invocation of a procedure that tries to lose the text to go back to. -/
theorem invocations_go_back_releasing :
    (∀ key, (releasing.procedures key).RaisesNoReturn) ∧ (Cursor.ofText "a\nb").InBounds ∧
      ∃ e d, ((Matcher.procedure ()).toParser.parse releasing 4 {}).run (Cursor.ofText "a\nb") =
        .ok (.error e, d) ∧ d.position = 0 := by
  have hg : ∀ key, (releasing.procedures key).RaisesNoReturn := fun _ _ _ _ _ => trivial
  have hc := Cursor.inBounds_ofText "a\nb"
  obtain ⟨e, d, hrun⟩ : ∃ e d, ((Matcher.procedure ()).toParser.parse releasing 4 {}).run
      (Cursor.ofText "a\nb") = .ok (.error e, d) := ⟨_, _, rfl⟩
  have hback := (invocations_go_back releasing hg 4 (Matcher.procedure ()).toParser {} _ hc).2.2.2.1
  exact ⟨hg, hc, e, d, hrun, hback.position e d hrun⟩

end ParseTrail
