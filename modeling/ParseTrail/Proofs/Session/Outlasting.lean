import ParseTrail.Proofs.Session.Course
import ParseTrail.Proofs.Streaming

/-!
# What outlasts parsing

A parser has no other means to change the cursor of its session than the operations on cursors, and
it releases nothing. So what outlasts all of these operations outlasts a run of a parser. Around the
run, an invocation opens a scope and closes it, goes back, and looks at a line for its report:

- `Cursor.Outlasts.run`: runs of parsers;
- `Cursor.Outlasts.exists_of_invocation`: invocations, up to the release at their end.
-/

namespace ParseTrail

variable {R : Cursor → Cursor → Prop} {α β : Type} {g : Grammar Empty α} {p : Parser Empty α}
  {fuel : Nat} {c d : Cursor}

/-! ### Runs -/

/-- The cursor of a session comes to what is related to it. -/
def outlasting (R : Cursor → Cursor → Prop) : Course where
  ready _ _ := True
  leads s t := R s.cursor t.cursor
  excuses _ := False

/-- An operation on the cursor that releases nothing. -/
theorem outlasting_ofSource (hR : Cursor.Outlasts R) {b : Nat} (request : Cursor.Request)
    (hrequest : request ≠ .release) {reply : request.Reply → Except SourceError β} :
    (outlasting R).Follows b
      (Action.ask request >>= fun told => Action.ofSource (reply told)) :=
  Course.follows_ofSource fun _ _ _ _ hd _ => hR.perform hrequest hd

/-- The primitive actions have nothing but these operations and moves. -/
theorem kept_outlasting (hR : Cursor.Outlasts R) : (outlasting R).Kept where
  refl _ := hR.refl _
  trans hst htu := hR.trans _ _ _ hst htu
  ready_of_leads _ _ := trivial
  narrow := id
  excuses_commit := id
  not_excuses _ := id
  read n := outlasting_ofSource hR (.read n) nofun
  readChar := outlasting_ofSource hR .readChar nofun
  peek n := outlasting_ofSource hR (.peek n) nofun
  atEnd := outlasting_ofSource hR .atEnd nofun
  returnTo := by
    intro b s r t _ ht _
    rw [outcome_returnTo] at ht
    rcases hreturn : s.cursor.returnTo b with cause | d
    · rw [hreturn] at ht
      cases ht
    · rw [hreturn] at ht
      cases ht
      exact hR.moveTo hreturn
  reject label := by
    intro s r t _ ht _
    rw [outcome_reject] at ht
    cases ht
    exact hR.refl _

/-- Recording touches the trail, and goes back after a failure. -/
theorem outlasting_recorded (hR : Cursor.Outlasts R) (label : String) (shape : Shape)
    {x : Action β} (hx : ∀ b, (outlasting R).Follows b x) (b : Nat) :
    (outlasting R).Follows b (Action.recorded label shape x) := by
  intro s r u _ hu _
  cases recorded_of_outcome hu with
  | tooDeep _ => exact hR.refl _
  | @matched v t ht =>
    have hst := hx b (s.entered label shape.anchor) _ t trivial ht fun _ _ => id
    exact hst
  | failed ht hreturn =>
    have hst := hx b (s.entered label shape.anchor) _ _ trivial ht fun _ _ => id
    exact hR.trans _ _ _ hst (hR.moveTo hreturn)

namespace Cursor.Outlasts

/-- What outlasts the operations on cursors outlasts a run of a parser. -/
theorem run (hR : Outlasts R) {s t : Session} {r : Except Failure (Value α)}
    (ht : outcome (p.run g fuel) s = .ok (r, t)) : R s.cursor t.cursor :=
  (kept_outlasting hR).run g (outlasting_recorded hR) fuel p 0 s r t trivial ht fun _ _ => id

/-! ### Invocations -/

/-- Making an error looks at a line, if it does anything with the cursor. -/
theorem errorOf (hR : Outlasts R) {trail : Trail} {f : Failure} {err : ParseError}
    (h : Reading.errorOf trail f c = .ok (err, d)) : R c d := by
  have hdiagnose (committed : Bool)
      (h : Reading.diagnose trail committed c = .ok (err, d)) : R c d := by
    have hlook := hR.lineAt trail.furthestStart c
    rw [diagnose_eq] at h
    generalize c.lineAt trail.furthestStart = told at hlook h
    rcases told with ⟨e | line, e⟩
    · cases h
      exact hlook
    · dsimp only at h
      split at h
      · cases h
      · cases h
        exact hlook
  cases f with
  | expected _ => exact hdiagnose false h
  | committed _ => exact hdiagnose true h
  | tooDeep depth limit =>
    cases h
    exact hR.refl c
  | source e =>
    cases h
    exact hR.refl c

/-- What also holds across a scope outlasts an invocation that does not release. -/
theorem invoke (hR : Outlasts R) (hscope : ∀ c d : Cursor, R c.openScope d → R c d.closeScope)
    {config : Config} {r : Except ParseError (Value α)}
    (h : Reading.invoke config (p.run g fuel) c = .ok (r, d)) : R c d := by
  cases invoked_of_invoke h with
  | matched hout => exact hscope _ _ (hR.run hout)
  | failed hout hreturn herror =>
    have hback := hR.trans _ _ _ (hscope _ _ (hR.run hout)) (hR.moveTo hreturn)
    exact hR.trans _ _ _ hback (hR.errorOf herror)

/-- It outlasts every invocation up to the release at the end, if the invocation makes one. -/
theorem exists_of_invocation (hR : Outlasts R)
    (hscope : ∀ c d : Cursor, R c.openScope d → R c d.closeScope) (i : Invocation)
    {answer : Except ParseError i.Answer} (h : i.run c = .ok (answer, d)) :
    ∃ e, R c e ∧ (d = e ∨ d = e.release) := by
  have hahead {α : Type} (g : Grammar Empty α) (fuel : Nat) (p : Parser Empty α) {e : Cursor}
      {r : Except ParseError (Value α)} (h : (p.parseAhead g fuel).run c = .ok (r, e)) : R c e := by
    obtain ⟨mid, hinvoke, hreturn⟩ := exists_invoke_of_parseAhead h
    exact hR.trans _ _ _ (hR.invoke hscope hinvoke) (hR.moveTo hreturn)
  cases i with
  | parse g fuel config p =>
    obtain ⟨e, hinvoke, rfl⟩ := exists_invoke_of_parse h
    exact ⟨e, hR.invoke hscope hinvoke, .inr rfl⟩
  | parseAhead g fuel p => exact ⟨d, hahead g fuel p h, .inl rfl⟩
  | matchesAt g fuel p =>
    have h : (p.matchesAt g fuel).run c = .ok (answer, d) := h
    rw [matchesAt_run] at h
    -- It leaves the cursor where looking ahead does, whatever it makes of the result.
    rcases hlook : (p.parseAhead g fuel).run c with halt | ⟨(_ | _ | _) | v, e⟩ <;>
      rw [hlook] at h <;> cases h <;> exact ⟨_, hahead g fuel p hlook, .inl rfl⟩

end Cursor.Outlasts

end ParseTrail
