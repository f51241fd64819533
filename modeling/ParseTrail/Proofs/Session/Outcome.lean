import ParseTrail.Proofs.Cursor.Forward
import ParseTrail.Proofs.Outcome
import ParseTrail.Proofs.Trail.Basic
import ParseTrail.Reading.Parse

/-!
# Outcomes of the actions of a session

What the actions on the cursor and on the trail give, and what an invocation comes to. After these
equations the actions need not be unfolded. What has an answer can have come to it in a few ways
only:

- `recorded_of_outcome`: how a recorded action ends;
- `invoked_of_invoke`: how an invocation ends.
-/

namespace ParseTrail

variable {β γ : Type} (s : Session)

/-! ### The cursor -/

/-- To ask for the place of the cursor changes nothing. -/
theorem outcome_position : outcome Action.position s = .ok (.ok s.cursor.position, s) := rfl

/-- The place is passed on to what comes next. -/
theorem outcome_position_bind (k : Nat → Action γ) :
    outcome (Action.position >>= k) s = outcome (k s.cursor.position) s := rfl

/-- So is the session as a whole. -/
theorem outcome_get_bind (k : Session → Action γ) :
    outcome (get >>= k) s = outcome (k s) s := rfl

/-- What may only halt changes nothing. -/
theorem outcome_liftM (x : Except Halt β) :
    outcome (liftM x : Action β) s =
      match x with
      | .error h => .error h
      | .ok v => .ok (.ok v, s) := by
  rcases x with h | v <;> rfl

/-- A computation with the cursor changes nothing else. -/
theorem outcome_ofReading (x : Reading β) :
    outcome (Action.ofReading x) s =
      match x.run s.cursor with
      | .error h => .error h
      | .ok (v, d) => .ok (.ok v, { s with cursor := d }) := by
  rw [Action.ofReading, outcome_get_bind, outcome_bind, outcome_liftM]
  rcases x.run s.cursor with h | ⟨v, d⟩ <;> rfl

/-- An operation on the cursor gives its answer, or halts with its fault. -/
theorem outcome_ask (r : Cursor.Request) :
    outcome (Action.ask r) s =
      match s.cursor.perform r with
      | .error cause => .error (.fault cause)
      | .ok (reply, d) => .ok (.ok reply, { s with cursor := d }) := by
  have hrun : (Reading.ask r).run s.cursor = Halt.check (s.cursor.perform r) := rfl
  rw [Action.ask, outcome_ofReading, hrun]
  rcases s.cursor.perform r with cause | ⟨reply, d⟩ <;> rfl

/-- To go back moves the cursor, or halts where the offset is not kept. -/
theorem outcome_returnTo (offset : Nat) :
    outcome (Action.returnTo offset) s =
      match s.cursor.returnTo offset with
      | .error cause => .error (.fault cause)
      | .ok d => .ok (.ok (), { s with cursor := d }) := by
  have hrun : (Reading.returnTo offset).run s.cursor =
      Halt.check ((s.cursor.returnTo offset).map fun d => ((), d)) := rfl
  rw [Action.returnTo, outcome_ofReading, hrun]
  rcases s.cursor.returnTo offset with cause | d <;> rfl

/-- An error of the source becomes a failure. -/
theorem outcome_ofSource (r : Except SourceError β) :
    outcome (Action.ofSource r) s =
      match r with
      | .ok v => .ok (.ok v, s)
      | .error e => .ok (.error (.source e), s) := by
  rcases r with e | v <;> rfl

/-! ### Failures as values -/

/-- An attempt as a value has failures among its values. -/
theorem outcome_attempt (x : Action β) :
    outcome (Action.attempt x) s =
      match outcome x s with
      | .error h => .error h
      | .ok (r, t) => .ok (.ok r, t) := by
  rw [Action.attempt, outcome_lift_run]
  rcases outcome x s with h | ⟨r, t⟩ <;> rfl

/-- A failure that may be absorbed becomes the absence of a value. -/
theorem outcome_recover (x : Action β) :
    outcome (Action.recover x) s =
      match outcome x s with
      | .error h => .error h
      | .ok (.ok v, t) => .ok (.ok (some v), t)
      | .ok (.error f, t) =>
        if f.isRecoverable then .ok (.ok none, t) else .ok (.error f, t) := by
  rw [Action.recover, outcome_bind, outcome_attempt]
  rcases outcome x s with h | ⟨f | v, t⟩
  · rfl
  · -- Only recoverable failures are absorbed.
    dsimp only
    by_cases hf : f.isRecoverable
    · rw [if_pos hf, if_pos hf]
      rfl
    · rw [if_neg hf, if_neg hf]
      rfl
  · rfl

/-- What was recovered with a value has matched with it. -/
theorem outcome_of_recover_eq_some {s t : Session} {x : Action β} {v : β}
    (h : outcome (Action.recover x) s = .ok (.ok (some v), t)) : outcome x s = .ok (.ok v, t) := by
  rw [outcome_recover] at h
  rcases hx : outcome x s with halt | ⟨f | w, u⟩
  · rw [hx] at h
    cases h
  · rw [hx] at h
    dsimp only at h
    split at h
    · cases h
    · cases h
  · rw [hx] at h
    cases h
    rfl

/-- What was recovered without a value has failed recoverably. -/
theorem exists_outcome_of_recover_eq_none {s t : Session} {x : Action β}
    (h : outcome (Action.recover x) s = .ok (.ok none, t)) :
    ∃ f, outcome x s = .ok (.error f, t) ∧ f.isRecoverable := by
  rw [outcome_recover] at h
  rcases hx : outcome x s with halt | ⟨f | w, u⟩
  · rw [hx] at h
    cases h
  · rw [hx] at h
    dsimp only at h
    split at h
    · next hf =>
      cases h
      exact ⟨f, rfl, hf⟩
    · cases h
  · rw [hx] at h
    cases h

/-- What was not recovered has failed for good. -/
theorem outcome_of_recover_eq_error {s t : Session} {x : Action β} {f : Failure}
    (h : outcome (Action.recover x) s = .ok (.error f, t)) :
    outcome x s = .ok (.error f, t) ∧ ¬f.isRecoverable := by
  rw [outcome_recover] at h
  rcases hx : outcome x s with halt | ⟨f' | w, u⟩
  · rw [hx] at h
    cases h
  · rw [hx] at h
    dsimp only at h
    split at h
    · cases h
    · next hf =>
      cases h
      exact ⟨rfl, hf⟩
  · rw [hx] at h
    cases h

/-- A cut commits failures and leaves values. -/
theorem outcome_cut (x : Action β) :
    outcome (Action.cut x) s =
      match outcome x s with
      | .error h => .error h
      | .ok (.ok v, t) => .ok (.ok v, t)
      | .ok (.error f, t) => .ok (.error f.commit, t) := by
  rw [Action.cut, outcome_bind, outcome_attempt]
  rcases outcome x s with h | ⟨f | v, t⟩ <;> rfl

/-- Looking ahead, the cursor goes back whatever the result. -/
theorem outcome_lookahead_eq (x : Action β) :
    outcome (Action.lookahead x) s =
      match outcome x s with
      | .error h => .error h
      | .ok (r, t) =>
        match t.cursor.returnTo s.cursor.position with
        | .error cause => .error (.fault cause)
        | .ok d => .ok (r, { t with cursor := d }) := by
  rw [Action.lookahead, outcome_position_bind, outcome_bind, outcome_attempt]
  rcases outcome x s with h | ⟨r, t⟩
  · rfl
  · dsimp only
    rw [outcome_bind, outcome_returnTo]
    rcases t.cursor.returnTo s.cursor.position with cause | d
    · rfl
    · rcases r with f | v <;> rfl

/-! ### Attempts -/

/-- A rejection is an attempt that has failed where it started. -/
theorem outcome_reject (offset : Nat) (label : String) :
    outcome (Action.reject offset label) s =
      .ok (.ok (.expected { offset, label }), { s with
        trail := (s.trail.push s.current offset label false).2.close s.trail.size
          s.cursor.position true }) := rfl

/-- What fails where matches may be rejected is what matches, or a match of it is rejected. -/
theorem outcome_tryMap_eq_error {s u : Session} {x : Action β} {g : β → Except String γ}
    {f : Failure} (h : outcome (Action.tryMap g x) s = .ok (.error f, u)) :
    outcome x s = .ok (.error f, u) ∨
      ∃ v t reason, outcome x s = .ok (.ok v, t) ∧
        outcome (Action.reject s.cursor.position reason) t = .ok (.ok f, u) ∧
        f = .expected { offset := s.cursor.position, label := reason } := by
  rw [Action.tryMap, outcome_position_bind] at h
  rcases outcome_bind_eq_error h with h | ⟨v, t, ht, h⟩
  · exact .inl h
  · rcases hg : g v with reason | w
    · rw [hg] at h
      dsimp only at h
      rw [outcome_bind, outcome_reject] at h
      cases h
      exact .inr ⟨v, t, reason, ht, rfl, rfl⟩
    · rw [hg] at h
      cases h

/-- The session in which an attempt is in progress that was just opened. -/
def Session.entered (s : Session) (label : String) (anchor : Bool) : Session :=
  { s with
    trail := (s.trail.push s.current s.cursor.position label anchor).2
    current := s.trail.size
    depth := s.depth + 1 }

/-- To enter an attempt needs room below the limit. -/
theorem outcome_enter (label : String) (shape : Shape) :
    outcome (Action.enter label shape) s =
      if s.maxDepth ≠ 0 ∧ s.depth ≥ s.maxDepth then
        .ok (.error (.tooDeep (s.depth + 1) s.maxDepth), s)
      else .ok (.ok s.trail.size, { s with
        trail := (s.trail.push s.current s.cursor.position label shape.anchor).2
        current := s.trail.size
        depth := s.depth + 1 }) := by
  rw [Action.enter, outcome_get_bind]
  by_cases h : s.maxDepth ≠ 0 ∧ s.depth ≥ s.maxDepth
  · rw [if_pos h, if_pos h]
    rfl
  · rw [if_neg h, if_neg h]
    rfl

/-- The session after an attempt is closed and has taken its place on the trail. -/
def Session.left (s : Session) (id stop : Nat) (failed : Bool) (shape : Shape) : Session :=
  let trail := s.trail.close id stop failed
  let trail := if shape.leaf then trail.clearChildren id else trail
  let trail := if shape.dissolveOuter then trail.dissolveToAnchor id else trail
  let current := (trail.parent? id).getD 0
  let trail := if shape.dissolve || trail.isDissolving id then trail.dissolve id else trail
  { s with trail, current, depth := s.depth - 1 }

/-- To leave an attempt always works. -/
theorem outcome_leave (id stop : Nat) (failed : Bool) (shape : Shape) :
    outcome (Action.leave id stop failed shape) s = .ok (.ok (), s.left id stop failed shape) := rfl

/-- It does not move the cursor. -/
@[simp]
theorem Session.left_cursor (id stop : Nat) (failed : Bool) (shape : Shape) :
    (s.left id stop failed shape).cursor = s.cursor := rfl

/-- An attempt is left in steps: it is closed, its children may be dropped, those around it may be
marked, and at last it may be dissolved. What the earlier steps ensure holds up to the last one. -/
theorem Session.left_of_steps {P : Trail → Prop} {id stop : Nat} {failed : Bool} (shape : Shape)
    (hclose : P (s.trail.close id stop failed)) (hdrop : ∀ u, P u → P (u.clearChildren id))
    (hmark : ∀ u, P u → P (u.dissolveToAnchor id)) :
    ∃ u, P u ∧ (s.left id stop failed shape).current = (u.parent? id).getD 0 ∧
      ((s.left id stop failed shape).trail = u ∨
        (s.left id stop failed shape).trail = u.dissolve id) := by
  have hdropped : P (if shape.leaf then (s.trail.close id stop failed).clearChildren id
      else s.trail.close id stop failed) := by
    split
    · exact hdrop _ hclose
    · exact hclose
  rw [Session.left]
  generalize (if shape.leaf then (s.trail.close id stop failed).clearChildren id
      else s.trail.close id stop failed) = u at hdropped ⊢
  have hmarked : P (if shape.dissolveOuter then u.dissolveToAnchor id else u) := by
    split
    · exact hmark _ hdropped
    · exact hdropped
  generalize (if shape.dissolveOuter then u.dissolveToAnchor id else u) = v at hmarked ⊢
  refine ⟨v, hmarked, rfl, ?_⟩
  dsimp only
  split
  · exact .inr rfl
  · exact .inl rfl

/-- To record an action is to enter an attempt, to do it, and to leave with what came of it. After a
failure the cursor goes back. -/
theorem outcome_recorded (label : String) (shape : Shape) (x : Action β) :
    outcome (Action.recorded label shape x) s =
      if s.maxDepth ≠ 0 ∧ s.depth ≥ s.maxDepth then
        .ok (.error (.tooDeep (s.depth + 1) s.maxDepth), s)
      else
        match outcome x (s.entered label shape.anchor) with
        | .error h => .error h
        | .ok (.ok v, t) => .ok (.ok v, t.left s.trail.size t.cursor.position false shape)
        | .ok (.error f, t) =>
          match t.cursor.returnTo s.cursor.position with
          | .error cause => .error (.fault cause)
          | .ok d => .ok (.error f,
              Session.left { t with cursor := d } s.trail.size t.cursor.position true shape) := by
  rw [Action.recorded, outcome_position_bind, outcome_bind, outcome_enter]
  by_cases hdeep : s.maxDepth ≠ 0 ∧ s.depth ≥ s.maxDepth
  · rw [if_pos hdeep, if_pos hdeep]
  · rw [if_neg hdeep, if_neg hdeep]
    change outcome (Action.attempt x >>= _) (s.entered label shape.anchor) = _
    rw [outcome_bind, outcome_attempt]
    -- Only after a failure is there a place to go back to, before the attempt is left.
    rcases outcome x (s.entered label shape.anchor) with h | ⟨f | v, t⟩
    · rfl
    · dsimp only
      rw [outcome_position_bind, outcome_bind, outcome_returnTo]
      rcases t.cursor.returnTo s.cursor.position with cause | d <;> rfl
    · rfl

/-- How a recorded action ends, if it has an answer. -/
inductive Recorded (label : String) (shape : Shape) (x : Action β) (s : Session) :
    Except Failure β → Session → Prop
  /-- The attempt would be too deep, and it is not even opened. -/
  | tooDeep : s.maxDepth ≠ 0 ∧ s.depth ≥ s.maxDepth →
    Recorded label shape x s (.error (.tooDeep (s.depth + 1) s.maxDepth)) s
  /-- The attempt is closed where the action ended. -/
  | matched {v : β} {t : Session} : outcome x (s.entered label shape.anchor) = .ok (.ok v, t) →
    Recorded label shape x s (.ok v) (t.left s.trail.size t.cursor.position false shape)
  /-- The attempt is closed where the action ended, but the cursor goes back. -/
  | failed {f : Failure} {t : Session} {d : Cursor} :
    outcome x (s.entered label shape.anchor) = .ok (.error f, t) →
    t.cursor.returnTo s.cursor.position = .ok d →
    Recorded label shape x s (.error f)
      (Session.left { t with cursor := d } s.trail.size t.cursor.position true shape)

/-- These are the ends of a recorded action, case by case. -/
theorem recorded_of_outcome {s u : Session} {label : String} {shape : Shape} {x : Action β}
    {r : Except Failure β} (h : outcome (Action.recorded label shape x) s = .ok (r, u)) :
    Recorded label shape x s r u := by
  rw [outcome_recorded] at h
  by_cases hdeep : s.maxDepth ≠ 0 ∧ s.depth ≥ s.maxDepth
  · rw [if_pos hdeep] at h
    cases h
    exact .tooDeep hdeep
  · rw [if_neg hdeep] at h
    rcases hout : outcome x (s.entered label shape.anchor) with halt | ⟨f | v, t⟩
    · rw [hout] at h
      cases h
    · rw [hout] at h
      dsimp only at h
      cases hreturn : t.cursor.returnTo s.cursor.position with
      | error cause =>
        rw [hreturn] at h
        cases h
      | ok d =>
        rw [hreturn] at h
        cases h
        exact .failed hout hreturn
    · rw [hout] at h
      cases h
      exact .matched hout

/-- A recorded action that fails goes back to where it began. -/
theorem position_of_recorded {label : String} {shape : Shape} {x : Action β} {s t : Session}
    {f : Failure} (h : outcome (Action.recorded label shape x) s = .ok (.error f, t)) :
    t.cursor.position = s.cursor.position := by
  cases recorded_of_outcome h with
  | tooDeep _ =>
    -- Nothing has been read before an attempt that would be too deep.
    rfl
  | failed _ hreturn => exact Cursor.position_returnTo hreturn

/-- Closing an attempt opens none. -/
theorem Session.sameStarts_left (id stop : Nat) (failed : Bool) (shape : Shape) :
    s.trail.SameStarts (s.left id stop failed shape).trail := by
  -- Each of the four steps keeps the starts, whether it is taken or not.
  have hclose := s.trail.sameStarts_close id stop failed
  have hleaf := hclose.ite (Trail.sameStarts_clearChildren · id) (shape.leaf = true)
  have houter := hleaf.ite (Trail.sameStarts_dissolveToAnchor · id) (shape.dissolveOuter = true)
  exact houter.ite (Trail.sameStarts_dissolve · id) _

/-! ### Scopes -/

/-- Whether speculation accepts a result. -/
def accepts (accept : β → Bool) : Except Failure β → Bool
  | .ok v => accept v
  | .error _ => false

/-- A speculation has a scope of its own, and goes back unless its value is accepted. -/
theorem outcome_speculate (accept : β → Bool) (x : Action β) :
    outcome (Action.speculate accept x) s =
      match outcome x { s with cursor := s.cursor.openScope } with
      | .error h => .error h
      | .ok (r, t) =>
        if accepts accept r then .ok (.ok r, { t with cursor := t.cursor.closeScope })
        else
          match t.cursor.closeScope.returnTo s.cursor.position with
          | .error cause => .error (.fault cause)
          | .ok d => .ok (.ok r, { t with cursor := d }) := by
  have hopen : outcome (Action.ofReading (modify (·.openScope))) s =
      .ok (.ok ⟨⟩, { s with cursor := s.cursor.openScope }) := rfl
  have hclose (t : Session) : outcome (Action.ofReading (modify (·.closeScope))) t =
      .ok (.ok ⟨⟩, { t with cursor := t.cursor.closeScope }) := rfl
  rw [Action.speculate, outcome_position_bind, outcome_bind, hopen]
  dsimp only
  rw [outcome_bind, Action.attempt, outcome_lift_run]
  rcases outcome x { s with cursor := s.cursor.openScope } with h | ⟨r, t⟩
  · rfl
  · dsimp only
    rw [outcome_bind, hclose]
    -- The scope is closed before the cursor goes back.
    have hreturn := outcome_returnTo { t with cursor := t.cursor.closeScope } s.cursor.position
    rcases r with f | v
    · rw [accepts, if_neg Bool.false_ne_true, if_pos Bool.not_false]
      dsimp only
      rw [outcome_bind, hreturn]
      rcases t.cursor.closeScope.returnTo s.cursor.position with cause | d <;> rfl
    · rw [accepts]
      by_cases hv : accept v
      · have hnot : ¬(!accept v) = true := by simp [hv]
        rw [if_neg hnot, if_pos hv]
        rfl
      · have hnot : (!accept v) = true := by simp [hv]
        rw [if_pos hnot, if_neg hv]
        dsimp only
        rw [outcome_bind, hreturn]
        rcases t.cursor.closeScope.returnTo s.cursor.position with cause | d <;> rfl

/-! ### Invocations -/

/-- A session by itself gives its result and its trail, and the cursor as it was left. -/
theorem session_eq (config : Config) (x : Action β) (c : Cursor) :
    Reading.session config x c =
      match outcome x (Session.start c config) with
      | .error h => .error h
      | .ok (r, t) => .ok ((r, t.trail), t.cursor) := by
  change (x.run.run (Session.start c config) >>= fun q => .ok ((q.1, q.2.trail), q.2.cursor)) = _
  unfold outcome
  rcases x.run.run (Session.start c config) with h | ⟨r, t⟩ <;> rfl

/-- The session of an invocation ends before the cursor goes back or the error is made. -/
theorem invoke_eq (config : Config) (x : Action β) (c : Cursor) :
    Reading.invoke config x c =
      match outcome x (Session.start c.openScope config) with
      | .error h => .error h
      | .ok (.ok v, t) => .ok (.ok v, t.cursor.closeScope)
      | .ok (.error f, t) =>
        match t.cursor.closeScope.returnTo c.position with
        | .error cause => .error (.fault cause)
        | .ok d =>
          match Reading.errorOf t.trail f d with
          | .error h => .error h
          | .ok (err, e) => .ok (.error err, e) := by
  change (do
    let ((r, trail), d) ← Reading.session config x c.openScope
    _ : Except Halt (Except ParseError β × Cursor)) = _
  rw [session_eq]
  rcases outcome x (Session.start c.openScope config) with h | ⟨f | v, t⟩
  · rfl
  · dsimp only
    -- The cursor goes back first, so that the error is made from there.
    change (do
      let ((), d) ← Halt.check ((t.cursor.closeScope.returnTo c.position).map fun d => ((), d))
      _ : Except Halt (Except ParseError β × Cursor)) = _
    rcases t.cursor.closeScope.returnTo c.position with cause | d
    · rfl
    · dsimp only
      change (do
        let (err, e) ← Reading.errorOf t.trail f d
        _ : Except Halt (Except ParseError β × Cursor)) = _
      rcases Reading.errorOf t.trail f d with h | ⟨err, e⟩ <;> rfl
  · rfl

/-- How an invocation ends, if it has an answer. -/
inductive Invoked (config : Config) (x : Action β) (c : Cursor) : Except ParseError β → Cursor → Prop
  /-- The action matched, and the scope is closed. -/
  | matched {v : β} {t : Session} :
    outcome x (Session.start c.openScope config) = .ok (.ok v, t) →
    Invoked config x c (.ok v) t.cursor.closeScope
  /-- The action failed, and the error is made once the cursor is back. -/
  | failed {f : Failure} {t : Session} {back e : Cursor} {err : ParseError} :
    outcome x (Session.start c.openScope config) = .ok (.error f, t) →
    t.cursor.closeScope.returnTo c.position = .ok back →
    Reading.errorOf t.trail f back = .ok (err, e) → Invoked config x c (.error err) e

/-- These are the ends of an invocation that has an answer. -/
theorem invoked_of_invoke {config : Config} {x : Action β} {c d : Cursor}
    {r : Except ParseError β} (h : Reading.invoke config x c = .ok (r, d)) :
    Invoked config x c r d := by
  rw [invoke_eq] at h
  rcases hout : outcome x (Session.start c.openScope config) with halt | ⟨f | v, t⟩
  · rw [hout] at h
    cases h
  · rw [hout] at h
    dsimp only at h
    rcases hreturn : t.cursor.closeScope.returnTo c.position with cause | back
    · rw [hreturn] at h
      cases h
    · rw [hreturn] at h
      dsimp only at h
      rcases herror : Reading.errorOf t.trail f back with halt | ⟨err, e⟩
      · rw [herror] at h
        cases h
      · rw [herror] at h
        cases h
        exact .failed hout hreturn herror
  · rw [hout] at h
    cases h
    exact .matched hout

/-- A parse is an invocation, and then text is released. -/
theorem parse_eq (config : Config) (x : Action β) (c : Cursor) :
    Reading.parse config x c =
      match Reading.invoke config x c with
      | .error h => .error h
      | .ok (r, d) => .ok (r, d.release) := by
  change (do
    let (r, d) ← Reading.invoke config x c
    _ : Except Halt (Except ParseError β × Cursor)) = _
  rcases Reading.invoke config x c with h | ⟨r, d⟩ <;> rfl

/-- A parse that has an answer is an invocation, and then text is released. -/
theorem exists_invoke_of_parse {config : Config} {x : Action β} {c d : Cursor}
    {r : Except ParseError β} (h : Reading.parse config x c = .ok (r, d)) :
    ∃ e, Reading.invoke config x c = .ok (r, e) ∧ d = e.release := by
  rw [parse_eq] at h
  rcases hinvoke : Reading.invoke config x c with halt | ⟨r', e⟩
  · rw [hinvoke] at h
    cases h
  · rw [hinvoke] at h
    cases h
    exact ⟨e, rfl, rfl⟩

/-- A look ahead is an invocation, and then the cursor goes back. -/
theorem parseAhead_eq (x : Action β) (c : Cursor) :
    Reading.parseAhead x c =
      match Reading.invoke {} x c with
      | .error h => .error h
      | .ok (r, d) =>
        match d.returnTo c.position with
        | .error cause => .error (.fault cause)
        | .ok e => .ok (r, e) := by
  change (do
    let (r, d) ← Reading.invoke {} x c
    _ : Except Halt (Except ParseError β × Cursor)) = _
  rcases Reading.invoke {} x c with h | ⟨r, d⟩
  · rfl
  · change (do
      let ((), e) ← Halt.check ((d.returnTo c.position).map fun d => ((), d))
      _ : Except Halt (Except ParseError β × Cursor)) = _
    simp only
    rcases d.returnTo c.position with cause | e <;> rfl

/-- A look ahead that has an answer is an invocation, and then the cursor goes back. -/
theorem exists_invoke_of_parseAhead {x : Action β} {c d : Cursor} {r : Except ParseError β}
    (h : Reading.parseAhead x c = .ok (r, d)) :
    ∃ e, Reading.invoke {} x c = .ok (r, e) ∧ e.returnTo c.position = .ok d := by
  rw [parseAhead_eq] at h
  rcases hinvoke : Reading.invoke {} x c with halt | ⟨r', e⟩
  · rw [hinvoke] at h
    cases h
  · rw [hinvoke] at h
    dsimp only at h
    cases hreturn : e.returnTo c.position with
    | error cause =>
      rw [hreturn] at h
      cases h
    | ok e' =>
      rw [hreturn] at h
      cases h
      exact ⟨e, rfl, hreturn⟩

/-- A diagnosis shows the line of the furthest start, unless the source fails on the way to its end.
-/
theorem diagnose_eq (trail : Trail) (committed : Bool) (c : Cursor) :
    Reading.diagnose trail committed c =
      match c.lineAt trail.furthestStart with
      | (.error e, d) => .ok (.source e, d)
      | (.ok line, d) =>
        match Report.ofTrail trail line with
        | .error cause => .error (.fault cause)
        | .ok report => .ok (.failed { trail, report, committed }, d) := by
  have hask : Reading.ask (.lineAt trail.furthestStart) c = .ok (c.lineAt trail.furthestStart) :=
    rfl
  change (do
    let (r, d) ← Reading.ask (.lineAt trail.furthestStart) c
    _ : Except Halt (ParseError × Cursor)) = _
  rw [hask]
  rcases c.lineAt trail.furthestStart with ⟨e | line, d⟩
  · rfl
  · change (do
      let (report, d) ← (liftM (Halt.check (Report.ofTrail trail line)) : Reading Report) d
      _ : Except Halt (ParseError × Cursor)) = _
    simp only
    rcases Report.ofTrail trail line with cause | report <;> rfl

/-- A report is made unless its column is too large a number. -/
theorem eq_limitExceeded_of_ofTrail {t : Trail} {line : Line} {cause : Fault}
    (h : Report.ofTrail t line = .error cause) :
    cause = .limitExceeded ∧
      offsetLimit ≤ Text.column line.text.toList line.span.start t.furthestStart + 1 := by
  have hcolumn : line.columnOf t.furthestStart = .error cause := by
    simp only [Report.ofTrail, bind, Except.bind] at h
    split at h
    · next other hother =>
      cases h
      exact hother
    · cases h
  rw [Line.columnOf] at hcolumn
  split at hcolumn
  · cases hcolumn
  · next hlarge =>
    cases hcolumn
    exact ⟨rfl, Nat.le_of_not_lt hlarge⟩

end ParseTrail
