import ParseTrail.Proofs.Cursor.Extension
import ParseTrail.Proofs.Session.Course
import ParseTrail.Proofs.Session.Stretch

/-!
# A log of runs

To speak of the runs of parsers inside a run, each of them is written to a log as it ends: how deep
it was nested, why it failed, and how many attempts there were. The log is kept beside the outcome,
even where the computation halts, and it has no part in what happens:

- `Parser.logged`: running a parser with a log;
- `tells_logged`: the outcome is that of the run. If a run inside failed for good, the log ends with
  it and those around it, all with the same failure, and so does the run.
-/

namespace ParseTrail

/-- How a run of a parser ended. -/
structure RunEnd where
  /-- The number of runs around it. -/
  depth : Nat
  /-- Why it failed, if it did. -/
  failure? : Option Failure
  /-- The number of attempts on the trail. -/
  attempts : Nat
  deriving DecidableEq, Repr

/-- The failure of a result. -/
def failureOf {β : Type} : Except Failure β → Option Failure
  | .ok _ => none
  | .error f => some f

/-- A computation with a log of the runs that ended in it. -/
def Logged (β : Type) : Type :=
  Session → Except Halt (Except Failure β × Session) × List RunEnd

namespace Logged

variable {β γ : Type}

/-- An action in which no parser is run. -/
def of (x : Action β) : Logged β :=
  fun s => (outcome x s, [])

/-- A logged computation without its log. -/
def action (x : Logged β) : Action β :=
  fun s => (x s).1

/-- What comes after a logged computation is logged after it. -/
def andThen (x : Logged β) (k : β → Logged γ) : Logged γ :=
  fun s =>
    match x s with
    | (.error h, log) => (.error h, log)
    | (.ok (.error f, t), log) => (.ok (.error f, t), log)
    | (.ok (.ok v, t), log) => ((k v t).1, log ++ (k v t).2)

instance : Monad Logged where
  pure v := of (pure v)
  bind := andThen

/-- An action that runs another one in the same session, with the log of that. -/
def around (F : Action β → Action γ) (x : Logged β) : Logged γ :=
  fun s => (outcome (F x.action) s, (x s).2)

/-- Runs a computation as an attempt, and adds the end of this run to the log. A run that would be
too deep does not get to the computation. -/
def recorded (label : String) (shape : Shape) (x : Logged β) : Logged β :=
  fun s =>
    let told := outcome (Action.recorded label shape x.action) s
    let inner :=
      if s.maxDepth ≠ 0 ∧ s.depth ≥ s.maxDepth then []
      else (x (s.entered label shape.anchor)).2
    (told, inner ++
      match told with
      | .ok (r, t) => [⟨s.depth, failureOf r, t.trail.size⟩]
      | .error _ => [])

end Logged

/-- Sessions with a log as a world to match in. -/
def loggedEngine : Engine Logged Nat where
  fault cause := .of (Action.fault cause)
  outOfFuel := .of Action.outOfFuel
  here := .of Action.position
  returnTo offset := .of (Action.returnTo offset)
  read n := .of (Action.read n)
  readChar := .of Action.readChar
  peek n := .of (Action.peek n)
  atEnd := .of Action.atEnd
  expected offset label := .of (Action.expected offset label)
  expectedFound offset label found := .of (Action.expectedFound offset label found)
  reject offset reason := .of (sessionEngine.reject offset reason)
  recover := Logged.around Action.recover
  cut := Logged.around Action.cut
  lookahead := Logged.around Action.lookahead
  recorded := Logged.recorded

/-- Runs a parser without procedures, and logs how each run of a parser on the way ended. -/
def Parser.logged {α : Type} (g : Grammar Empty α) (fuel : Nat) (p : Parser Empty α) :
    Logged (Value α) :=
  loggedEngine.run g.rules (fun _ key => key.elim) fuel p

namespace RunEnd

/-- The ends of the `n` runs around one that ended, innermost first. All end as it did, and the
outermost of them is at depth `d`. -/
def enclosing (e : RunEnd) (d : Nat) : Nat → List RunEnd
  | 0 => []
  | n + 1 => { e with depth := d + n } :: e.enclosing d n

variable {e e' : RunEnd} {d n : Nat}

/-- One more run around the others comes last. -/
theorem enclosing_concat (e : RunEnd) (d n : Nat) :
    e.enclosing (d + 1) n ++ [{ e with depth := d }] = e.enclosing d (n + 1) := by
  induction n with
  | zero => rfl
  | succ n ih =>
    rw [enclosing, List.cons_append, ih, enclosing.eq_def e d (n + 1 + 1), Nat.add_assoc d 1 n,
      Nat.add_comm 1 n]

/-- The depth of the innermost run does not matter to those around it. -/
theorem enclosing_withDepth (e : RunEnd) (k d n : Nat) :
    ({ e with depth := k } : RunEnd).enclosing d n = e.enclosing d n := by
  induction n with
  | zero => rfl
  | succ n ih => rw [enclosing, enclosing, ih]

/-- After each of them come those around it. -/
theorem enclosing_split {earlier later : List RunEnd}
    (h : e.enclosing d n = earlier ++ e' :: later) :
    ∃ m, e' = { e with depth := d + m } ∧ later = e'.enclosing d m := by
  induction n generalizing earlier with
  | zero => exact absurd h.symm (List.append_ne_nil_of_right_ne_nil _ (List.cons_ne_nil _ _))
  | succ n ih =>
    rw [enclosing] at h
    rcases earlier with _ | ⟨_, earlier⟩
    · rw [List.nil_append, List.cons.injEq] at h
      obtain ⟨rfl, rfl⟩ := h
      exact ⟨n, rfl, (enclosing_withDepth e _ d n).symm⟩
    · rw [List.cons_append, List.cons.injEq] at h
      exact ih h.2

/-- The run matched, or failed in a way that may be absorbed. -/
def Mild (e : RunEnd) : Prop :=
  ∀ f, e.failure? = some f → f.isRecoverable = true

end RunEnd

/-! ### Settled logs -/

variable {β γ : Type}

/-- What the log of a computation tells of its outcome: if a run failed for good, the log ends with
those around it, and the computation failed with it before anything else was recorded. -/
inductive Settled (d : Nat) (o : Except Halt (Except Failure β × Session)) : List RunEnd → Prop
  | mild {log : List RunEnd} : (∀ e ∈ log, e.Mild) → Settled d o log
  | final {earlier : List RunEnd} {e : RunEnd} {f : Failure} {t : Session} (n : Nat) :
    (∀ e ∈ earlier, e.Mild) → e.failure? = some f → f.isRecoverable = false →
    o = .ok (.error f, t) → t.trail.size = e.attempts →
    Settled d o (earlier ++ e.enclosing d n)

namespace Settled

variable {d : Nat} {o : Except Halt (Except Failure β × Session)}
  {o' : Except Halt (Except Failure γ × Session)} {log more earlier later : List RunEnd}
  {e : RunEnd} {f : Failure}

/-- A failure for good may be passed on. -/
theorem pass (h : Settled d o log)
    (hpass : ∀ f t, f.isRecoverable = false → o = .ok (.error f, t) →
      ∃ t', o' = .ok (.error f, t') ∧ t'.trail.size = t.trail.size) : Settled d o' log := by
  cases h with
  | mild hlog => exact .mild hlog
  | final n hearlier he hf ho hsize =>
    obtain ⟨t', ho', hsize'⟩ := hpass _ _ hf ho
    exact .final n hearlier he hf ho' (hsize'.trans hsize)

/-- The log of a computation that did not fail for good. -/
theorem all_mild (h : Settled d o log)
    (ho : ∀ f t, f.isRecoverable = false → o ≠ .ok (.error f, t)) : ∀ e ∈ log, e.Mild := by
  cases h with
  | mild hlog => exact hlog
  | final n _ _ hf ho' _ => exact absurd ho' (ho _ _ hf)

/-- Mild ends before. -/
theorem prepend (hmore : ∀ e ∈ more, e.Mild) (h : Settled d o log) :
    Settled d o (more ++ log) := by
  cases h with
  | mild hlog => exact .mild fun e he => (List.mem_append.mp he).elim (hmore e) (hlog e)
  | @final earlier e f t n hearlier he hf ho hsize =>
    rw [← List.append_assoc]
    exact .final n (fun e he => (List.mem_append.mp he).elim (hmore e) (hearlier e)) he hf ho hsize

/-- Where a run failed for good, only those around it end after it, in the same way. -/
theorem of_split (h : Settled d o (earlier ++ e :: later)) (he : e.failure? = some f)
    (hf : f.isRecoverable = false) :
    ∃ n t, e.depth = d + n ∧ later = e.enclosing d n ∧ o = .ok (.error f, t) ∧
      t.trail.size = e.attempts := by
  generalize hlog : earlier ++ e :: later = log at h
  have hnot : ¬e.Mild := fun hmild => by
    rw [hmild f he] at hf
    cases hf
  cases h with
  | mild hall => exact absurd (hall e (by rw [← hlog]; simp)) hnot
  | @final earlier' e₀ f₀ t n hearlier he₀ hf₀ ho hsize =>
    -- The run is not among the mild ones, so it is one of those at the end.
    rcases List.append_eq_append_iff.mp hlog with ⟨mid, hmid, hend⟩ | ⟨mid, hmid, hend⟩
    · rcases mid with _ | ⟨first, mid⟩
      · have hstart : e₀.enclosing d n = [] ++ e :: later := hend.symm
        obtain ⟨m, heq, hlater⟩ := RunEnd.enclosing_split hstart
        subst heq
        rw [he₀, Option.some.injEq] at he
        exact ⟨m, t, rfl, hlater, he ▸ ho, hsize⟩
      · rw [List.cons_append, List.cons.injEq] at hend
        refine absurd (hearlier e ?_) hnot
        rw [hmid, hend.1]
        simp
    · obtain ⟨m, heq, hlater⟩ := RunEnd.enclosing_split hend
      subst heq
      rw [he₀, Option.some.injEq] at he
      exact ⟨m, t, rfl, hlater, he ▸ ho, hsize⟩

end Settled

/-! ### Sessions at one depth -/

/-- Sessions in a scope, at the same depth as before, whose cursors extend those before. -/
def level : Course where
  ready _ s := s.cursor.InBounds ∧ 0 < s.cursor.scopes
  leads s t := t.depth = s.depth ∧ s.cursor.Extends t.cursor
  excuses _ := False

variable {b : Nat} {s t : Session} {x : Action β} {y : Action γ}

/-- An operation on the cursor stays at its depth and extends the cursor. -/
theorem level_ask {request : Cursor.Request} {reply : request.Reply → Except SourceError β} :
    level.Follows b (Action.ask request >>= fun told => Action.ofSource (reply told)) :=
  Course.follows_ofSource fun _ _ _ hs hd _ => ⟨rfl, .perform hs.1 hs.2 request hd⟩

/-- So do all primitive actions. -/
theorem kept_level : level.Kept where
  refl hs := ⟨rfl, .refl hs.1⟩
  trans hst htu := ⟨htu.1.trans hst.1, hst.2.trans htu.2⟩
  ready_of_leads hs hst := ⟨hst.2.inBounds, hst.2.scopes ▸ hs.2⟩
  narrow := id
  excuses_commit := id
  not_excuses _ := id
  read _ := level_ask
  readChar := level_ask
  peek _ := level_ask
  atEnd := level_ask
  returnTo := by
    intro b s r t hs ht _
    rw [outcome_returnTo] at ht
    split at ht
    · cases ht
    · next hd =>
      cases ht
      exact ⟨rfl, .moveTo hs.1 hd⟩
  reject label := by
    intro s r t hs ht _
    rw [outcome_reject] at ht
    cases ht
    exact ⟨rfl, .refl hs.1⟩

/-- What a recorded action comes to, if it does not nest too deep: the cursor goes back after a
failure, and the attempt is closed. -/
theorem outcome_recorded_of_follows (label : String) (shape : Shape) (hs : level.ready b s)
    (hdeep : ¬(s.maxDepth ≠ 0 ∧ s.depth ≥ s.maxDepth)) (hx : level.Follows b x) :
    outcome (Action.recorded label shape x) s =
      match outcome x (s.entered label shape.anchor) with
      | .error h => .error h
      | .ok (.ok v, t) =>
        .ok (.ok v, t.left s.trail.size t.cursor.position false shape)
      | .ok (.error f, t) =>
        .ok (.error f, Session.left { t with cursor := { t.cursor with index := s.cursor.index } }
          s.trail.size t.cursor.position true shape) := by
  rw [outcome_recorded, if_neg hdeep]
  rcases hout : outcome x (s.entered label shape.anchor) with h | ⟨f | v, t⟩
  · rfl
  · have hst : s.cursor.Extends t.cursor :=
      (hx (s.entered label shape.anchor) _ t hs hout fun _ _ => id).2
    simp only [hst.returnTo hs.1]
  · rfl

/-- A recorded action comes back to its depth. -/
theorem level_recorded (label : String) (shape : Shape) (hx : ∀ b, level.Follows b x) (b : Nat) :
    level.Follows b (Action.recorded label shape x) := by
  intro s r u hs hu _
  cases recorded_of_outcome hu with
  | tooDeep _ => exact kept_level.refl hs
  | matched ht =>
    obtain ⟨hdepth, hext⟩ := hx b (s.entered label shape.anchor) _ _ hs ht fun _ _ => id
    exact ⟨Nat.sub_eq_of_eq_add hdepth, hext⟩
  | @failed f t d ht hreturn =>
    obtain ⟨hdepth, hext⟩ := hx b (s.entered label shape.anchor) _ _ hs ht fun _ _ => id
    have hst : s.cursor.Extends t.cursor := hext
    have hle : s.cursor.index ≤ t.cursor.buffered := Nat.le_trans hs.1 hst.buffered_le
    cases (hst.returnTo hs.1).symm.trans hreturn
    exact ⟨Nat.sub_eq_of_eq_add hdepth, hst.withIndex hle⟩

/-- What looking ahead comes to: the cursor goes back, whatever the result. -/
theorem outcome_lookahead (hs : level.ready b s) (hx : level.Follows b x) :
    outcome (Action.lookahead x) s =
      match outcome x s with
      | .error h => .error h
      | .ok (r, t) => .ok (r, { t with cursor := { t.cursor with index := s.cursor.index } }) := by
  rw [outcome_lookahead_eq]
  rcases hout : outcome x s with h | ⟨r, t⟩
  · rfl
  · have hst : s.cursor.Extends t.cursor := (hx s _ t hs hout fun _ _ => id).2
    simp only [hst.returnTo hs.1]

/-! ### Logged runs -/

/-- A logged computation has the outcome of an action, and its log is settled. -/
structure Tells (x : Logged β) (y : Action β) : Prop where
  follows : ∀ b, level.Follows b y
  outcome_eq : ∀ s, level.ready 0 s → (x s).1 = outcome y s
  settled : ∀ s, level.ready 0 s → Settled s.depth (outcome y s) (x s).2

namespace Tells

variable {x : Logged β} {y : Action β}

/-- A single action logs nothing, so that nothing has to be settled. -/
theorem of (hy : ∀ b, level.Follows b y) : Tells (.of y) y :=
  ⟨hy, fun _ _ => rfl, fun _ _ => .mild (List.forall_mem_nil _)⟩

/-- The action of a logged computation follows what it tells of. -/
theorem follows_action (h : Tells x y) (b : Nat) : level.Follows b x.action :=
  fun s r t hs ht hr => h.follows b s r t hs ((h.outcome_eq s hs).symm.trans ht) hr

/-- If the first part fails for good, the log ends with it. Otherwise all of it is mild. -/
theorem bind {f : β → Logged γ} {k : β → Action γ} (h : Tells x y)
    (hfk : ∀ v, Tells (f v) (k v)) : Tells (x >>= f) (y >>= k) := by
  refine ⟨fun b => kept_level.bind (h.follows b) fun v => (hfk v).follows b, fun s hs => ?_,
    fun s hs => ?_⟩
  · have heq := h.outcome_eq s hs
    have hout := fun t r => h.follows 0 s r t hs
    change (Logged.andThen x f s).1 = _
    rw [outcome_bind, Logged.andThen]
    generalize x s = told at heq
    obtain ⟨o, log⟩ := told
    subst heq
    rcases hy : outcome y s with halt | ⟨e | v, t⟩
    · rfl
    · rfl
    · have ht := kept_level.ready_of_leads hs (hout t _ hy fun f hf => nomatch hf)
      exact (hfk v).outcome_eq t ht
  · have heq := h.outcome_eq s hs
    have hsettled := h.settled s hs
    have hout := fun t r => h.follows 0 s r t hs
    change Settled s.depth _ (Logged.andThen x f s).2
    rw [outcome_bind, Logged.andThen]
    generalize x s = told at heq hsettled
    obtain ⟨o, log⟩ := told
    subst heq
    rcases hy : outcome y s with halt | ⟨e | v, t⟩
    · rw [hy] at hsettled
      exact hsettled.pass fun f t hf ho => nomatch ho
    · rw [hy] at hsettled
      exact hsettled.pass fun f t' hf ho => ⟨t', by cases ho; rfl, rfl⟩
    · -- What comes next starts at the same depth, after a log in which all is mild.
      have hst := hout t _ hy fun f hf => nomatch hf
      have hmore := (hfk v).settled t (kept_level.ready_of_leads hs hst)
      rw [hst.1] at hmore
      rw [hy] at hsettled
      exact hmore.prepend (hsettled.all_mild fun f t' hf ho => nomatch ho)

/-- What is absorbed is mild. -/
theorem recover (h : Tells x y) : Tells (loggedEngine.recover x) (Action.recover y) := by
  have heq (s : Session) (hs : level.ready 0 s) : outcome x.action s = outcome y s :=
    h.outcome_eq s hs
  refine ⟨fun b => kept_level.recover (h.follows b), fun s hs => ?_, fun s hs => ?_⟩
  · change outcome (Action.recover x.action) s = _
    rw [outcome_recover, outcome_recover, heq s hs]
  · -- A failure for good is not absorbed.
    refine (h.settled s hs).pass fun f t hf ho => ⟨t, ?_, rfl⟩
    rw [outcome_recover, ho]
    simp only
    rw [if_neg (by rw [hf]; exact Bool.false_ne_true)]

/-- To commit a failure changes its outcome, and no run ends with that. -/
theorem cut (h : Tells x y) : Tells (loggedEngine.cut x) (Action.cut y) := by
  have heq (s : Session) (hs : level.ready 0 s) : outcome x.action s = outcome y s :=
    h.outcome_eq s hs
  refine ⟨fun b => kept_level.cut (h.follows b), fun s hs => ?_, fun s hs => ?_⟩
  · change outcome (Action.cut x.action) s = _
    rw [outcome_cut, outcome_cut, heq s hs]
  · -- A failure for good is committed already.
    refine (h.settled s hs).pass fun f t hf ho => ⟨t, ?_, rfl⟩
    rw [outcome_cut, ho]
    cases f with
    | expected e => cases hf
    | _ => rfl

/-- The way back after a look ahead logs nothing. -/
theorem lookahead (h : Tells x y) : Tells (loggedEngine.lookahead x) (Action.lookahead y) := by
  have heq (s : Session) (hs : level.ready 0 s) : outcome x.action s = outcome y s :=
    h.outcome_eq s hs
  refine ⟨fun b => kept_level.lookahead h.follows, fun s hs => ?_, fun s hs => ?_⟩
  · change outcome (Action.lookahead x.action) s = _
    rw [outcome_lookahead hs (h.follows_action 0), outcome_lookahead hs (h.follows 0), heq s hs]
  · refine (h.settled s hs).pass fun f t hf ho => ?_
    rw [outcome_lookahead hs (h.follows 0), ho]
    exact ⟨_, rfl, rfl⟩

/-- The run itself is the last to end. If it failed for good, so did all since the first one inside
it that did. -/
theorem recorded (label : String) (shape : Shape) (h : Tells x y) :
    Tells (loggedEngine.recorded label shape x) (Action.recorded label shape y) := by
  have hsame (s : Session) (hs : level.ready 0 s) :
      outcome (Action.recorded label shape x.action) s =
        outcome (Action.recorded label shape y) s := by
    by_cases hdeep : s.maxDepth ≠ 0 ∧ s.depth ≥ s.maxDepth
    · rw [outcome_recorded, outcome_recorded, if_pos hdeep, if_pos hdeep]
    · have heq : outcome x.action (s.entered label shape.anchor) =
          outcome y (s.entered label shape.anchor) := h.outcome_eq _ hs
      rw [outcome_recorded_of_follows label shape hs hdeep (h.follows_action 0),
        outcome_recorded_of_follows label shape hs hdeep (h.follows 0), heq]
  refine ⟨level_recorded label shape h.follows, hsame, fun s hs => ?_⟩
  change Settled s.depth _ (Logged.recorded label shape x s).2
  rw [Logged.recorded]
  simp only
  rw [hsame s hs]
  by_cases hdeep : s.maxDepth ≠ 0 ∧ s.depth ≥ s.maxDepth
  · rw [if_pos hdeep, List.nil_append, outcome_recorded, if_pos hdeep]
    let e : RunEnd := ⟨s.depth, some (.tooDeep (s.depth + 1) s.maxDepth), s.trail.size⟩
    exact .final (e := e) 1 (List.forall_mem_nil _) rfl rfl rfl rfl
  · rw [if_neg hdeep, outcome_recorded_of_follows label shape hs hdeep (h.follows 0)]
    have hsettled := h.settled (s.entered label shape.anchor) hs
    generalize (x (s.entered label shape.anchor)).2 = log at hsettled
    rcases hout : outcome y (s.entered label shape.anchor) with halt | ⟨f | v, t⟩
    · rw [hout] at hsettled
      simp only [List.append_nil]
      exact .mild (hsettled.all_mild fun f t hf ho => nomatch ho)
    · rw [hout] at hsettled
      simp only [failureOf]
      -- Closing the attempt adds none.
      have hsize (c : Cursor) : (Session.left { t with cursor := c } s.trail.size t.cursor.position
          true shape).trail.size = t.trail.size := (Session.sameStarts_left _ _ _ _ _).size
      rw [hsize]
      cases hf : f.isRecoverable with
      | true =>
        refine .mild fun e he => ?_
        rcases List.mem_append.mp he with he | he
        · refine hsettled.all_mild (fun f' t' hf' ho => ?_) e he
          cases ho
          rw [hf] at hf'
          cases hf'
        · rw [List.mem_singleton.mp he]
          rintro _ ⟨⟩
          exact hf
      | false =>
        cases hsettled with
        | mild hlog =>
          let e : RunEnd := ⟨s.depth, some f, t.trail.size⟩
          exact .final (e := e) 1 hlog rfl hf rfl (hsize _)
        | @final earlier e f' t' n hearlier he hf' ho hattempts =>
          cases ho
          have hlast : (⟨s.depth, some f, t.trail.size⟩ : RunEnd) = { e with depth := s.depth } := by
            rw [hattempts, ← he]
          rw [List.append_assoc, hlast]
          have hconcat := e.enclosing_concat s.depth n
          change Settled _ _ (earlier ++ (e.enclosing (s.depth + 1) n ++ _))
          rw [hconcat]
          exact .final (n + 1) hearlier he hf rfl ((hsize _).trans hattempts)
    · rw [hout] at hsettled
      simp only [failureOf]
      refine .mild fun e he => ?_
      rcases List.mem_append.mp he with he | he
      · exact hsettled.all_mild (fun f t hf ho => nomatch ho) e he
      · rw [List.mem_singleton.mp he]
        rintro _ ⟨⟩

end Tells

/-- Sessions with a log go like sessions. -/
theorem simulation_logged :
    Engine.Simulation loggedEngine sessionEngine (fun (_ : Unit) m n => m = n)
      (fun _ _ x y => Tells x y) where
  pure v := .of fun _ => kept_level.pure v
  bind := .bind
  map f h := h.bind fun v => .of fun _ => kept_level.pure (f v)
  here h := Tells.bind (.of fun _ => kept_level.here fun b' => kept_level.pure b')
    fun v => h () v v rfl
  returnTo := by
    rintro _ m _ rfl
    exact .of fun _ => kept_level.returnTo (b := m)
  read n := .of fun _ => kept_level.read n
  readChar := .of fun _ => kept_level.readChar
  peek n := .of fun _ => kept_level.peek n
  atEnd := .of fun _ => kept_level.atEnd
  expected := by
    rintro _ m _ β label rfl
    exact .of fun _ => kept_level.throw _
  expectedFound := by
    rintro _ m _ β label found rfl
    exact .of fun _ => kept_level.throw _
  reject := by
    rintro _ m _ β reason rfl
    exact .of fun _ => kept_level.bind (kept_level.reject (b := m) reason) fun f =>
      kept_level.throw f
  outOfFuel := .of fun _ => .halt _
  limitExceeded := .of fun _ => .halt _
  rulePending := .of fun _ => .halt _
  ruleDropped := .of fun _ => .halt _
  recover := .recover
  cut := .cut
  lookahead h := (h ()).lookahead

/-- A run of a parser with a log has the outcome of the run, and its log is settled. -/
theorem tells_logged {α : Type} (g : Grammar Empty α) (fuel : Nat) (p : Parser Empty α) :
    Tells (p.logged g fuel) (p.run g fuel) := by
  rw [← run_sessionEngine]
  exact simulation_logged.run (fun label shape _ _ h _ => (h ()).recorded label shape)
    (fun _ _ _ key => key.elim) fuel p ()

end ParseTrail
