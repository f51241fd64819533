import ParseTrail.Proofs.Session.Log
import ParseTrail.Proofs.Session.Moments

/-!
# The limit of depth

Only the opening of an attempt looks at the limit of a session. Under two limits of which the second
is no stricter, an action thus comes to the same, unless an attempt under the first would nest too
deep; and then the failure that says so goes through everything around it.

- `strict_shallow`: below a limit, sessions stay below it;
- `simulation_transparent`: the ways of putting actions together let the limit through, up to its
  failure;
- `transparent_run`: so do parsers.
-/

namespace ParseTrail

variable {β γ : Type}

/-! ### Below the limit -/

/-- Sessions that nest no deeper than their limit, and stay at one depth and under one limit. -/
def shallow (limit : Nat) : Course where
  ready _ s := s.maxDepth = limit ∧ s.depth ≤ limit
  leads s t := t.depth = s.depth ∧ t.maxDepth = s.maxDepth
  excuses _ := False

section

variable {limit b : Nat} {s : Session}

/-- What happens to the cursor only does not change the depth. -/
theorem shallow_ofReading (x : Reading β) : (shallow limit).Follows b (Action.ofReading x) := by
  intro s r t _ ht _
  rw [outcome_ofReading] at ht
  split at ht
  · cases ht
  · cases ht
    exact ⟨rfl, rfl⟩

/-- So it is with an operation whose answer is passed on. -/
theorem shallow_ask {request : Cursor.Request} {reply : request.Reply → Except SourceError β} :
    (shallow limit).Follows b (Action.ask request >>= fun told => Action.ofSource (reply told)) :=
  Course.follows_ofSource fun _ _ _ _ _ _ => ⟨rfl, rfl⟩

/-- The primitive actions stay at their depth. -/
theorem kept_shallow (limit : Nat) : (shallow limit).Kept where
  refl _ := ⟨rfl, rfl⟩
  trans hst htu := ⟨htu.1.trans hst.1, htu.2.trans hst.2⟩
  ready_of_leads hs hst := ⟨hst.2.trans hs.1, hst.1 ▸ hs.2⟩
  narrow := id
  excuses_commit := id
  not_excuses _ := id
  read _ := shallow_ask
  readChar := shallow_ask
  peek _ := shallow_ask
  atEnd := shallow_ask
  returnTo := shallow_ofReading _
  reject label := by
    intro s r t _ ht _
    rw [outcome_reject] at ht
    cases ht
    exact ⟨rfl, rfl⟩

/-- Where the limit allows an attempt, it is not deeper than the limit. -/
theorem ready_entered_shallow (hlimit : 0 < limit) (hs : (shallow limit).ready b s)
    (hdeep : ¬(s.maxDepth ≠ 0 ∧ s.depth ≥ s.maxDepth)) (label : String) (anchor : Bool) :
    (shallow limit).ready b (s.entered label anchor) := by
  obtain ⟨rfl, _⟩ := hs
  have hlt : s.depth < s.maxDepth :=
    Nat.lt_of_not_le fun hle => hdeep ⟨Nat.ne_of_gt hlimit, hle⟩
  exact ⟨rfl, hlt⟩

/-- A recorded action comes back to the depth where it began. -/
theorem shallow_recorded (hlimit : 0 < limit) (label : String) (shape : Shape) {x : Action β}
    (hx : ∀ b, (shallow limit).Follows b x) (b : Nat) :
    (shallow limit).Follows b (Action.recorded label shape x) := by
  intro s r u hs hu _
  by_cases hdeep : s.maxDepth ≠ 0 ∧ s.depth ≥ s.maxDepth
  · rw [outcome_recorded, if_pos hdeep] at hu
    cases hu
    exact ⟨rfl, rfl⟩
  · have hentered := ready_entered_shallow hlimit hs hdeep label shape.anchor
    cases recorded_of_outcome hu with
    | tooDeep h => exact absurd h hdeep
    | matched ht =>
      obtain ⟨hdepth, hmax⟩ := hx b _ _ _ hentered ht fun _ _ => id
      exact ⟨Nat.sub_eq_of_eq_add hdepth, hmax⟩
    | failed ht _ =>
      obtain ⟨hdepth, hmax⟩ := hx b _ _ _ hentered ht fun _ _ => id
      exact ⟨Nat.sub_eq_of_eq_add hdepth, hmax⟩

/-- At every moment of a computation, a session below its limit is below it. -/
theorem strict_shallow (hlimit : 0 < limit) : (shallow limit).Strict where
  kept := kept_shallow limit
  no_excuse _ := id
  recorded := shallow_recorded hlimit
  entered label anchor hs hdeep :=
    ⟨_, ready_entered_shallow hlimit hs hdeep label anchor⟩

end

/-! ### Under another limit -/

/-- A session under another limit. -/
def Session.withLimit (limit : Nat) (s : Session) : Session :=
  { s with maxDepth := limit }

/-- An outcome whose session is under another limit. -/
def underLimit (limit : Nat) :
    Except Halt (Except Failure β × Session) → Except Halt (Except Failure β × Session)
  | .error h => .error h
  | .ok (r, t) => .ok (r, t.withLimit limit)

/-- An action that does not look at the limit. -/
def Action.Unaware (x : Action β) : Prop :=
  ∀ s limit, outcome x (s.withLimit limit) = underLimit limit (outcome x s)

namespace Action

/-- Actions in sequence do not look at the limit if none of them does. -/
theorem Unaware.bind {x : Action β} {f : β → Action γ} (hx : x.Unaware)
    (hf : ∀ v, (f v).Unaware) : Unaware (x >>= f) := by
  intro s limit
  rw [outcome_bind, outcome_bind, hx]
  rcases outcome x s with h | ⟨f | v, t⟩
  · rfl
  · rfl
  · exact hf v t limit

/-- A value needs no limit. -/
theorem unaware_pure (v : β) : Unaware (pure v : Action β) := fun _ _ => rfl

/-- A failure needs none. -/
theorem unaware_throw (f : Failure) : Unaware (throw f : Action β) := fun _ _ => rfl

/-- A halt is the same under all limits. -/
theorem unaware_halt (h : Halt) : Unaware (throwThe Halt h : Action β) := fun _ _ => rfl

/-- The cursor knows of no limit. -/
theorem unaware_ofReading (x : Reading β) : Unaware (ofReading x) := by
  intro s limit
  rw [outcome_ofReading, outcome_ofReading, Session.withLimit]
  rcases x.run s.cursor with h | ⟨v, d⟩
  · rfl
  · rfl

/-- Answers of the source are passed on under all limits. -/
theorem unaware_ofSource (r : Except SourceError β) : Unaware (ofSource r) := by
  intro s limit
  rw [outcome_ofSource, outcome_ofSource]
  rcases r with e | v
  · rfl
  · rfl

/-- An attempt that fails at once is recorded however deep it is. -/
theorem unaware_reject (offset : Nat) (label : String) : Unaware (reject offset label) := by
  intro s limit
  rw [outcome_reject, outcome_reject]
  rfl

end Action

/-! ### Transparency -/

/-- An attempt would have nested too deep for the limit. -/
def Exceeds (limit : Nat) (o : Except Halt (Except Failure β × Session)) : Prop :=
  ∃ t, o = .ok (.error (.tooDeep (limit + 1) limit), t)

/-- Under one limit an action comes to what it comes to under another, unless the first limit is
exceeded. -/
structure Action.Transparent (limit limit' : Nat) (x : Action β) : Prop where
  follows_level : ∀ b, level.Follows b x
  follows_shallow : ∀ b, (shallow limit).Follows b x
  same : ∀ s, level.ready 0 s → (shallow limit).ready 0 s →
    Exceeds limit (outcome x s) ∨ outcome x (s.withLimit limit') = underLimit limit' (outcome x s)

namespace Action

variable {limit limit' : Nat} {x : Action β}

/-- What stays at its depth and does not look at the limit comes to the same under another. -/
theorem Transparent.of (hlevel : ∀ b, level.Follows b x)
    (hshallow : ∀ b, (shallow limit).Follows b x) (h : x.Unaware) : x.Transparent limit limit' :=
  ⟨hlevel, hshallow, fun s _ _ => .inr (h s limit')⟩

/-- A value is the same under all limits. -/
theorem transparent_pure (v : β) : Transparent limit limit' (pure v : Action β) :=
  .of (fun _ => kept_level.pure v) (fun _ => (kept_shallow limit).pure v) (unaware_pure v)

/-- So is a failure. -/
theorem transparent_throw (f : Failure) : Transparent limit limit' (throw f : Action β) :=
  .of (fun _ => kept_level.throw f) (fun _ => (kept_shallow limit).throw f) (unaware_throw f)

/-- So is a halt. -/
theorem transparent_halt (h : Halt) : Transparent limit limit' (throwThe Halt h : Action β) :=
  .of (fun _ => .halt h) (fun _ => .halt h) (unaware_halt h)

/-- So is the place of the cursor. -/
theorem transparent_position : Transparent limit limit' position :=
  .of (fun _ => kept_level.here fun n => kept_level.pure n)
    (fun _ => (kept_shallow limit).here fun n => (kept_shallow limit).pure n) fun _ _ => rfl

/-- An operation on the cursor whose answer is passed on. -/
theorem transparent_ask {request : Cursor.Request} {reply : request.Reply → Except SourceError β} :
    Transparent limit limit' (ask request >>= fun told => ofSource (reply told)) :=
  .of (fun _ => level_ask) (fun _ => shallow_ask)
    ((unaware_ofReading _).bind fun told => unaware_ofSource (reply told))

/-- The way back is the same under all limits. -/
theorem transparent_returnTo (offset : Nat) : Transparent limit limit' (returnTo offset) :=
  .of (fun _ => kept_level.returnTo (b := offset)) (fun _ => shallow_ofReading _)
    (unaware_ofReading _)

/-- An attempt that fails at once is the same, too. -/
theorem transparent_reject (offset : Nat) (label : String) :
    Transparent limit limit' (reject offset label) :=
  .of (fun _ => kept_level.reject (b := offset) label)
    (fun _ => (kept_shallow limit).reject (b := offset) label) (unaware_reject offset label)

/-- In a sequence the limit is exceeded in the first part, or in the rest, or not at all. -/
theorem Transparent.bind {f : β → Action γ} (hx : x.Transparent limit limit')
    (hf : ∀ v, (f v).Transparent limit limit') : Transparent limit limit' (x >>= f) := by
  refine ⟨fun b => kept_level.bind (hx.follows_level b) fun v => (hf v).follows_level b,
    fun b => (kept_shallow limit).bind (hx.follows_shallow b) fun v => (hf v).follows_shallow b,
    fun s hs hlow => ?_⟩
  rcases hx.same s hs hlow with ⟨t, ht⟩ | hsame
  · refine .inl ⟨t, ?_⟩
    rw [outcome_bind, ht]
  · rw [outcome_bind, outcome_bind, hsame]
    rcases hout : outcome x s with h | ⟨f | v, t⟩
    · exact .inr rfl
    · exact .inr rfl
    · -- The rest begins below the limit as well.
      have hlevel := hx.follows_level 0 s _ t hs hout fun _ _ => id
      have hshallow := hx.follows_shallow 0 s _ t hlow hout fun _ _ => id
      exact (hf v).same t (kept_level.ready_of_leads hs hlevel)
        ((kept_shallow limit).ready_of_leads hlow hshallow)

/-- A limit that is exceeded cannot be absorbed. -/
theorem Transparent.recover (hx : x.Transparent limit limit') :
    (recover x).Transparent limit limit' := by
  refine ⟨fun b => kept_level.recover (hx.follows_level b),
    fun b => (kept_shallow limit).recover (hx.follows_shallow b), fun s hs hlow => ?_⟩
  rw [outcome_recover, outcome_recover]
  rcases hx.same s hs hlow with ⟨t, ht⟩ | hsame
  · -- A parse that nests too deep is not a failure to recover from.
    rw [ht]
    exact .inl ⟨t, rfl⟩
  · refine .inr ?_
    rw [hsame]
    rcases outcome x s with h | ⟨f | v, t⟩
    · rfl
    · simp only [underLimit]
      split
      · rfl
      · rfl
    · rfl

/-- It cannot be committed either. -/
theorem Transparent.cut (hx : x.Transparent limit limit') : (cut x).Transparent limit limit' := by
  refine ⟨fun b => kept_level.cut (hx.follows_level b),
    fun b => (kept_shallow limit).cut (hx.follows_shallow b), fun s hs hlow => ?_⟩
  rw [outcome_cut, outcome_cut]
  rcases hx.same s hs hlow with ⟨t, ht⟩ | hsame
  · rw [ht]
    exact .inl ⟨t, rfl⟩
  · refine .inr ?_
    rw [hsame]
    rcases outcome x s with h | ⟨f | v, t⟩
    · rfl
    · rfl
    · rfl

/-- The way back after a look ahead is the same under all limits. -/
theorem Transparent.lookahead (hx : x.Transparent limit limit') :
    (lookahead x).Transparent limit limit' := by
  refine ⟨fun b => kept_level.lookahead hx.follows_level,
    fun b => (kept_shallow limit).lookahead hx.follows_shallow, fun s hs hlow => ?_⟩
  have hs' : level.ready 0 (s.withLimit limit') := hs
  rw [outcome_lookahead hs (hx.follows_level 0), outcome_lookahead hs' (hx.follows_level 0)]
  rcases hx.same s hs hlow with ⟨t, ht⟩ | hsame
  · rw [ht]
    exact .inl ⟨_, rfl⟩
  · refine .inr ?_
    rw [hsame]
    rcases outcome x s with h | ⟨r, t⟩
    · rfl
    · rfl

/-- An attempt is the only thing that the limit may prevent. -/
theorem Transparent.recorded (hlimit : 0 < limit) (hle : limit' = 0 ∨ limit ≤ limit')
    (label : String) (shape : Shape) (hx : x.Transparent limit limit') :
    (recorded label shape x).Transparent limit limit' := by
  refine ⟨level_recorded label shape hx.follows_level,
    shallow_recorded hlimit label shape hx.follows_shallow, fun s hs hlow => ?_⟩
  -- Either the limit prevents the attempt, or neither the lower nor the higher one does.
  by_cases hdeep : s.maxDepth ≠ 0 ∧ s.depth ≥ s.maxDepth
  · obtain ⟨rfl, hdepth⟩ := hlow
    refine .inl ⟨s, ?_⟩
    rw [outcome_recorded, if_pos hdeep, Nat.le_antisymm hdepth hdeep.2]
  · have hentered := ready_entered_shallow hlimit hlow hdeep label shape.anchor
    have hdeep' : ¬((s.withLimit limit').maxDepth ≠ 0 ∧
        (s.withLimit limit').depth ≥ (s.withLimit limit').maxDepth) := by
      rintro ⟨hne, hge⟩
      have hlt : s.depth < limit := hentered.2
      exact hle.elim hne fun hle => Nat.not_le_of_lt hlt (Nat.le_trans hle hge)
    have hs' : level.ready 0 (s.withLimit limit') := hs
    have hsame := hx.same _ (show level.ready 0 (s.entered label shape.anchor) from hs) hentered
    rw [outcome_recorded_of_follows label shape hs hdeep (hx.follows_level 0),
      outcome_recorded_of_follows label shape hs' hdeep' (hx.follows_level 0)]
    rcases hsame with ⟨t, ht⟩ | hsame
    · -- The cursor goes back, the attempt is closed, and the failure stays what it is.
      rw [ht]
      exact .inl ⟨_, rfl⟩
    · have hstart : (s.withLimit limit').entered label shape.anchor =
          (s.entered label shape.anchor).withLimit limit' := rfl
      refine .inr ?_
      rw [hstart, hsame]
      rcases outcome x (s.entered label shape.anchor) with h | ⟨f | v, t⟩
      · rfl
      · rfl
      · rfl

/-- All ways of putting actions together let the limit through. -/
theorem simulation_transparent (limit limit' : Nat) :
    Engine.Simulation sessionEngine sessionEngine (fun (_ : Unit) m n => m = n)
      (fun _ _ x _ => x.Transparent limit limit') where
  pure := transparent_pure
  bind hx hf := hx.bind hf
  map f h := h.bind fun v => transparent_pure (f v)
  here h := transparent_position.bind fun n => h () n n rfl
  returnTo {_ m _} _ := transparent_returnTo m
  read _ := transparent_ask
  readChar := transparent_ask
  peek _ := transparent_ask
  atEnd := transparent_ask
  expected _ _ := transparent_throw _
  expectedFound _ _ _ := transparent_throw _
  reject reason _ := (transparent_reject _ reason).bind fun f => transparent_throw f
  outOfFuel := transparent_halt _
  limitExceeded := transparent_halt _
  rulePending := transparent_halt _
  ruleDropped := transparent_halt _
  recover h := h.recover
  cut h := h.cut
  lookahead h := (h ()).lookahead

/-- Parsers without procedures let the limit through. -/
theorem transparent_run {α : Type} (hlimit : 0 < limit) (hle : limit' = 0 ∨ limit ≤ limit')
    (g : Grammar Empty α) (fuel : Nat) (p : Parser Empty α) :
    (p.run g fuel).Transparent limit limit' := by
  rw [← run_sessionEngine]
  exact (simulation_transparent limit limit').run_alone
    (fun label shape _ hx _ => (hx ()).recorded hlimit hle label shape)
    (fun _ _ key => key.elim) fuel p ()

end Action

end ParseTrail
