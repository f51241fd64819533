import ParseTrail.Proofs.Session.Closed
import ParseTrail.Proofs.Session.Limit

/-!
# Room for nesting

How deep the parsers that a parser is made of nest can be told from the parser, as long as it comes
to no rule and to no procedure. Where the limit of a session leaves room for that much, there might
as well be no limit:

- `Parser.Nests`: the parsers that nest no deeper than a given number;
- `Action.fits_run`: such a parser does not look at a limit that leaves it room;
- `exists_outcome_of_hasRoom`: what it comes to under no limit, it comes to with room.
-/

namespace ParseTrail

variable {κ α β γ : Type} {depth limit n : Nat}

/-- The session leaves room for attempts to nest `n` deeper. -/
def Session.HasRoom (n : Nat) (s : Session) : Prop :=
  s.maxDepth = 0 ∨ s.depth + n ≤ s.maxDepth

/-- The matcher is a rule or a procedure, and has no say itself in what it matches. -/
def Matcher.Refers : Matcher κ α → Prop
  | .rule _ | .procedure _ => True
  | _ => False

/-- The attempts of a parser nest no deeper than `n`, its own included. It comes to no rule and no
procedure. -/
def Parser.Nests : Nat → Parser κ α → Prop
  | 0, _ => False
  | n + 1, p => ¬p.matcher.Refers ∧ ∀ q ∈ p.matcher.parts, Nests n q

namespace Parser.Nests

variable {p q r : Parser κ α}

theorem of_none (hrefers : ¬r.matcher.Refers) (hparts : r.matcher.parts = []) : r.Nests (n + 1) :=
  ⟨hrefers, hparts ▸ List.forall_mem_nil _⟩

theorem of_one (hrefers : ¬r.matcher.Refers) (hparts : r.matcher.parts = [p]) (hp : p.Nests n) :
    r.Nests (n + 1) :=
  ⟨hrefers, hparts ▸ List.forall_mem_singleton.mpr hp⟩

theorem of_two (hrefers : ¬r.matcher.Refers) (hparts : r.matcher.parts = [p, q]) (hp : p.Nests n)
    (hq : q.Nests n) : r.Nests (n + 1) :=
  ⟨hrefers, hparts ▸ List.forall_mem_cons.mpr ⟨hp, List.forall_mem_singleton.mpr hq⟩⟩

end Parser.Nests

/-- At one depth and under one limit, an action comes to what it comes to under no limit. -/
structure Action.Fits (depth limit : Nat) (x : Action β) : Prop where
  follows : ∀ b, (shallow limit).Follows b x
  same : ∀ s, s.depth = depth → s.maxDepth = limit →
    outcome x (s.withLimit 0) = underLimit 0 (outcome x s)

namespace Action

variable {x : Action β}

/-! ### Actions -/

theorem Fits.of (hfollows : ∀ b, (shallow limit).Follows b x) (h : x.Unaware) :
    x.Fits depth limit :=
  ⟨hfollows, fun s _ _ => h s 0⟩

/-- At one depth, all but opening an attempt fits. -/
theorem closed_fits (hle : depth ≤ limit) :
    Closed fun {β} (x : Action β) => x.Fits depth limit where
  pure v := .of (fun _ => (kept_shallow limit).pure v) (unaware_pure v)
  throw f := .of (fun _ => (kept_shallow limit).throw f) (unaware_throw f)
  halt h := .of (fun _ => .halt h) (unaware_halt h)
  position := .of (fun _ => (kept_shallow limit).here fun n => (kept_shallow limit).pure n)
    fun _ _ => rfl
  ofReading x := .of (fun _ => shallow_ofReading x) (unaware_ofReading x)
  reject offset label :=
    .of (fun _ => (kept_shallow limit).reject (b := offset) label) (unaware_reject offset label)
  bind {_ _ x f} hx hf := by
    refine ⟨fun b => (kept_shallow limit).bind (hx.follows b) fun v => (hf v).follows b,
      fun s hs hlimit => ?_⟩
    rw [outcome_bind, outcome_bind, hx.same s hs hlimit]
    rcases hout : outcome x s with h | ⟨f | v, t⟩
    · rfl
    · rfl
    · -- The rest begins at the same depth.
      obtain ⟨hdepth, hmax⟩ := hx.follows 0 s _ t ⟨hlimit, hs ▸ hle⟩ hout fun _ _ => id
      exact (hf v).same t (hdepth.trans hs) (hmax.trans hlimit)
  attempt {_ x} hx := by
    refine ⟨fun b s r t hs ht _ => ?_, fun s hs hlimit => ?_⟩
    · rw [outcome_attempt] at ht
      rcases hout : outcome x s with h | ⟨r', t'⟩
      · rw [hout] at ht
        cases ht
      · rw [hout] at ht
        cases ht
        exact hx.follows b s _ _ hs hout fun _ _ => id
    · rw [outcome_attempt, outcome_attempt, hx.same s hs hlimit]
      rcases outcome x s with h | ⟨r, t⟩
      · rfl
      · rfl

/-- An attempt goes one deeper, and comes back from there. -/
theorem Fits.recorded (hlt : depth < limit) (label : String) (shape : Shape)
    (hx : x.Fits (depth + 1) limit) : (recorded label shape x).Fits depth limit := by
  refine ⟨shallow_recorded (Nat.zero_lt_of_lt hlt) label shape hx.follows, fun s hs hlimit => ?_⟩
  subst hs hlimit
  have hroom : ¬(s.maxDepth ≠ 0 ∧ s.depth ≥ s.maxDepth) := fun h => Nat.not_le_of_lt hlt h.2
  have hfree : ¬((s.withLimit 0).maxDepth ≠ 0 ∧ (s.withLimit 0).depth ≥ (s.withLimit 0).maxDepth) :=
    fun h => h.1 rfl
  have hsame : outcome x ((s.withLimit 0).entered label shape.anchor) =
      underLimit 0 (outcome x (s.entered label shape.anchor)) :=
    hx.same (s.entered label shape.anchor) rfl rfl
  rw [outcome_recorded, outcome_recorded, if_neg hroom, if_neg hfree, hsame]
  rcases outcome x (s.entered label shape.anchor) with h | ⟨f | v, t⟩
  · rfl
  · -- After a failure the cursor goes back, whatever the limit is.
    have hback : (t.withLimit 0).cursor.returnTo (s.withLimit 0).cursor.position =
        t.cursor.returnTo s.cursor.position := rfl
    dsimp only [underLimit]
    rw [hback]
    rcases t.cursor.returnTo s.cursor.position with cause | d
    · rfl
    · rfl
  · rfl

/-! ### Parsers -/

/-- A parser does not look at a limit that leaves room for its attempts. -/
theorem fits_run (g : Grammar κ α) (fuel : Nat) {p : Parser κ α} (hp : p.Nests n)
    (hroom : depth + n ≤ limit) : (p.run g fuel).Fits depth limit := by
  -- By induction on how deep attempts nest: the parts of a parser are run one deeper.
  induction n generalizing depth p fuel with
  | zero => exact hp.elim
  | succ n ih =>
    obtain ⟨hrefers, hparts⟩ := hp
    cases fuel with
    | zero => exact (closed_fits (Nat.le_of_add_right_le hroom)).halt .outOfFuel
    | succ fuel =>
      refine Fits.recorded (by omega) p.label p.shape ?_
      rw [← perform_sessionEngine]
      exact (closed_fits (by omega)).simulation.perform_alone p.matcher
        (fun q hq _ => ih fuel (hparts q hq) (by omega))
        (fun key _ hkey _ => absurd (by rw [hkey]; trivial) hrefers)
        (fun key hkey => absurd (by rw [hkey]; trivial) hrefers) fuel ()

end Action

/-- What a parser comes to under no limit, it comes to in a session that leaves it room, with its
cursor at the same place. -/
theorem exists_outcome_of_hasRoom {g : Grammar κ α} {fuel : Nat} {p : Parser κ α} {s t' : Session}
    {r : Except Failure (Value α)} (hp : p.Nests n) (hs : s.HasRoom n)
    (h : outcome (p.run g fuel) (s.withLimit 0) = .ok (r, t')) :
    ∃ t, outcome (p.run g fuel) s = .ok (r, t) ∧ t.cursor = t'.cursor := by
  rcases hs with hfree | hroom
  · have hself : s.withLimit 0 = s := by rw [Session.withLimit, ← hfree]
    rw [hself] at h
    exact ⟨t', h, rfl⟩
  · rw [(Action.fits_run g fuel hp hroom).same s rfl rfl] at h
    rcases hout : outcome (p.run g fuel) s with halt | ⟨r', t⟩
    · rw [hout] at h
      cases h
    · rw [hout] at h
      cases h
      exact ⟨t, rfl, rfl⟩

end ParseTrail
