import ParseTrail.Proofs.Meaning.Alternatives
import ParseTrail.Proofs.Session.Blind
import ParseTrail.Proofs.Session.Fuel

/-!
# Trying alternatives

Where parsers are blind, what they come to is a matter of the cursor. What a list of alternatives
comes to can then be told from what its alternatives give there: nothing depends on how deep these
are nested, and one that fails is back where it began. So it is of no account how a list is grouped.

- `outcomeAt_recorded`, `outcomeAt_firstOf_cons`: what actions come to at a cursor;
- `gives_choice_iff`: what a list of alternatives gives, as it is tried;
- `tried_spread`: a list is tried as it is when it is spread out.
-/

namespace ParseTrail

variable {κ α β : Type}

/-! ### Outcomes at a cursor -/

/-- An outcome without the depth and the trail after it. -/
def atCursor : Except Halt (Except Failure β × Session) → Except Halt (Except Failure β × Cursor)
  | .error h => .error h
  | .ok (r, t) => .ok (r, t.cursor)

/-- What an action comes to at a cursor, without a limit. -/
def outcomeAt (x : Action β) (c : Cursor) : Except Halt (Except Failure β × Cursor) :=
  atCursor (outcome x (Session.start c {}))

section

variable {x y : Action β}

/-- A blind action comes to the same in all sessions at a cursor. -/
theorem Action.Blind.atCursor_eq (hx : x.Blind) {s : Session} (hs : s.maxDepth = 0) :
    atCursor (outcome x s) = outcomeAt x s.cursor := by
  have hagree := hx s (Session.start s.cursor {}) ⟨rfl, hs, rfl⟩
  rw [outcomeAt]
  generalize outcome x s = o, outcome x (Session.start s.cursor {}) = p at hagree ⊢
  rcases hagree with _ | ⟨rfl | rfl, hcursor, -, -⟩
  · rfl
  · rw [atCursor, atCursor, hcursor]
  · rw [atCursor, atCursor, hcursor]

/-- A blind action leaves a session without a limit. -/
theorem Action.Blind.maxDepth_eq (hx : x.Blind) {s t : Session} {r : Except Failure β}
    (hs : s.maxDepth = 0) (h : outcome x s = .ok (r, t)) : t.maxDepth = 0 := by
  have hagree := hx s s ⟨rfl, hs, hs⟩
  rw [h] at hagree
  rcases hagree with _ | ⟨-, -, ht, -⟩
  exact ht

/-- More fuel makes no difference at a cursor either. -/
theorem Action.Refuelled.outcomeAt_eq (hxy : x.Refuelled y) (c : Cursor) :
    outcomeAt x c = .error .outOfFuel ∨ outcomeAt y c = outcomeAt x c := by
  rcases hxy (Session.start c {}) with hfuel | hsame
  · exact .inl (by rw [outcomeAt, hfuel, atCursor])
  · exact .inr (by rw [outcomeAt, hsame, outcomeAt])

/-- After a failure the cursor goes back to where another was. -/
def backAfter (c : Cursor) :
    Except Halt (Except Failure β × Cursor) → Except Halt (Except Failure β × Cursor)
  | .ok (.error f, d) =>
    match d.returnTo c.position with
    | .error cause => .error (.fault cause)
    | .ok e => .ok (.error f, e)
  | o => o

/-- To record an action that does not look at the trail is to go back if it fails. -/
theorem outcomeAt_recorded (label : String) (shape : Shape) (hx : x.Blind) (c : Cursor) :
    outcomeAt (Action.recorded label shape x) c = backAfter c (outcomeAt x c) := by
  have hentered := hx.atCursor_eq (s := (Session.start c {}).entered label shape.anchor) rfl
  have hcursor : ((Session.start c {}).entered label shape.anchor).cursor = c := rfl
  rw [hcursor] at hentered
  rw [← hentered, outcomeAt, outcome_recorded, if_neg fun h => h.1 rfl]
  have hstart : (Session.start c {}).cursor = c := rfl
  rw [hstart]
  rcases outcome x ((Session.start c {}).entered label shape.anchor) with h | ⟨f | v, t⟩
  · rfl
  · dsimp only [atCursor, backAfter]
    rcases t.cursor.returnTo c.position with cause | d <;> rfl
  · rfl

/-- Where the cursor is after a recoverable failure, something else is tried. -/
def orTry (next : Cursor → Except Halt (Except Failure β × Cursor)) :
    Except Halt (Except Failure β × Cursor) → Except Halt (Except Failure β × Cursor)
  | .ok (.error f, d) => if f.isRecoverable then next d else .ok (.error f, d)
  | o => o

/-- The other alternatives are tried where the cursor is after the first. -/
theorem outcomeAt_firstOf_cons {label : String} {xs : List (Action β)} (hx : x.Blind)
    (hxs : (Action.firstOf label xs).Blind) (c : Cursor) :
    outcomeAt (Action.firstOf label (x :: xs)) c =
      orTry (outcomeAt (Action.firstOf label xs)) (outcomeAt x c) := by
  rw [outcomeAt, Action.firstOf, outcome_bind, outcome_recover, outcomeAt]
  rcases hout : outcome x (Session.start c {}) with h | ⟨f | v, t⟩
  · rfl
  · dsimp only [atCursor, orTry]
    by_cases hf : f.isRecoverable
    · rw [if_pos hf, if_pos hf]
      exact hxs.atCursor_eq (hx.maxDepth_eq rfl hout)
    · rw [if_neg hf, if_neg hf]
  · rfl

end

/-! ### What parsers give -/

/-- A cursor is back where another is, within the text that it keeps. -/
structure Cursor.BackAt (d c : Cursor) : Prop where
  position : d.position = c.position
  inBounds : d.InBounds

/-- Where a cursor is back, going back changes nothing. -/
theorem Cursor.BackAt.returnTo {c d : Cursor} (h : d.BackAt c) : d.returnTo c.position = .ok d := by
  rw [← h.position]
  exact (Extends.refl h.inBounds).returnTo h.inBounds

/-- Going back leads back. -/
theorem Cursor.backAt_of_returnTo {c d e : Cursor} (h : d.returnTo c.position = .ok e) :
    e.BackAt c := by
  refine ⟨position_returnTo h, ?_⟩
  rw [Cursor.returnTo, moveTo] at h
  split at h
  · next hin =>
    cases h
    exact hin.2
  · cases h

/-- What a cursor comes back with stays as it is if it goes back once more. -/
theorem backAfter_of_backAt {c : Cursor} {o : Except Halt (Except Failure β × Cursor)}
    (h : ∀ f d, o = .ok (.error f, d) → d.BackAt c) : backAfter c o = o := by
  rcases o with halt | ⟨f | v, d⟩
  · rfl
  · rw [backAfter, (h f d rfl).returnTo]
  · rfl

/-- With fuel that suffices, a parser comes to an outcome at a cursor. -/
def Parser.Gives (g : Grammar κ α) (p : Parser κ α) (c : Cursor)
    (o : Except Halt (Except Failure (Value α) × Cursor)) : Prop :=
  o ≠ .error .outOfFuel ∧ ∃ fuel, outcomeAt (p.run g fuel) c = o

variable {g : Grammar κ α} {p : Parser κ α} {c d : Cursor}
  {o o' : Except Halt (Except Failure (Value α) × Cursor)}

namespace Parser.Gives

/-- What a parser gives it gives with all fuel from some amount on. -/
theorem eventually (h : p.Gives g c o) :
    ∃ fuel, ∀ fuel', fuel ≤ fuel' → outcomeAt (p.run g fuel') c = o := by
  obtain ⟨hne, fuel, rfl⟩ := h
  exact ⟨fuel, fun fuel' hle => ((run_refuelled g hle p).outcomeAt_eq c).resolve_left hne⟩

/-- So it gives one thing only. -/
theorem unique (h : p.Gives g c o) (h' : p.Gives g c o') : o = o' := by
  obtain ⟨fuel, hfuel⟩ := h.eventually
  obtain ⟨fuel', hfuel'⟩ := h'.eventually
  rw [← hfuel (max fuel fuel') (Nat.le_max_left ..), hfuel' _ (Nat.le_max_right ..)]

end Parser.Gives

/-- What a run in a session comes to, the parser gives where the session is. -/
theorem Parser.gives_of_outcome (hg : g.Discreet) {s : Session} (hs : s.maxDepth = 0) {fuel : Nat}
    (h : outcome (p.run g fuel) s ≠ .error .outOfFuel) :
    p.Gives g s.cursor (atCursor (outcome (p.run g fuel) s)) := by
  refine ⟨fun hfuel => h ?_, fuel, ((blind_run hg fuel p).atCursor_eq hs).symm⟩
  rcases hout : outcome (p.run g fuel) s with halt | ⟨r, t⟩
  · rw [hout] at hfuel
    exact congrArg Except.error (Except.error.inj hfuel)
  · rw [hout] at hfuel
    cases hfuel

/-- What it gives it also comes to in a session without a limit. -/
theorem Parser.Gives.exists_outcome (hg : g.Discreet) {s : Session} (hs : s.maxDepth = 0)
    (h : p.Gives g s.cursor o) : ∃ fuel, outcome (p.run g fuel) s ≠ .error .outOfFuel := by
  obtain ⟨hne, fuel, rfl⟩ := h
  refine ⟨fuel, fun hfuel => hne ?_⟩
  rw [← (blind_run hg fuel p).atCursor_eq hs, hfuel, atCursor]

/-- To run a parser is to perform its matcher and to go back if that fails. -/
theorem outcomeAt_run_succ (hg : g.Discreet) (fuel : Nat) (p : Parser κ α) (c : Cursor) :
    outcomeAt (p.run g (fuel + 1)) c =
      backAfter c (outcomeAt (p.matcher.perform g (Parser.run g fuel) fuel) c) :=
  outcomeAt_recorded p.label p.shape (blind_matcher hg fuel p.matcher) c

/-- A parser that fails is back where it began. -/
theorem Parser.Gives.backAt (hg : g.Discreet) {f : Failure} (h : p.Gives g c (.ok (.error f, d))) :
    d.BackAt c := by
  obtain ⟨-, fuel, hrun⟩ := h
  cases fuel with
  | zero => cases hrun
  | succ fuel =>
    rw [outcomeAt_run_succ hg] at hrun
    unfold backAfter at hrun
    split at hrun
    · split at hrun
      · cases hrun
      · next hreturn =>
        cases hrun
        exact Cursor.backAt_of_returnTo hreturn
    · next hother => exact absurd hrun (hother f d)

/-! ### Trying -/

/-- Nothing else is tried after this result. -/
def Decides : Except Failure β → Prop
  | .ok _ => True
  | .error f => ¬f.isRecoverable

/-- What comes of trying alternatives. -/
inductive Trial (α : Type) where
  /-- One of them has no answer. -/
  | halted (h : Halt)
  /-- One of them decides. -/
  | decided (r : Except Failure (Value α)) (d : Cursor)
  /-- None of them does. -/
  | declined (d : Cursor)

/-- What a list of alternatives gives after they were tried from an offset on. -/
def Trial.outcome (label : String) (offset : Nat) :
    Trial α → Except Halt (Except Failure (Value α) × Cursor)
  | .halted h => .error h
  | .decided r d => .ok (r, d)
  | .declined d => .ok (.error (.expected { offset, label }), d)

/-- Alternatives are tried one after another, each where the one before is back. -/
inductive Tried (g : Grammar κ α) : List (Parser κ α) → Cursor → Trial α → Prop
  | nil {c : Cursor} : Tried g [] c (.declined c)
  | halted {p : Parser κ α} {ps : List (Parser κ α)} {c : Cursor} {h : Halt} :
    p.Gives g c (.error h) → Tried g (p :: ps) c (.halted h)
  | decided {p : Parser κ α} {ps : List (Parser κ α)} {c d : Cursor}
    {r : Except Failure (Value α)} :
    p.Gives g c (.ok (r, d)) → Decides r → Tried g (p :: ps) c (.decided r d)
  | next {p : Parser κ α} {ps : List (Parser κ α)} {c d : Cursor} {f : Failure} {w : Trial α} :
    p.Gives g c (.ok (.error f, d)) → f.isRecoverable → Tried g ps d w → Tried g (p :: ps) c w

namespace Tried

variable {ps qs : List (Parser κ α)} {w : Trial α}

/-- What is decided was decided by a result after which nothing is tried. -/
theorem decides {r : Except Failure (Value α)} (h : Tried g ps c (.decided r d)) : Decides r := by
  generalize hw : Trial.decided r d = w at h
  induction h with
  | nil => cases hw
  | halted _ => cases hw
  | decided _ hr =>
    cases hw
    exact hr
  | next _ _ _ ih => exact ih hw

/-- Unless an alternative matches, all that were tried are back. -/
theorem backAt (hg : g.Discreet) (hc : c.InBounds) (h : Tried g ps c w) {label : String}
    {f : Failure} (hout : w.outcome label c.position = .ok (.error f, d)) : d.BackAt c := by
  induction h with
  | nil =>
    cases hout
    exact ⟨rfl, hc⟩
  | halted _ => cases hout
  | decided hp _ =>
    cases hout
    exact hp.backAt hg
  | next hp _ _ ih =>
    have hback := hp.backAt hg
    rw [← hback.position] at hout
    have hlast := ih hback.inBounds hout
    exact ⟨hlast.position.trans hback.position, hlast.inBounds⟩

/-- After alternatives that were all declined the cursor is within its text. -/
theorem inBounds (hg : g.Discreet) (hc : c.InBounds) (h : Tried g ps c (.declined d)) :
    d.InBounds :=
  (h.backAt hg hc (rfl : Trial.outcome "" c.position (.declined d) = _)).inBounds

end Tried

/-! ### Lists of alternatives -/

section

variable {label : String} {named : Bool} {shape : Shape} {ps arms : List (Parser κ α)}
  {w : Trial α}

/-- Parsers as alternatives are tried like all others. -/
theorem outcomeAt_firstOf_run (hg : g.Discreet) (label : String) (fuel : Nat) (p : Parser κ α)
    (ps : List (Parser κ α)) (c : Cursor) :
    outcomeAt (Action.firstOf label ((p :: ps).map (Parser.run g fuel))) c =
      orTry (outcomeAt (Action.firstOf label (ps.map (Parser.run g fuel))))
        (outcomeAt (p.run g fuel) c) := by
  have hps : (Action.firstOf label (ps.map (Parser.run g fuel))).Blind := by
    refine Action.closed_blind.firstOf label fun x hx => ?_
    obtain ⟨q, -, rfl⟩ := List.mem_map.1 hx
    exact blind_run hg fuel q
  exact outcomeAt_firstOf_cons (blind_run hg fuel p) hps c

/-- Alternatives that do not run out of fuel come to what comes of trying them. -/
theorem exists_tried_of_outcomeAt (hg : g.Discreet) {fuel : Nat}
    (h : outcomeAt (Action.firstOf label (ps.map (Parser.run g fuel))) c ≠ .error .outOfFuel) :
    ∃ w, Tried g ps c w ∧
      outcomeAt (Action.firstOf label (ps.map (Parser.run g fuel))) c =
        w.outcome label c.position := by
  induction ps generalizing c with
  | nil => exact ⟨.declined c, .nil, rfl⟩
  | cons p ps ih =>
    rw [outcomeAt_firstOf_run hg] at h ⊢
    rcases hp : outcomeAt (p.run g fuel) c with halt | ⟨f | v, d⟩
    · rw [hp] at h
      exact ⟨.halted halt, .halted ⟨h, fuel, hp⟩, rfl⟩
    · have hgives : p.Gives g c (.ok (.error f, d)) := ⟨nofun, fuel, hp⟩
      rw [hp] at h
      dsimp only [orTry] at h ⊢
      -- The next alternative is tried at the place where this one began.
      by_cases hf : f.isRecoverable
      · rw [if_pos hf] at h ⊢
        obtain ⟨w, hw, hout⟩ := ih h
        exact ⟨w, .next hgives hf hw, (hgives.backAt hg).position ▸ hout⟩
      · rw [if_neg hf]
        exact ⟨.decided (.error f) d, .decided hgives hf, rfl⟩
    · exact ⟨.decided (.ok v) d, .decided ⟨nofun, fuel, hp⟩ trivial, rfl⟩

/-- With enough fuel alternatives come to what comes of trying them. -/
theorem Tried.eventually (hg : g.Discreet) (h : Tried g ps c w) (label : String) :
    ∃ fuel, ∀ fuel', fuel ≤ fuel' →
      outcomeAt (Action.firstOf label (ps.map (Parser.run g fuel'))) c =
        w.outcome label c.position := by
  induction h with
  | nil => exact ⟨0, fun _ _ => rfl⟩
  | halted hp =>
    obtain ⟨fuel, hfuel⟩ := hp.eventually
    refine ⟨fuel, fun fuel' hle => ?_⟩
    rw [outcomeAt_firstOf_run hg, hfuel fuel' hle]
    rfl
  | @decided p ps c d r hp hr =>
    obtain ⟨fuel, hfuel⟩ := hp.eventually
    refine ⟨fuel, fun fuel' hle => ?_⟩
    rw [outcomeAt_firstOf_run hg, hfuel fuel' hle]
    rcases r with f | v
    · exact if_neg hr
    · rfl
  | next hp hf _ ih =>
    obtain ⟨fuel₁, hfuel₁⟩ := hp.eventually
    obtain ⟨fuel₂, hfuel₂⟩ := ih
    -- What suffices for this alternative and for those after it suffices for all.
    refine ⟨max fuel₁ fuel₂, fun fuel' hle => ?_⟩
    rw [outcomeAt_firstOf_run hg, hfuel₁ fuel' (Nat.le_trans (Nat.le_max_left ..) hle)]
    dsimp only [orTry]
    rw [if_pos hf, hfuel₂ fuel' (Nat.le_trans (Nat.le_max_right ..) hle), (hp.backAt hg).position]

/-- Alternatives that were tried did not run out of fuel. -/
theorem Tried.outcome_ne_outOfFuel (h : Tried g ps c w) {offset : Nat} :
    w.outcome label offset ≠ .error .outOfFuel := by
  induction h with
  | nil => exact nofun
  | halted hp => exact hp.1
  | decided _ _ => exact nofun
  | next _ _ _ ih => exact ih

/-- A list of alternatives gives what comes of trying them. -/
theorem gives_choice_iff (hg : g.Discreet) (hc : c.InBounds) :
    (Parser.mk label named shape (.choice arms)).Gives g c o ↔
      ∃ w, Tried g arms c w ∧ o = w.outcome (Matcher.armsLabel arms) c.position := by
  have hrun (fuel : Nat) :
      outcomeAt ((Parser.mk label named shape (.choice arms)).run g (fuel + 1)) c = backAfter c
        (outcomeAt (Action.firstOf (Matcher.armsLabel arms) (arms.map (Parser.run g fuel))) c) :=
    outcomeAt_run_succ hg fuel _ c
  constructor
  · rintro ⟨hne, fuel, rfl⟩
    cases fuel with
    | zero => exact absurd rfl hne
    | succ fuel =>
      rw [hrun] at hne ⊢
      obtain ⟨w, hw, hout⟩ := exists_tried_of_outcomeAt hg fun hfuel =>
        hne (by rw [hfuel]; rfl)
      -- All alternatives that failed are back already.
      rw [hout, backAfter_of_backAt fun f d => hw.backAt hg hc]
      exact ⟨w, hw, rfl⟩
  · rintro ⟨w, hw, rfl⟩
    obtain ⟨fuel, hfuel⟩ := hw.eventually hg (Matcher.armsLabel arms)
    refine ⟨hw.outcome_ne_outOfFuel, fuel + 1, ?_⟩
    rw [hrun, hfuel fuel (Nat.le_refl fuel), backAfter_of_backAt fun f d => hw.backAt hg hc]

end

/-! ### Grouping -/

section

variable {ps qs : List (Parser κ α)} {w : Trial α}

/-- Where there is nothing to try, everything is declined. -/
theorem tried_nil : Tried g [] c w ↔ w = .declined c := by
  constructor
  · rintro ⟨⟩
    rfl
  · rintro rfl
    exact .nil

/-- The rest of a list is tried where the alternatives before it are back, if none of them decides.
-/
theorem tried_append :
    Tried g (ps ++ qs) c w ↔
      (∀ d, w ≠ .declined d) ∧ Tried g ps c w ∨
        ∃ d, Tried g ps c (.declined d) ∧ Tried g qs d w := by
  constructor
  · intro h
    -- Each alternative that declines leaves the rest to be tried where it ends.
    induction ps generalizing c with
    | nil => exact .inr ⟨c, .nil, h⟩
    | cons p ps ih =>
      cases h with
      | halted hp => exact .inl ⟨nofun, .halted hp⟩
      | decided hp hr => exact .inl ⟨nofun, .decided hp hr⟩
      | next hp hf hrest =>
        rcases ih hrest with ⟨hw, hps⟩ | ⟨d, hps, hqs⟩
        · exact .inl ⟨hw, .next hp hf hps⟩
        · exact .inr ⟨d, .next hp hf hps, hqs⟩
  · rintro (⟨hw, hps⟩ | ⟨d, hps, hqs⟩)
    · induction hps with
      | nil => exact absurd rfl (hw _)
      | halted hp => exact .halted hp
      | decided hp hr => exact .decided hp hr
      | next hp hf _ ih => exact .next hp hf (ih hw)
    · -- By induction on how the first list was tried, which is known to have declined.
      generalize hu : Trial.declined d = u at hps
      induction hps with
      | nil =>
        cases hu
        exact hqs
      | halted _ => cases hu
      | decided _ _ => cases hu
      | next hp hf _ ih => exact .next hp hf (ih hu)

/-- A list of alternatives among others is tried as its own alternatives are. -/
theorem tried_choice (hg : g.Discreet) (hc : c.InBounds) {label : String} {named : Bool}
    {shape : Shape} {arms : List (Parser κ α)} :
    Tried g [.mk label named shape (.choice arms)] c w ↔ Tried g arms c w := by
  constructor
  · intro h
    cases h with
    | halted hp =>
      -- What the choice gives is what trying its arms comes to, so only one kind of trial fits.
      obtain ⟨u, hu, hout⟩ := (gives_choice_iff hg hc).1 hp
      cases u with
      | halted _ =>
        cases hout
        exact hu
      | decided _ _ => cases hout
      | declined _ => cases hout
    | decided hp hr =>
      obtain ⟨u, hu, hout⟩ := (gives_choice_iff hg hc).1 hp
      cases u with
      | halted _ => cases hout
      | decided _ _ =>
        cases hout
        exact hu
      | declined _ =>
        cases hout
        exact absurd rfl hr
    | next hp hf hrest =>
      obtain ⟨u, hu, hout⟩ := (gives_choice_iff hg hc).1 hp
      obtain rfl := tried_nil.1 hrest
      cases u with
      | halted _ => cases hout
      | decided _ _ =>
        cases hout
        exact absurd hf hu.decides
      | declined _ =>
        cases hout
        exact hu
  · intro h
    have hgives : Parser.Gives g (.mk label named shape (.choice arms)) c _ :=
      (gives_choice_iff hg hc).2 ⟨w, h, rfl⟩
    cases w with
    | halted _ => exact .halted hgives
    | decided _ _ => exact .decided hgives h.decides
    | declined _ => exact .next hgives rfl .nil

/-- A list of alternatives is tried as it is when it is spread out. -/
theorem tried_spread (hg : g.Discreet) (hc : c.InBounds) :
    Tried g (spread ps) c w ↔ Tried g ps c w := by
  -- By induction on how the list is spread out. The alternatives of a parser stand for it.
  refine spread.induct
    (fun p => ∀ c w, c.InBounds → (Tried g p.alternatives c w ↔ Tried g [p] c w))
    (fun ps => ∀ c w, c.InBounds → (Tried g (spread ps) c w ↔ Tried g ps c w))
    ?_ ?_ ?_ ?_ ps c w hc
  · intro label named shape arms harms c w hc
    rw [Parser.alternatives, harms c w hc, tried_choice hg hc]
  · intro p (hp : p.Single) c w _
    rw [hp.alternatives_eq]
  · intro c w _
    rw [spread_nil]
  · intro p ps hp hps c w hc
    rw [spread_cons, ← List.singleton_append, tried_append, tried_append, hp c w hc]
    refine or_congr_right (exists_congr fun d => ?_)
    rw [hp c _ hc]
    exact and_congr_right fun h => hps d w (h.inBounds hg hc)

end

end ParseTrail
