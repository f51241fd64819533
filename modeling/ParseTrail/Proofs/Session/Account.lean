import ParseTrail.Proofs.Session.Stretch

/-!
# What parsing leaves on the trail

Every stretch of a session adds a forest below the attempt in progress. `Action.Accounts` says how
the forest accounts for what happened. Where the action matched, whatever starts past the cursor
starts no further than something that is blamed; where it did not match, the outermost attempts of
the forest include one that failed. The rules below put accounts together as actions are put
together:

- `Accounts.bind`, `Accounts.recover`, `accounts_sepTail` and their companions;
- `accounts_recorded`: an action that is recorded as an attempt.

What starts further than anything blamed is only kept in check if no lookahead succeeds and no
match is rejected out in the open. `strict` says that the grammar is of this kind.
-/

namespace ParseTrail

/-! ### Accounts -/

variable {β γ δ : Type} {strict owes owes' : Prop} {s t u : Session} {F G : Forest}
  {r : Except Failure β} {x : Action β} {y : Action γ}

/-- How the trail accounts for an action that led from a session to another. Whether a mismatch must
be blamed on an attempt of its own is for `owes` to say: an action that is to be recorded as an
attempt need not, as its attempt will be the one that failed. -/
def Session.Accounted (s : Session) (strict owes : Prop) : Except Failure β → Session → Prop
  | .ok _, t => ∃ F, s.Stretch t F ∧ (strict → F.Covered t.cursor.position)
  | .error f, t =>
    f.expectation?.isSome → ∃ F, s.Stretch t F ∧ (owes → F.Blames strict t.cursor.position)

/-- The trail accounts for an action wherever it starts. -/
def Action.Accounts (strict owes : Prop) (x : Action β) : Prop :=
  ∀ s r t, s.Ready → outcome x s = .ok (r, t) → s.Accounted strict owes r t

open ParseTrail.Action (Accounts)

namespace Session

/-- An action that owes an attempt is accounted for if it owes none, too. -/
theorem Accounted.mono (h : s.Accounted strict owes r t) (howes : owes' → owes) :
    s.Accounted strict owes' r t := by
  cases r with
  | ok v => exact h
  | error f =>
    intro hf
    obtain ⟨F, hF, hblames⟩ := h hf
    exact ⟨F, hF, fun h' => hblames (howes h')⟩

/-- A stretch before what is accounted for. -/
theorem Accounted.after (hs : s.Ready) (hF : s.Stretch t F)
    (hcovered : strict → F.Covered t.cursor.position) (h : t.Accounted strict owes r u) :
    s.Accounted strict owes r u := by
  cases r with
  | ok v =>
    -- Match or mismatch, the second forest comes after the first.
    obtain ⟨G, hG, hcovered'⟩ := h
    exact ⟨F ++ G, hF.trans hG hs,
      fun hstrict => (hcovered hstrict).append hG.position_le (hcovered' hstrict)⟩
  | error f =>
    intro hf
    obtain ⟨G, hG, hblames⟩ := h hf
    exact ⟨F ++ G, hF.trans hG hs, fun howes => .append hcovered hG.position_le (hblames howes)⟩

/-- Where nothing was recorded, only a mismatch that is to be recorded is left to account for. -/
theorem accounted_of_same (hs : s.Ready) (htrail : t.trail = s.trail)
    (hcurrent : t.current = s.current) (hle : s.cursor.position ≤ t.cursor.position)
    (hr : ∀ f, r = .error f → ¬owes) : s.Accounted strict owes r t := by
  have hstretch := stretch_nil hs htrail hcurrent hle
  cases r with
  | ok v => exact ⟨.nil, hstretch, fun _ => Forest.covered_nil _⟩
  | error f => exact fun _ => ⟨.nil, hstretch, fun h => absurd h (hr f rfl)⟩

end Session

namespace Action.Accounts

/-- An action that may owe an attempt may as well owe none. -/
theorem mono (h : Accounts strict owes x) (howes : owes' → owes) : Accounts strict owes' x :=
  fun s r t hs ht => (h s r t hs ht).mono howes

/-- A value leaves the trail as it is. -/
theorem pure (v : β) : Accounts strict owes (pure v : Action β) := by
  intro s r t hs ht
  cases ht
  exact Session.accounted_of_same hs rfl rfl (Nat.le_refl _) fun f hf => nomatch hf

/-- A failure that is to be recorded. -/
theorem throw (f : Failure) : Accounts strict False (throw f : Action β) := by
  intro s r t hs ht
  cases ht
  exact Session.accounted_of_same hs rfl rfl (Nat.le_refl _) fun _ _ => id

/-- What halts leaves no trail to account for. -/
theorem halt (h : Halt) : Accounts strict owes (throwThe Halt h : Action β) :=
  fun _ _ _ _ ht => nomatch ht

/-- The trail of a sequence is that of its parts, one after the other. -/
theorem bind {f : β → Action γ} (hx : Accounts strict owes x)
    (hf : ∀ v, Accounts strict owes (f v)) : Accounts strict owes (x >>= f) := by
  intro s r u hs hu
  rw [outcome_bind] at hu
  split at hu
  · cases hu
  · next e t ht =>
    cases hu
    exact hx s _ _ hs ht
  · next v t ht =>
    obtain ⟨F, hF, hcovered⟩ := hx s _ t hs ht
    exact (hf v t r u (hF.grown.ready hs) hu).after hs hF hcovered

/-- Another value leaves the same trail. -/
theorem map (f : β → γ) (hx : Accounts strict owes x) : Accounts strict owes (f <$> x) :=
  hx.bind fun v => pure (f v)

/-- To ask for the place leaves no trail. -/
theorem here {k : Nat → Action γ} (hk : ∀ n, Accounts strict owes (k n)) :
    Accounts strict owes (Action.position >>= k) :=
  fun s r u hs hu => hk s.cursor.position s r u hs hu

/-! ### Absorbing failures -/

/-- What a mismatch leaves behind once it is absorbed. -/
theorem absorbed (hx : Accounts strict True x) (hs : s.Ready)
    (ht : outcome (Action.recover x) s = .ok (.ok none, t)) :
    ∃ F, s.Stretch t F ∧ F.Blames strict t.cursor.position := by
  obtain ⟨f, hu, hf⟩ := exists_outcome_of_recover_eq_none ht
  -- Only a mismatch is absorbed, and it is blamed on an attempt.
  have hmismatch : f.expectation?.isSome := by
    cases f with
    | expected e => rfl
    | _ => cases hf
  obtain ⟨F, hF, hblames⟩ := hx s _ _ hs hu hmismatch
  exact ⟨F, hF, hblames trivial⟩

/-- A mismatch that is absorbed stays on the trail. -/
theorem recover (hx : Accounts strict True x) : Accounts strict True (Action.recover x) := by
  intro s r t hs ht
  rcases r with f | _ | v
  · exact hx s _ t hs (outcome_of_recover_eq_error ht).1
  · -- An absorbed mismatch counts as a match of nothing: the cursor is back where it was, and what
    -- is blamed covers the rest.
    obtain ⟨F, hF, hblames⟩ := hx.absorbed hs ht
    exact ⟨F, hF, hblames.covered⟩
  · exact hx s _ t hs (outcome_of_recover_eq_some ht)

/-- A mismatch that is committed is the same mismatch. -/
theorem cut (hx : Accounts strict owes x) : Accounts strict owes (Action.cut x) := by
  intro s r t hs ht
  rw [outcome_cut] at ht
  split at ht
  · cases ht
  · next u hu =>
    cases ht
    exact hx s _ _ hs hu
  · next f u hu =>
    cases ht
    intro hmismatch
    -- To commit a failure keeps whether it is a mismatch.
    have hmismatch' : f.expectation?.isSome := by
      cases f with
      | expected e => rfl
      | _ => exact hmismatch
    exact hx s _ _ hs hu hmismatch'

end Action.Accounts

/-! ### The cursor -/

/-- Asking the source for something that moves the cursor forward, if at all. The source may fail,
but that is no mismatch. -/
theorem accounts_ofSource {request : Cursor.Request} {reply : request.Reply → Except SourceError β}
    (h : ∀ (c d : Cursor) (told : request.Reply) (v : β), c.perform request = .ok (told, d) →
      reply told = .ok v → c.position ≤ d.position) :
    Accounts strict owes (Action.ask request >>= fun told => Action.ofSource (reply told)) := by
  intro s r t hs ht
  rw [outcome_bind, outcome_ask] at ht
  cases hperform : s.cursor.perform request with
  | error cause =>
    rw [hperform] at ht
    cases ht
  | ok told =>
    obtain ⟨told, d⟩ := told
    rw [hperform] at ht
    dsimp only at ht
    rw [outcome_ofSource] at ht
    cases hreply : reply told with
    | error e =>
      rw [hreply] at ht
      cases ht
      exact fun hmismatch => nomatch hmismatch
    | ok v =>
      rw [hreply] at ht
      cases ht
      exact Session.accounted_of_same hs rfl rfl (h _ _ _ _ hperform hreply)
        fun f hf => nomatch hf

/-- Reading leaves no trail. -/
theorem accounts_read (n : Nat) : Accounts strict owes (Action.read n) :=
  accounts_ofSource fun _ _ _ _ hd _ => (Cursor.Ahead.read hd).position_le

/-- Neither does reading one character. -/
theorem accounts_readChar : Accounts strict owes Action.readChar :=
  accounts_ofSource fun _ _ _ _ hd _ => (Cursor.Ahead.readChar hd).position_le

/-- Neither does looking at characters. -/
theorem accounts_peek (n : Nat) : Accounts strict owes (Action.peek n) :=
  accounts_ofSource fun _ _ _ _ hd hv =>
    Nat.le_of_eq (Cursor.position_peek (hd.trans (by rw [← hv]))).symm

/-- Neither does asking for the end of input. -/
theorem accounts_atEnd : Accounts strict owes Action.atEnd :=
  accounts_ofSource fun c d _ _ hd _ => by
    have hposition := Cursor.position_atEnd c
    have hd : c.atEnd = _ := Except.ok.inj hd
    rw [hd] at hposition
    exact Nat.le_of_eq hposition.symm

/-! ### Characters -/

/-- A text has no attempt of its own until it is recorded. -/
theorem accounts_literal (text : String) : Accounts strict False (Action.literal text) := by
  refine .here fun start => (accounts_read _).bind fun found => ?_
  by_cases h : found = text.toList
  · rw [if_pos h]
    exact .pure ()
  · rw [if_neg h]
    exact .throw _

/-- Neither has a single character. -/
theorem accounts_satisfy (label : String) (condition : Char → Bool) :
    Accounts strict False (Action.satisfy label condition) := by
  refine .here fun start => accounts_readChar.bind fun found => ?_
  rcases found with _ | c
  · exact .throw _
  · by_cases h : condition c
    · simp only [if_pos h]
      exact .pure c
    · simp only [if_neg h]
      exact .throw _

/-- Neither has the end of input. -/
theorem accounts_ending (label : String) : Accounts strict False (Action.ending label) := by
  refine .here fun start => accounts_atEnd.bind fun finished => ?_
  cases finished with
  | false => exact (accounts_peek 1).bind fun found => .throw _
  | true => exact .pure ()

/-! ### Repetition -/

/-- A repetition leaves the trails of its items, by induction on its turns. -/
theorem accounts_many (hx : Accounts strict True x) (fuel : Nat) (done : List β) :
    Accounts strict True (Action.many x fuel done) := by
  -- By induction on the turns left. The loop ends with a match at the end of the text or at an
  -- absorbed mismatch.
  induction fuel generalizing done with
  | zero => exact .halt _
  | succ fuel ih =>
    refine accounts_atEnd.bind fun finished => ?_
    cases finished with
    | true => exact .pure _
    | false =>
      refine hx.recover.bind fun found => ?_
      cases found with
      | none => exact .pure _
      | some v => exact ih (v :: done)

/-- So does a counted one, by induction on the count. -/
theorem accounts_timesAfter (hx : Accounts strict True x) (n : Nat) (done : List β) :
    Accounts strict True (Action.timesAfter x n done) := by
  induction n generalizing done with
  | zero => exact .pure _
  | succ n ih => exact hx.bind fun v => ih (v :: done)

/-- The limit on the count leaves no trail. -/
theorem accounts_times (hx : Accounts strict True x) (n : Nat) :
    Accounts strict True (Action.times x n) := by
  unfold Action.times
  by_cases h : n < listLimit
  · rw [if_pos h]
    exact accounts_timesAfter hx n []
  · rw [if_neg h]
    exact .halt _

/-- Two in sequence, where the cursor goes back to before the first if the second is not there. -/
theorem accounts_returnTo (hx : Accounts strict True x) (hy : Accounts strict True y)
    {k : β → Action δ} (hk : ∀ v, Accounts strict True (k v)) (stop : δ) :
    Accounts strict True (Action.position >>= fun mark => Action.recover y >>= fun found =>
      match found with
      | none => Pure.pure stop
      | some _ => Action.recover x >>= fun found =>
        match found with
        | some v => k v
        | none => Action.returnTo mark >>= fun _ => Pure.pure stop) := by
  intro s r v hs hv
  rw [outcome_position_bind, outcome_bind] at hv
  split at hv
  · cases hv
  · next f t ht =>
    cases hv
    exact hy.recover s _ _ hs ht
  · next found t ht =>
    obtain ⟨F, hF, hcovered⟩ := hy.recover s _ t hs ht
    have hready := hF.grown.ready hs
    cases found with
    | none =>
      cases hv
      exact ⟨F, hF, hcovered⟩
    | some w =>
      dsimp only at hv
      rw [outcome_bind] at hv
      split at hv
      · cases hv
      · next f u hu =>
        cases hv
        exact (hx.recover t _ _ hready hu).after hs hF hcovered
      · next found u hu =>
        cases found with
        | some w =>
          obtain ⟨G, hG, hcovered'⟩ := hx.recover t _ u hready hu
          have hrest := hk w u r v (hG.grown.ready hready) hv
          exact (hrest.after hready hG hcovered').after hs hF hcovered
        | none =>
          -- What the first matched is covered by what the second is blamed for.
          obtain ⟨G, hG, hblames⟩ := hx.absorbed hready hu
          dsimp only at hv
          rw [outcome_bind] at hv
          split at hv
          · cases hv
          · next hreturn => cases (outcome_returnTo_ok hreturn).1
          · next hreturn =>
            obtain ⟨-, d, hd, rfl⟩ := outcome_returnTo_ok hreturn
            cases hv
            have hall := hF.trans hG hs
            refine ⟨F ++ G, hall.back hd, fun hstrict => ?_⟩
            have hback := (Forest.Blames.append hcovered hG.position_le hblames).back hall.starts
            rw [hd]
            exact hback.covered hstrict

/-- A list leaves the trails of separators and items, the separator that was given back among them.
-/
theorem accounts_sepTail (hx : Accounts strict True x) (hy : Accounts strict True y) (fuel : Nat)
    (done : List β) : Accounts strict True (Action.sepTail x y fuel done) := by
  induction fuel generalizing done with
  | zero => exact .halt _
  | succ fuel ih =>
    refine accounts_atEnd.bind fun finished => ?_
    cases finished with
    | true => exact .pure _
    -- After a separator there must be an item, or else the separator is given back.
    | false => exact accounts_returnTo hx hy (fun v => ih (v :: done)) done.reverse

/-- Before them comes the trail of the first item. -/
theorem accounts_sepBy (hx : Accounts strict True x) (hy : Accounts strict True y) (fuel : Nat) :
    Accounts strict True (Action.sepBy x y fuel) := by
  refine accounts_atEnd.bind fun finished => ?_
  cases finished with
  | true => exact .pure _
  | false =>
    refine hx.recover.bind fun found => ?_
    cases found with
    | none => exact .pure _
    | some v => exact accounts_sepTail hx hy fuel [v]

/-! ### Alternatives and lookahead -/

/-- Alternatives leave the trails of all that were tried. -/
theorem accounts_firstOf (label : String) {arms : List (Action β)}
    (harms : ∀ arm ∈ arms, Accounts strict True arm) :
    Accounts strict False (Action.firstOf label arms) := by
  induction arms with
  | nil => exact .here fun start => .throw _
  | cons arm arms ih =>
    -- An alternative that was absorbed leaves what it is blamed for. The failure of all of them is
    -- recorded as that of the choice.
    have harm := (harms arm List.mem_cons_self).recover
    refine (harm.mono False.elim).bind fun found => ?_
    cases found with
    | none => exact ih fun other hother => harms other (List.mem_cons_of_mem _ hother)
    | some v => exact .pure v

/-- Nothing is consumed, so what was looked at starts past the cursor, whatever came of it. -/
theorem accounts_lookahead (hstrict : ¬strict) (hx : Accounts strict True x) :
    Accounts strict False (Action.lookahead x) := by
  intro s r v hs hv
  rw [Action.lookahead, outcome_position_bind, outcome_bind, outcome_attempt] at hv
  cases hout : outcome x s with
  | error h =>
    rw [hout] at hv
    cases hv
  | ok told =>
    obtain ⟨result, t⟩ := told
    rw [hout] at hv
    dsimp only at hv
    rw [outcome_bind] at hv
    split at hv
    · cases hv
    · next hreturn => cases (outcome_returnTo_ok hreturn).1
    · next hreturn =>
      obtain ⟨-, d, hd, rfl⟩ := outcome_returnTo_ok hreturn
      -- What was looked at is on the trail, but the cursor went back before it.
      have haccounted := hx s result t hs hout
      cases result with
      | ok w =>
        cases hv
        obtain ⟨F, hF, -⟩ := haccounted
        exact ⟨F, hF.back hd, fun h => absurd h hstrict⟩
      | error f =>
        cases hv
        intro hmismatch
        obtain ⟨F, hF, -⟩ := haccounted hmismatch
        exact ⟨F, hF.back hd, False.elim⟩

/-- Where the excluded matched, the attempt itself will be the one that failed. -/
theorem accounts_butNot (label : String) (hx : Accounts strict True x)
    (hy : Accounts strict True y) : Accounts strict False (Action.butNot label x y) := by
  intro s r v hs hv
  rw [Action.butNot, outcome_position_bind, outcome_bind] at hv
  split at hv
  · cases hv
  · next f t ht =>
    cases hv
    exact (hy.recover s _ _ hs ht).mono False.elim
  · next found t ht =>
    obtain ⟨F, hF, hcovered⟩ := hy.recover s _ t hs ht
    cases found with
    | none =>
      exact ((hx t r v (hF.grown.ready hs) hv).after hs hF hcovered).mono False.elim
    | some w =>
      dsimp only at hv
      rw [outcome_bind] at hv
      split at hv
      · cases hv
      · next hreturn => cases (outcome_returnTo_ok hreturn).1
      · next hreturn =>
        obtain ⟨-, d, hd, rfl⟩ := outcome_returnTo_ok hreturn
        cases hv
        -- The excluded matched and nothing was consumed. There is no failed attempt yet.
        exact fun _ => ⟨F, hF.back hd, False.elim⟩

/-! ### Attempts -/

/-- A match that is rejected leaves a failed attempt after those made for it. It starts where the
match did, so that nothing past it is covered. -/
theorem accounts_tryMap (f : β → Except String γ) (hx : Accounts strict True x) :
    Accounts strict (¬strict) (Action.tryMap f x) := by
  intro s r u hs hu
  rw [Action.tryMap, outcome_position_bind, outcome_bind] at hu
  split at hu
  · cases hu
  · next ht =>
    -- The failure of what is mapped is that of the whole.
    cases hu
    exact (hx s _ _ hs ht).mono fun _ => trivial
  · next v t ht =>
    obtain ⟨F, hF, hcovered⟩ := hx s _ t hs ht
    have hready := hF.grown.ready hs
    cases hf : f v with
    | ok w =>
      rw [hf] at hu
      cases hu
      exact ⟨F, hF, hcovered⟩
    | error reason =>
      rw [hf] at hu
      dsimp only at hu
      rw [outcome_bind, outcome_reject] at hu
      cases hu
      intro _
      -- The rejected attempt stands after those of the match, and started with them.
      have hgrown := hF.grown.trans (grown_rejected hready s.cursor.position reason) hs
      refine ⟨_, ⟨hgrown, hF.position_le, fun n hn => ?_⟩, fun hnot => ⟨?_, ?_⟩⟩
      · rw [Forest.starts_append, List.mem_append] at hn
        rcases hn with hn | hn
        · exact hF.starts n hn
        · exact Nat.le_of_eq (List.mem_singleton.mp hn).symm
      · -- Blame is only asked for where matches may be rejected out in the open.
        exact fun hstrict => absurd hstrict hnot
      · refine ⟨s.cursor.position, ?_, fun hstrict => absurd hstrict hnot⟩
        rw [Forest.failures_append]
        exact List.mem_append_right _ List.mem_cons_self

/-- An action that is recorded as an attempt. An attempt that is dissolved leaves its forest to
account for it, so this must be able to. -/
theorem accounts_recorded (label : String) {shape : Shape} (hx : Accounts strict owes x)
    (hplain : shape.Plain) (howes : shape.dissolve → owes) :
    Accounts strict True (Action.recorded label shape x) := by
  intro s r v hs hv
  -- The action is accounted for from the moment when the attempt is open.
  have hready := ready_entered hs label shape.anchor
  cases recorded_of_outcome hv with
  | tooDeep _ =>
    -- Too deep a parse is no mismatch.
    exact fun hmismatch => nomatch hmismatch
  | @matched b t hout =>
    obtain ⟨F, hF, hcovered⟩ := hx _ _ t hready hout
    have hle : s.cursor.position ≤ t.cursor.position := hF.position_le
    exact ⟨_, stretch_left hs hplain hF _ false, fun hstrict => (hcovered hstrict).left hle⟩
  | @failed f t d hout hreturn =>
    have hd : d.position = s.cursor.position := Cursor.position_returnTo hreturn
    intro hmismatch
    obtain ⟨F, hF, hblames⟩ := hx _ _ t hready hout hmismatch
    refine ⟨_, stretch_left hs hplain (hF.back hd) _ true, fun _ => ?_⟩
    -- The cursor is back, and so is the offset from which on the forest covers all.
    rw [Session.left_cursor]
    refine Eq.symm hd ▸ ?_
    exact .left (fun hdissolve => hblames (howes hdissolve)) hF.starts

end ParseTrail
