import ParseTrail.Proofs.Session.Account

/-!
# Where mismatches are on record

A mismatch tells an offset. The rules below say that a failed attempt on the trail starts there,
below the attempt in progress, or else that the attempt in progress starts there itself and is going
to be the one that failed:

- `Action.Misses`: what an action may tell that reads some input on its own;
- `Action.MissesAtStart`: an action that only ever tells where it started, so that its attempts need
  not be kept;
- `Action.Points`: an action whose mismatches are on record, with a rule for each way of putting
  such actions together;
- `points_recorded`: an action that is recorded as an attempt.
-/

namespace ParseTrail

open ParseTrail.Action (Accounts)

/-- Below the attempt in progress is a failed attempt that starts at an offset. -/
def Session.HasFailureAt (s : Session) (n : Nat) : Prop :=
  ∃ c ∈ s.trail.children s.current, ∃ x, s.trail.Reaches c x ∧
    (s.trail.get? x).any (·.failed) ∧ s.trail.startOf x = n

namespace Action

variable {β : Type}

/-- All mismatches of an action may be absorbed, and they are at certain offsets. -/
def Misses (P : Nat → Prop) (x : Action β) : Prop :=
  ∀ s f t e, outcome x s = .ok (.error f, t) → f.expectation? = some e →
    f = .expected e ∧ P e.offset

/-- All mismatches of an action may be absorbed, and they are where it started. -/
def MissesAtStart (x : Action β) : Prop :=
  ∀ s f t e, outcome x s = .ok (.error f, t) → f.expectation? = some e →
    f = .expected e ∧ e.offset = s.cursor.position

/-- All mismatches of an action are on record: a failed attempt starts where they are. They may be
where the action started instead, unless it `owes` an attempt of its own. -/
def Points (owes : Prop) (x : Action β) : Prop :=
  ∀ s f t e, s.Ready → outcome x s = .ok (.error f, t) → f.expectation? = some e →
    t.HasFailureAt e.offset ∨ ¬owes ∧ e.offset = s.cursor.position

/-- An action that is recorded: its mismatches are on record, and it goes back if it fails. -/
structure Traced (x : Action β) : Prop where
  accounts : Accounts False True x
  points : Points True x
  back : ∀ s f t, outcome x s = .ok (.error f, t) → t.cursor.position = s.cursor.position

end Action

open ParseTrail.Action (Misses MissesAtStart Points Traced)

variable {β γ : Type} {owes owes' : Prop} {P : Nat → Prop} {s t : Session} {F : Forest}
  {x : Action β} {y : Action γ} {n : Nat}

namespace Session

/-- The failed attempts of the forest that a trail grew by. -/
theorem Grown.hasFailureAt (h : s.Grown t F) (hs : s.Ready) (hn : n ∈ F.allFailures) :
    t.HasFailureAt n := by
  obtain ⟨ids, hgrows, hholds⟩ := h.exists_ids
  obtain ⟨c, hc, hx⟩ := hholds.mem_allFailures_iff.mp hn
  refine ⟨c, ?_, hx⟩
  rw [h.current, hgrows.children _ hs.current_lt, if_pos rfl]
  exact List.mem_append_right _ hc

/-- The failed attempts below an attempt that was opened are those of the forest made for it. -/
theorem mem_allFailures_of_stretch {label : String} {anchor : Bool} (hs : s.Ready)
    (hF : (s.entered label anchor).Stretch t F) (h : t.HasFailureAt n) : n ∈ F.allFailures := by
  obtain ⟨c, hc, hx⟩ := h
  have hcurrent : t.current = s.trail.size := hF.grown.current
  rw [hcurrent] at hc
  exact (standing_of_stretch hs hF).below.mem_allFailures_iff.mpr ⟨c, hc, hx⟩

end Session

/-! ### Reading -/

namespace Action.Misses

/-- What gives a value does not miss. -/
theorem pure (v : β) : Misses P (pure v : Action β) :=
  fun _ _ _ _ ht => nomatch ht

/-- Neither does what halts. -/
theorem halt (h : Halt) : Misses P (throwThe Halt h : Action β) :=
  fun _ _ _ _ ht => nomatch ht

/-- A mismatch. -/
theorem throw {e : Expectation} (h : P e.offset) :
    Misses P (throw (.expected e) : Action β) := by
  intro s f t e' ht he
  cases ht
  cases he
  exact ⟨rfl, h⟩

/-- An error of the source is no mismatch. -/
theorem ofSource {request : Cursor.Request} {reply : request.Reply → Except SourceError β} :
    Misses P (Action.ask request >>= fun told => Action.ofSource (reply told)) := by
  intro s f t e ht he
  rw [outcome_bind, outcome_ask] at ht
  rcases hperform : s.cursor.perform request with cause | ⟨told, d⟩
  · rw [hperform] at ht
    cases ht
  · rw [hperform] at ht
    dsimp only at ht
    rw [outcome_ofSource] at ht
    rcases hreply : reply told with err | v
    · rw [hreply] at ht
      cases ht
      cases he
    · rw [hreply] at ht
      cases ht

/-- To go back does not miss. -/
theorem returnTo (offset : Nat) : Misses P (Action.returnTo offset) :=
  fun _ _ _ _ ht => nomatch (outcome_returnTo_ok ht).1

/-- A sequence misses where its first part does, or the rest. -/
theorem bind {f : β → Action γ} (hx : Misses P x) (hf : ∀ v, Misses P (f v)) :
    Misses P (x >>= f) := by
  intro s g u e hu he
  rcases outcome_bind_eq_error hu with hu | ⟨v, t, -, hu⟩
  · exact hx s g u e hu he
  · exact hf v t g u e hu he

/-- A value makes no difference to where an action misses. -/
theorem map (f : β → γ) (hx : Misses P x) : Misses P (f <$> x) :=
  hx.bind fun v => pure (f v)

end Action.Misses

namespace Action.MissesAtStart

/-- An action that never misses also misses nowhere else. -/
theorem of_misses (h : Misses (fun _ => False) x) : MissesAtStart x :=
  fun s f t e ht he => (h s f t e ht he).2.elim

/-- What asks for its place before anything else may miss there. -/
theorem here {k : Nat → Action γ} (hk : ∀ n, Misses (· = n) (k n)) :
    MissesAtStart (Action.position >>= k) :=
  fun s f u e hu he => hk s.cursor.position s f u e hu he

/-- Nothing that comes after the start may tell of a mismatch. -/
theorem bind {f : β → Action γ} (hx : MissesAtStart x) (hf : ∀ v, Misses (fun _ => False) (f v)) :
    MissesAtStart (x >>= f) := by
  intro s g u e hu he
  rcases outcome_bind_eq_error hu with hu | ⟨v, t, -, hu⟩
  · exact hx s g u e hu he
  · exact (hf v t g u e hu he).2.elim

/-- The value makes no difference here either. -/
theorem map (f : β → γ) (hx : MissesAtStart x) : MissesAtStart (f <$> x) :=
  hx.bind fun v => .pure (f v)

/-- What may be absorbed is absorbed. -/
theorem recover (hx : MissesAtStart x) : Misses P (Action.recover x) := by
  intro s f t e ht he
  obtain ⟨ht, hf⟩ := outcome_of_recover_eq_error ht
  obtain ⟨rfl, -⟩ := hx s f t e ht he
  exact absurd rfl hf

/-- A value that is rejected is rejected at the place where the action began. -/
theorem tryMap (f : β → Except String γ) (hx : MissesAtStart x) :
    MissesAtStart (Action.tryMap f x) := by
  intro s g u e hu he
  rcases outcome_tryMap_eq_error hu with hu | ⟨v, t, reason, -, -, rfl⟩
  · exact hx s g u e hu he
  · cases he
    exact ⟨rfl, rfl⟩

/-- To record an action does not change where it misses. -/
theorem recorded (label : String) (shape : Shape) (hx : MissesAtStart x) :
    MissesAtStart (Action.recorded label shape x) := by
  intro s g u e hu he
  cases recorded_of_outcome hu with
  | tooDeep _ => cases he
  | failed hout _ => exact hx (s.entered label shape.anchor) _ _ e hout he

end Action.MissesAtStart

/-- A text misses where it is looked for. -/
theorem missesAtStart_literal (text : String) : MissesAtStart (Action.literal text) := by
  refine .here fun start => .bind .ofSource fun found => ?_
  split
  · exact .pure ()
  · exact .throw rfl

/-- So does a single character. -/
theorem missesAtStart_satisfy (label : String) (condition : Char → Bool) :
    MissesAtStart (Action.satisfy label condition) := by
  refine .here fun start => .bind .ofSource fun found => ?_
  rcases found with _ | c
  · exact .throw rfl
  · dsimp only
    split
    · exact .pure c
    · exact .throw rfl

/-- So does the end of input. -/
theorem missesAtStart_ending (label : String) : MissesAtStart (Action.ending label) := by
  refine .here fun start => .bind .ofSource fun finished => ?_
  cases finished with
  | false => exact .bind .ofSource fun found => .throw rfl
  | true => exact .pure ()

/-- The loop absorbs whatever its item tells. -/
theorem misses_many (hx : MissesAtStart x) (fuel : Nat) (done : List β) :
    Misses P (Action.many x fuel done) := by
  induction fuel generalizing done with
  | zero => exact .halt _
  | succ fuel ih =>
    refine .bind .ofSource fun finished => ?_
    cases finished with
    | true => exact .pure _
    | false =>
      refine hx.recover.bind fun found => ?_
      cases found with
      | none => exact .pure _
      | some v => exact ih (v :: done)

/-! ### Putting actions together -/

namespace Action.Points

/-- Where an attempt of its own is owed, there is one. -/
theorem hasFailureAt {f : Failure} {e : Expectation} (h : Points True x) (hs : s.Ready)
    (ht : outcome x s = .ok (.error f, t)) (he : f.expectation? = some e) :
    t.HasFailureAt e.offset :=
  (h s f t e hs ht he).resolve_right fun hstart => hstart.1 trivial

/-- What points though it owes an attempt points all the more if it owes none. -/
theorem mono (h : Points owes x) (howes : owes' → owes) : Points owes' x := by
  intro s f t e hs ht he
  rcases h s f t e hs ht he with hfailure | ⟨hnot, hstart⟩
  · exact .inl hfailure
  · exact .inr ⟨mt howes hnot, hstart⟩

/-- An action that never misses has nothing to put on record. -/
theorem of_misses (h : Misses (fun _ => False) x) : Points owes x :=
  fun s f t e _ ht he => (h s f t e ht he).2.elim

/-- An action that misses only where it started needs no attempt on record, unless it owes one. -/
theorem of_missesAtStart (h : MissesAtStart x) : Points False x :=
  fun s f t e _ ht he => .inr ⟨id, (h s f t e ht he).2⟩

/-- A value is no mismatch. -/
theorem pure (v : β) : Points owes (pure v : Action β) :=
  of_misses (.pure v)

/-- Neither is a halt. -/
theorem halt (h : Halt) : Points owes (throwThe Halt h : Action β) :=
  of_misses (.halt h)

/-- To ask for the place first changes nothing. -/
theorem here {k : Nat → Action γ} (hk : ∀ n, Points owes (k n)) :
    Points owes (Action.position >>= k) :=
  fun s f u e hs hu he => hk s.cursor.position s f u e hs hu he

/-- What comes after the start owes attempts of its own. -/
theorem bind {f : β → Action γ} (hx : Points owes x) (haccounts : Accounts False owes' x)
    (hf : ∀ v, Points True (f v)) : Points owes (x >>= f) := by
  intro s g u e hs hu he
  rcases outcome_bind_eq_error hu with hu | ⟨v, t, ht, hu⟩
  · exact hx s g u e hs hu he
  · obtain ⟨F, hF, -⟩ := haccounts s _ t hs ht
    exact .inl ((hf v).hasFailureAt (hF.grown.ready hs) hu he)

/-- To map the value changes no mismatch. -/
theorem map (f : β → γ) (hx : Points owes x) : Points owes (f <$> x) :=
  fun s g u e hs hu he => hx s g u e hs (outcome_map_eq_error hu) he

/-- A mismatch that is not absorbed is the one that it was. -/
theorem recover (hx : Points owes x) : Points owes (Action.recover x) :=
  fun s f t e hs ht he => hx s f t e hs (outcome_of_recover_eq_error ht).1 he

/-- To commit a mismatch leaves it where it was. -/
theorem cut (hx : Points owes x) : Points owes (Action.cut x) := by
  intro s f t e hs ht he
  rw [outcome_cut] at ht
  split at ht
  · cases ht
  · cases ht
  · next g u hu =>
    cases ht
    -- To commit a failure keeps what was expected.
    have he' : g.expectation? = some e := by
      cases g with
      | expected _ => exact he
      | _ => exact he
    exact hx s _ _ e hs hu he'

/-- Only the cursor goes back. -/
theorem lookahead (hx : Points True x) : Points owes (Action.lookahead x) := by
  intro s f u e hs hu he
  rw [outcome_lookahead_eq] at hu
  split at hu
  · cases hu
  · next ht =>
    split at hu
    · cases hu
    · cases hu
      have hfailure := hx.hasFailureAt hs ht he
      exact .inl hfailure

end Action.Points

namespace Action.Traced

/-- Two that are recorded, one after the other. -/
theorem bind {f : β → Action γ} (hx : Traced x) (hf : ∀ v, Points True (f v)) :
    Points True (x >>= f) :=
  hx.points.bind hx.accounts hf

/-- Absorbing what may be absorbed, and going on. -/
theorem recover_bind {f : Option β → Action γ} (hx : Traced x)
    (hf : ∀ found, Points True (f found)) : Points True (Action.recover x >>= f) :=
  hx.points.recover.bind hx.accounts.recover hf

end Action.Traced

/-- Asking for the end of input, and going on. -/
theorem points_atEnd_bind {f : Bool → Action γ} (hf : ∀ finished, Points True (f finished)) :
    Points True (Action.atEnd >>= f) := by
  have haccounts : Accounts False True Action.atEnd := accounts_atEnd
  exact (Points.of_misses .ofSource).bind haccounts hf

/-- A repetition misses where one of its items does, and that item is on record. -/
theorem points_many (hx : Traced x) (fuel : Nat) (done : List β) :
    Points True (Action.many x fuel done) := by
  induction fuel generalizing done with
  | zero => exact .halt _
  | succ fuel ih =>
    refine points_atEnd_bind fun finished => ?_
    cases finished with
    | true => exact .pure _
    | false =>
      refine hx.recover_bind fun found => ?_
      cases found with
      | none => exact .pure _
      | some v => exact ih (v :: done)

/-- So it is if the items are counted. -/
theorem points_timesAfter (hx : Traced x) (n : Nat) (done : List β) :
    Points True (Action.timesAfter x n done) := by
  induction n generalizing done with
  | zero => exact .pure _
  | succ n ih => exact hx.bind fun v => ih (v :: done)

/-- So it is from the first item on. -/
theorem points_times (hx : Traced x) (n : Nat) : Points True (Action.times x n) := by
  unfold Action.times
  split
  · exact points_timesAfter hx n []
  · exact .halt _

/-- After the first item of a list, a separator or an item misses, and both are on record. -/
theorem points_sepTail (hx : Traced x) (hy : Traced y) (fuel : Nat) (done : List β) :
    Points True (Action.sepTail x y fuel done) := by
  induction fuel generalizing done with
  | zero => exact .halt _
  | succ fuel ih =>
    refine points_atEnd_bind fun finished => ?_
    cases finished with
    | true => exact .pure _
    | false =>
      refine .here fun mark => hy.recover_bind fun found => ?_
      cases found with
      | none => exact .pure _
      | some _ =>
        refine hx.recover_bind fun found => ?_
        cases found with
        -- The separator is given back, which is no mismatch.
        | none => exact .of_misses ((Misses.returnTo mark).bind fun _ => .pure _)
        | some v => exact ih (v :: done)

/-- The first item of a list is on record as well. -/
theorem points_sepBy (hx : Traced x) (hy : Traced y) (fuel : Nat) :
    Points True (Action.sepBy x y fuel) := by
  refine points_atEnd_bind fun finished => ?_
  cases finished with
  | true => exact .pure _
  | false =>
    refine hx.recover_bind fun found => ?_
    cases found with
    | none => exact .pure _
    | some v => exact points_sepTail hx hy fuel [v]

/-- Where all alternatives were absorbed, the choice itself is what failed. -/
theorem points_firstOf (label : String) {arms : List (Action β)}
    (harms : ∀ arm ∈ arms, Traced arm) : Points False (Action.firstOf label arms) := by
  induction arms with
  | nil => exact .of_missesAtStart (.here fun start => .throw rfl)
  | cons arm arms ih =>
    have harm := harms arm List.mem_cons_self
    intro s f u e hs hu he
    rw [Action.firstOf] at hu
    rcases outcome_bind_eq_error hu with hu | ⟨found, t, ht, hu⟩
    · exact .inl (harm.points.recover.hasFailureAt hs hu he)
    · obtain ⟨F, hF, -⟩ := harm.accounts.recover s _ t hs ht
      rcases found with _ | v
      · -- The alternatives that are left start where this one did.
        obtain ⟨g, hg, -⟩ := exists_outcome_of_recover_eq_none ht
        rw [← harm.back s g t hg]
        exact ih (fun other hother => harms other (List.mem_cons_of_mem _ hother)) t f u e
          (hF.grown.ready hs) hu he
      · cases hu

/-- Where the excluded matched, the attempt itself will be the one that failed. -/
theorem points_butNot (label : String) (hx : Traced x) (hy : Traced y) :
    Points False (Action.butNot label x y) := by
  intro s f v e hs hv he
  rw [Action.butNot, outcome_position_bind] at hv
  rcases outcome_bind_eq_error hv with hv | ⟨found, t, ht, hv⟩
  · exact .inl (hy.points.recover.hasFailureAt hs hv he)
  · obtain ⟨F, hF, -⟩ := hy.accounts.recover s _ t hs ht
    rcases found with _ | w
    · exact .inl (hx.points.hasFailureAt (hF.grown.ready hs) hv he)
    · have hmisses : Misses (· = s.cursor.position)
          (Action.returnTo s.cursor.position >>= fun _ =>
            (Action.expected s.cursor.position label : Action β)) :=
        (Misses.returnTo _).bind fun _ => .throw rfl
      exact .inr ⟨id, (hmisses t _ _ e hv he).2⟩

/-- A match that is rejected leaves a failed attempt where it started. -/
theorem points_tryMap (f : β → Except String γ) (hx : Traced x) :
    Points True (Action.tryMap f x) := by
  intro s g u e hs hu he
  rcases outcome_tryMap_eq_error hu with hu | ⟨v, t, reason, ht, hreject, rfl⟩
  · exact hx.points s g u e hs hu he
  · obtain ⟨F, hF, -⟩ := hx.accounts s _ t hs ht
    have hready := hF.grown.ready hs
    rw [outcome_reject] at hreject
    cases hreject
    cases he
    exact .inl ((grown_rejected hready _ reason).hasFailureAt hready List.mem_cons_self)

/-! ### Attempts -/

/-- The mismatches of an action that is recorded are on record. If its attempt is dissolved, the
action must owe attempts of its own, and if it drops the attempts made for it, it must start where
they failed. -/
theorem traced_recorded (label : String) {shape : Shape} (haccounts : Accounts False owes x)
    (hx : Points owes x) (hplain : shape.Plain) (howes : shape.dissolve → owes)
    (hleaf : shape.leaf → MissesAtStart x) : Traced (Action.recorded label shape x) := by
  refine ⟨accounts_recorded label haccounts hplain howes, fun s g u e hs hu he => .inl ?_,
    fun s g u hu => position_of_recorded hu⟩
  -- The failure is in what the attempt leaves once it is closed.
  have hready := ready_entered hs label shape.anchor
  cases recorded_of_outcome hu with
  | tooDeep _ => cases he
  | @failed f t d hout hreturn =>
    have hd : d.position = s.cursor.position := Cursor.position_returnTo hreturn
    obtain ⟨F, hF, -⟩ := haccounts _ _ t hready hout (by rw [he]; rfl)
    refine (stretch_left hs hplain (hF.back hd) _ true).grown.hasFailureAt hs ?_
    by_cases hdrops : shape.leaf
    · -- The attempts made for it are dropped, but it starts where they would have told.
      have hkept : shape.dissolve = false := by
        cases hdissolve : shape.dissolve with
        | false => rfl
        | true => rw [hplain.leaf hdissolve] at hdrops; cases hdrops
      have hstart : e.offset = s.cursor.position := (hleaf hdrops _ _ t e hout he).2
      rw [hstart]
      exact Forest.start_mem_allFailures_left hkept
    · rcases hx _ _ t e hready hout he with hfailure | ⟨hnot, hstart⟩
      · -- Whether the attempt stays or not, those made for it do.
        exact Forest.mem_allFailures_left (Bool.eq_false_iff.mpr hdrops)
          (Session.mem_allFailures_of_stretch hs hF hfailure)
      · have hstart : e.offset = s.cursor.position := hstart
        rw [hstart]
        exact Forest.start_mem_allFailures_left (Bool.eq_false_iff.mpr (mt howes hnot))

end ParseTrail
