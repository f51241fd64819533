import ParseTrail.Proofs.Cursor.View
import ParseTrail.Proofs.Engine.Simulation
import ParseTrail.Proofs.Session.Outcome

/-!
# Bounded sessions

Two things bound what a session can do: the depth that is left below its limit, and the text that is
left before its end. An action ends in such a session if it does not run out of fuel there, tells of
nothing but mismatches and of nesting past the limit, and leaves the cursor in the text:

- `correspondence_bounds`: what is put together from actions that end does so too;
- `ends_many`, `ends_sepTail`: so do loops whose rounds consume input, if they may take more turns
  than the text has bytes;
- `ends_recorded`: so do attempts, which need their action to end only one level deeper, and only
  below the limit.
-/

namespace ParseTrail

/-- What bounds a session, and the faults that may end it. -/
structure Bounds where
  /-- The text that the cursor stands in. -/
  text : List Char
  /-- The limit of depth. -/
  limit : Nat
  /-- The faults that may happen. -/
  faults : Fault → Prop

/-- A mismatch, or the failure that tells of nesting one deeper than the limit. -/
def Failure.IsWithin (limit : Nat) (f : Failure) : Prop :=
  f.expectation?.isSome ∨ f = .tooDeep (limit + 1) limit

/-- To commit a failure does not take it out of bounds. -/
theorem Failure.IsWithin.commit {limit : Nat} {f : Failure} (h : f.IsWithin limit) :
    f.commit.IsWithin limit := by
  rcases h with hmismatch | rfl
  · refine .inl ?_
    cases f with
    | expected _ => rfl
    | _ => exact hmismatch
  · exact .inr rfl

/-- A session within bounds, at some depth. The cursor keeps what the cursor `b` keeps. -/
structure Session.Within (B : Bounds) (depth : Nat) (b : Cursor) (s : Session) : Prop where
  base : b.StandsIn 0 B.text
  cursor : s.cursor.StandsIn 0 B.text
  extended : b.Extends s.cursor
  depth_eq : s.depth = depth
  maxDepth_eq : s.maxDepth = B.limit

/-- How an action may end within bounds. -/
inductive Bounds.Ended (B : Bounds) (depth : Nat) (b : Cursor) {β : Type} :
    Except Halt (Except Failure β × Session) → Prop
  | fault {cause : Fault} : B.faults cause → Ended B depth b (.error (.fault cause))
  | matched {v : β} {t : Session} : t.Within B depth b → Ended B depth b (.ok (.ok v, t))
  | failed {f : Failure} {t : Session} : f.IsWithin B.limit → t.Within B depth b →
    Ended B depth b (.ok (.error f, t))

/-- Wherever it starts within bounds, an action ends. -/
def Bounds.Ends (B : Bounds) (depth : Nat) (b : Cursor) {β : Type} (x : Action β) : Prop :=
  ∀ s, s.Within B depth b → B.Ended depth b (outcome x s)

/-- Whenever an action matches before the end of a text, it consumes some of it. -/
def Action.Consumes {β : Type} (text : List Char) (limit : Nat) (x : Action β) : Prop :=
  ∀ s v t, s.cursor.StandsIn 0 text → s.maxDepth = limit →
    s.cursor.position < Text.byteLength text → outcome x s = .ok (.ok v, t) →
      s.cursor.position < t.cursor.position

variable {B : Bounds} {depth : Nat} {b c d : Cursor} {s t : Session} {β γ : Type}

/-- A cursor in a text stands within what it keeps of it. -/
theorem Cursor.StandsIn.inBounds {text : List Char} (h : c.StandsIn 0 text) : c.InBounds := by
  obtain ⟨before, rest, -, hshows⟩ := h
  exact hshows.inBounds

/-- It stands no further than the end of the text. -/
theorem Cursor.StandsIn.position_le {text : List Char} (h : c.StandsIn 0 text) :
    c.position ≤ Text.byteLength text := by
  obtain ⟨before, rest, rfl, hshows⟩ := h
  rw [hshows.position, Text.byteLength_append]
  omega

/-! ### Sessions within bounds -/

namespace Session.Within

/-- The cursor may move in its text. -/
theorem withCursor (h : s.Within B depth b) (hd : d.StandsIn 0 B.text)
    (hext : s.cursor.Extends d) : Session.Within B depth b { s with cursor := d } :=
  ⟨h.base, hd, h.extended.trans hext, h.depth_eq, h.maxDepth_eq⟩

/-- A session may go back to where it is now. -/
theorem narrow (h : s.Within B depth b) : s.Within B depth s.cursor :=
  ⟨h.cursor, h.cursor, .refl h.cursor.inBounds, h.depth_eq, h.maxDepth_eq⟩

/-- What may go back to a later place may go back to an earlier one. -/
theorem widen (h : s.Within B depth b) (ht : t.Within B depth s.cursor) : t.Within B depth b :=
  ⟨h.base, ht.cursor, h.extended.trans ht.extended, ht.depth_eq, ht.maxDepth_eq⟩

/-- A session can go back. -/
theorem exists_returnTo (h : s.Within B depth b) :
    ∃ d, s.cursor.returnTo b.position = .ok d ∧
      Session.Within B depth b { s with cursor := d } := by
  obtain ⟨before, rest, htext, hb⟩ := h.base
  obtain ⟨before', rest', htext', hs⟩ := h.cursor
  have hback := hb.back hs h.extended (htext'.symm.trans htext)
  have hle : b.index ≤ s.cursor.buffered := Nat.le_trans hb.inBounds h.extended.buffered_le
  exact ⟨_, h.extended.returnTo hb.inBounds, h.base, ⟨before, rest, htext, hback⟩,
    h.extended.withIndex hle, h.depth_eq, h.maxDepth_eq⟩

/-- An attempt that is opened may go back to where it starts. -/
theorem entered (h : s.Within B depth b) (label : String) (anchor : Bool) :
    (s.entered label anchor).Within B (depth + 1) s.cursor :=
  ⟨h.cursor, h.cursor, .refl h.cursor.inBounds, congrArg (· + 1) h.depth_eq, h.maxDepth_eq⟩

/-- To leave an attempt is to come back from one level deeper. -/
theorem left (h : s.Within B (depth + 1) b) (id stop : Nat) (failed : Bool) (shape : Shape) :
    (s.left id stop failed shape).Within B depth b :=
  ⟨h.base, h.cursor, h.extended, Nat.sub_eq_of_eq_add h.depth_eq, h.maxDepth_eq⟩

/-- Asking for the end of input tells whether any text is left. -/
theorem exists_atEnd (h : s.Within B depth b) :
    ∃ finished u, outcome Action.atEnd s = .ok (.ok finished, u) ∧ u.Within B depth b ∧
      u.cursor.position = s.cursor.position ∧
      (finished = false → s.cursor.position < Text.byteLength B.text) := by
  obtain ⟨before, rest, htext, hshows⟩ := h.cursor
  obtain ⟨d, hend, hd⟩ := hshows.atEnd
  refine ⟨rest.isEmpty, { s with cursor := d }, ?_, ?_, ?_, fun hmore => ?_⟩
  · change outcome (Action.ask .atEnd >>= Action.ofSource) s = _
    have hperform : s.cursor.perform .atEnd = .ok (.ok rest.isEmpty, d) := congrArg Except.ok hend
    rw [outcome_bind, outcome_ask, hperform]
    rfl
  · have hext := Cursor.Extends.atEnd hshows.inBounds
    rw [hend] at hext
    exact h.withCursor ⟨before, rest, htext, hd⟩ hext
  · rw [hshows.position]
    exact hd.position
  · rcases rest with _ | ⟨x, rest⟩
    · cases hmore
    · have hpos := x.utf8Size_pos
      rw [hshows.position, htext, Text.byteLength_append, Text.byteLength_cons]
      omega

end Session.Within

/-! ### Actions that end -/

namespace Bounds

variable {x : Action β}

/-- A sequence ends if its first part does and the rest does after it. -/
theorem Ended.bind {k : β → Action γ} (h : B.Ended depth b (outcome x s))
    (hk : ∀ v t, outcome x s = .ok (.ok v, t) → t.Within B depth b →
      B.Ended depth b (outcome (k v) t)) : B.Ended depth b (outcome (x >>= k) s) := by
  rw [outcome_bind]
  generalize outcome x s = o at h hk ⊢
  cases h with
  | fault hcause => exact .fault hcause
  | matched ht => exact hk _ _ rfl ht
  | failed hf ht => exact .failed hf ht

/-- To absorb a failure leaves one end less. -/
theorem Ended.recover (h : B.Ended depth b (outcome x s)) :
    B.Ended depth b (outcome (Action.recover x) s) := by
  rw [outcome_recover]
  generalize outcome x s = o at h ⊢
  cases h with
  | fault hcause => exact .fault hcause
  | matched ht => exact .matched ht
  | @failed f t hf ht =>
    by_cases hrecoverable : f.isRecoverable = true
    · simp only [if_pos hrecoverable]
      exact .matched ht
    · simp only [if_neg hrecoverable]
      exact .failed hf ht

/-- Going back only to a later place is enough. -/
theorem Ended.widen {o : Except Halt (Except Failure β × Session)} (hs : s.Within B depth b)
    (h : B.Ended depth s.cursor o) : B.Ended depth b o := by
  cases h with
  | fault hcause => exact .fault hcause
  | matched ht => exact .matched (hs.widen ht)
  | failed hf ht => exact .failed hf (hs.widen ht)

namespace Ends

/-- A value is an end. -/
theorem pure (v : β) : B.Ends depth b (pure v : Action β) :=
  fun _ hs => .matched hs

/-- A failure within bounds is one. -/
theorem throw {f : Failure} (hf : f.IsWithin B.limit) : B.Ends depth b (throw f : Action β) :=
  fun _ hs => .failed hf hs

/-- So is a fault that may happen. -/
theorem fault {cause : Fault} (h : B.faults cause) :
    B.Ends depth b (Action.fault cause : Action β) :=
  fun _ _ => .fault h

/-- A sequence ends wherever its parts do. -/
theorem bind {k : β → Action γ} (hx : B.Ends depth b x) (hk : ∀ v, B.Ends depth b (k v)) :
    B.Ends depth b (x >>= k) :=
  fun s hs => (hx s hs).bind fun v t _ ht => hk v t ht

/-- What starts by asking for the offset may go back there. -/
theorem here {k : Nat → Action β} (hk : ∀ b : Cursor, B.Ends depth b (k b.position)) :
    B.Ends depth b (Action.position >>= k) :=
  fun s hs => (hk s.cursor s hs.narrow).widen hs

/-- The way back to what is kept always exists. -/
theorem returnTo : B.Ends depth b (Action.returnTo b.position) := by
  intro s hs
  obtain ⟨d, hreturn, hback⟩ := hs.exists_returnTo
  rw [outcome_returnTo, hreturn]
  exact .matched hback

/-- An operation on the cursor whose answer is passed on. -/
theorem ofSource {request : Cursor.Request} {reply : request.Reply → Except SourceError β}
    (hrequest : request ≠ .release)
    (h : ∀ {before rest : List Char} {c : Cursor}, c.Shows 0 before rest →
      ∃ told v d, c.perform request = .ok (told, d) ∧ reply told = .ok v ∧
        d.StandsIn 0 (before ++ rest)) :
    B.Ends depth b (Action.ask request >>= fun told => Action.ofSource (reply told)) := by
  intro s hs
  obtain ⟨before, rest, htext, hshows⟩ := hs.cursor
  obtain ⟨told, v, d, hperform, hreply, hd⟩ := h hshows
  rw [outcome_bind, outcome_ask, hperform]
  dsimp only
  rw [outcome_ofSource, hreply]
  exact .matched (hs.withCursor (htext ▸ hd)
    (.perform_of_ne hshows.inBounds hrequest hperform))

/-- To commit a failure leaves it within bounds. -/
theorem cut (hx : B.Ends depth b x) : B.Ends depth b (Action.cut x) := by
  intro s hs
  have hend := hx s hs
  rw [outcome_cut]
  generalize outcome x s = o at hend ⊢
  cases hend with
  | fault hcause => exact .fault hcause
  | matched ht => exact .matched ht
  | failed hf ht => exact .failed hf.commit ht

/-- After a look ahead there is a way back. -/
theorem lookahead (hx : ∀ b, B.Ends depth b x) : B.Ends depth b (Action.lookahead x) := by
  intro s hs
  refine Ended.widen hs ?_
  -- The action may go back to where the look ahead started, and so can the cursor after it.
  have hend := hx s.cursor s hs.narrow
  rw [outcome_lookahead_eq]
  generalize outcome x s = o at hend ⊢
  cases hend with
  | fault hcause => exact .fault hcause
  | matched ht =>
    obtain ⟨d, hreturn, hback⟩ := ht.exists_returnTo
    simp only [hreturn]
    exact .matched hback
  | failed hf ht =>
    obtain ⟨d, hreturn, hback⟩ := ht.exists_returnTo
    simp only [hreturn]
    exact .failed hf hback

end Ends

end Bounds

open Bounds (Ended Ends)

/-- What is put together from actions that end does so too. -/
theorem correspondence_bounds (B : Bounds) (depth : Nat) :
    Engine.Correspondence sessionEngine sessionEngine
      (fun (b : Cursor) m n => m = b.position ∧ n = b.position)
      (fun b _ x _ => B.Ends depth b x) where
  pure := .pure
  bind := .bind
  map f h := h.bind fun v => .pure (f v)
  here h := .here fun b => h b _ _ ⟨rfl, rfl⟩
  returnTo := by
    rintro b _ _ ⟨rfl, rfl⟩
    exact .returnTo
  read n := .ofSource (by rintro ⟨⟩) fun h => by
    obtain ⟨d, hread, hd⟩ := h.read n
    exact ⟨_, _, d, hread, rfl, hd.standsIn_of_moved⟩
  readChar := .ofSource (by rintro ⟨⟩) fun h => by
    obtain ⟨d, hread, hd⟩ := h.readChar
    exact ⟨_, _, d, hread, rfl, hd.standsIn_of_moved⟩
  peek n := .ofSource (by rintro ⟨⟩) fun h => by
    obtain ⟨d, hpeek, hd⟩ := h.peek n
    exact ⟨_, _, d, hpeek, rfl, hd.standsIn⟩
  atEnd s hs := by
    obtain ⟨finished, u, hend, hu, -⟩ := hs.exists_atEnd
    change B.Ended depth _ (outcome Action.atEnd s)
    rw [hend]
    exact .matched hu
  expected _ _ := .throw (.inl rfl)
  expectedFound _ _ _ := .throw (.inl rfl)
  -- A rejection changes the trail only, which has no part in the bounds.
  reject reason _ s hs := by
    change B.Ended depth _ (outcome (Action.reject _ reason >>= fun f => throw f) s)
    rw [outcome_bind, outcome_reject]
    exact .failed (.inl rfl)
      ⟨hs.base, hs.cursor, hs.extended, hs.depth_eq, hs.maxDepth_eq⟩
  recover h := fun s hs => (h s hs).recover
  cut h := h.cut
  lookahead := .lookahead

/-! ### Loops -/

/-- A loop whose item consumes input ends, as every further turn has less text before it. -/
theorem ended_many {item : Action β} (hitem : B.Ends depth b item)
    (hconsumes : item.Consumes B.text B.limit) {turns : Nat} (done : List β)
    (hs : s.Within B depth b)
    (hturns : Text.byteLength B.text < s.cursor.position + turns) :
    B.Ended depth b (outcome (sessionEngine.many item turns done) s) := by
  -- By induction on the turns that may still be taken, which are more than the bytes left.
  induction turns generalizing s done with
  | zero => exact absurd hs.cursor.position_le (Nat.not_le_of_gt hturns)
  | succ turns ih =>
    obtain ⟨finished, u, hend, hu, hposition, hmore⟩ := hs.exists_atEnd
    change B.Ended depth b (outcome (Action.atEnd >>= _) s)
    rw [outcome_bind, hend]
    cases finished with
    | true => exact .matched hu
    | false =>
      refine Ended.bind (hitem u hu).recover fun found t hfound ht => ?_
      cases found with
      | none => exact .matched ht
      | some v =>
        have hless := hconsumes u v t hu.cursor hu.maxDepth_eq (hposition ▸ hmore rfl)
          (outcome_of_recover_eq_some hfound)
        exact ih (v :: done) ht (by omega)

/-- So does one whose separator and item together consume input. To go back over a separator that
no item follows is the last thing that it does. -/
theorem ended_sepTail {item : Action β} {separator : Action γ} (hitem : ∀ b, B.Ends depth b item)
    (hseparator : ∀ b, B.Ends depth b separator)
    (hconsumes : (separator >>= fun _ => item).Consumes B.text B.limit) {turns : Nat}
    (done : List β) (hs : s.Within B depth b)
    (hturns : Text.byteLength B.text < s.cursor.position + turns) :
    B.Ended depth b (outcome (sessionEngine.sepTail item separator turns done) s) := by
  induction turns generalizing b s done with
  | zero => exact absurd hs.cursor.position_le (Nat.not_le_of_gt hturns)
  | succ turns ih =>
    obtain ⟨finished, u, hend, hu, hposition, hmore⟩ := hs.exists_atEnd
    change B.Ended depth b (outcome (Action.atEnd >>= _) s)
    rw [outcome_bind, hend]
    cases finished with
    | true => exact .matched hu
    | false =>
      -- The round may go back to where it starts, which is a place of its own.
      change B.Ended depth b (outcome (Action.position >>= _) u)
      rw [outcome_position_bind]
      refine Ended.widen hu (Ended.bind (hseparator u.cursor u hu.narrow).recover
        fun found t hfound ht => ?_)
      cases found with
      | none => exact .matched ht
      | some w =>
        refine Ended.bind (hitem u.cursor t ht).recover fun found t' hfound' ht' => ?_
        cases found with
        | none => exact (Ends.returnTo.bind fun _ => .pure _) t' ht'
        | some v =>
          have hround : outcome (separator >>= fun _ => item) u = .ok (.ok v, t') := by
            rw [outcome_bind, outcome_of_recover_eq_some hfound]
            exact outcome_of_recover_eq_some hfound'
          have hless := hconsumes u v t' hu.cursor hu.maxDepth_eq (hposition ▸ hmore rfl) hround
          exact ih (v :: done) ht' (by omega)

/-! ### Attempts -/

/-- An attempt ends if its action does so one level deeper. At the limit it is not even opened. -/
theorem ends_recorded (hlimit : 0 < B.limit) (hdepth : depth ≤ B.limit) (label : String)
    (shape : Shape) {x : Action β} (hx : depth < B.limit → ∀ b, B.Ends (depth + 1) b x)
    (b : Cursor) : B.Ends depth b (Action.recorded label shape x) := by
  intro s hs
  have hmax := hs.maxDepth_eq
  have hlevel := hs.depth_eq
  rw [outcome_recorded]
  by_cases hdeep : s.maxDepth ≠ 0 ∧ s.depth ≥ s.maxDepth
  · rw [if_pos hdeep]
    refine .failed (.inr ?_) hs
    rw [hmax, show s.depth = B.limit by omega]
  · rw [if_neg hdeep]
    have hend := hx (by omega) s.cursor _ (hs.entered label shape.anchor)
    refine Ended.widen hs ?_
    generalize outcome x (s.entered label shape.anchor) = o at hend ⊢
    cases hend with
    | fault hcause => exact .fault hcause
    | matched ht => exact .matched (ht.left _ _ _ _)
    | failed hf ht =>
      -- The cursor goes back before the attempt is left.
      obtain ⟨d, hreturn, hback⟩ := ht.exists_returnTo
      simp only [hreturn]
      exact .failed hf (hback.left _ _ _ _)

end ParseTrail
