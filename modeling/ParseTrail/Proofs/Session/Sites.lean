import ParseTrail.Proofs.Session.Moments
import ParseTrail.Proofs.Trail.Nested

/-!
# Where attempts start and stop

An attempt starts where the cursor stands when it is opened, and stops where the cursor stands when
it is closed, or where one of its children does. So whatever a trail tells of offsets, the cursor
has been there: in a chronicle, every attempt starts and stops where the cursor stood at some moment
so far.

- `Trail.Offsets.push`, `Trail.Offsets.close`: a trail whose attempts start and stop at some
  offsets;
- `sited_run`, `sited_steps`: the chronicles of parsers without procedures.
-/

namespace ParseTrail

namespace Trail

variable {t u : Trail} {P P' : Nat → Prop} {id offset stop : Nat}

/-- All attempts start and stop at certain offsets. -/
def Offsets (t : Trail) (P : Nat → Prop) : Prop :=
  ∀ id < t.size, P (t.startOf id) ∧ P (t.stopOf id)

namespace Offsets

/-- There may be more offsets to start and stop at. -/
theorem mono (h : t.Offsets P) (hP : ∀ n, P n → P' n) : t.Offsets P' :=
  fun id hid => ⟨hP _ (h id hid).1, hP _ (h id hid).2⟩

/-- It is for the extents of attempts to tell where they start and stop. -/
theorem of_extent (h : t.Offsets P) (hsize : u.size = t.size) (hextent : u.extent? = t.extent?) :
    u.Offsets P := by
  intro id hid
  rw [hsize] at hid
  rw [startOf_congr (congrFun hextent id), stopOf_congr (congrFun hextent id)]
  exact h id hid

/-- A new attempt starts and stops where it is opened. -/
theorem push (h : t.Offsets P) (hoffset : P offset) (parent : Nat) (label : String)
    (anchor : Bool) : (t.push parent offset label anchor).2.Offsets P := by
  intro id hid
  rw [size_push] at hid
  rw [startOf_eq_extent, stopOf_eq_extent, extent?_push]
  by_cases hnew : id = t.size
  · rw [if_pos hnew]
    exact ⟨hoffset, hoffset⟩
  · rw [if_neg hnew, ← startOf_eq_extent, ← stopOf_eq_extent]
    exact h id (by omega)

/-- An attempt that is closed stops where it is told to, where it starts, or where one of its
children stops. -/
theorem close (h : t.Offsets P) (hstop : P stop) (id : Nat) (failed : Bool) :
    (t.close id stop failed).Offsets P := by
  intro j hj
  rw [(sameStarts_close t id stop failed).size] at hj
  rw [startOf_close]
  refine ⟨(h j hj).1, ?_⟩
  by_cases hid : j = id
  · subst hid
    -- It stops where it was closed, where a child of it does, or where it starts.
    have hreached : P (if failed then t.furthestStop stop (t.children j) else stop) := by
      split
      · rcases t.furthestStop_eq_or stop (t.children j) with heq | ⟨c, -, hsize, heq⟩
        · rwa [heq]
        · rw [heq]
          exact (h c hsize).2
      · exact hstop
    rw [stopOf_close hj]
    rcases Nat.le_total (if failed then t.furthestStop stop (t.children j) else stop)
      (t.startOf j) with hle | hle
    · rw [Nat.max_eq_right hle]
      exact (h j hj).1
    · rwa [Nat.max_eq_left hle]
  · rw [stopOf_congr (extent?_close_of_ne hid stop failed)]
    exact (h j hj).2

end Offsets

end Trail

/-! ### Sessions -/

/-- At one of several moments the cursor stood at an offset. -/
def Stood (past : List Session) (n : Nat) : Prop :=
  ∃ m ∈ past, m.cursor.position = n

/-- The cursor stands where it stood at one of several moments, and attempts start and stop where it
did. -/
structure Session.Sited (past : List Session) (s : Session) : Prop where
  position : Stood past s.cursor.position
  offsets : s.trail.Offsets (Stood past)

/-- So it is with each of the sessions that follow, when its time comes. -/
def SitedAll : List Session → List Session → Prop
  | _, [] => True
  | past, s :: later => s.Sited (past ++ [s]) ∧ SitedAll (past ++ [s]) later

variable {past more earlier later : List Session} {s t : Session} {b n : Nat}

/-- More moments may be looked at. -/
theorem Stood.append (h : Stood past n) (more : List Session) : Stood (past ++ more) n := by
  obtain ⟨m, hm, hn⟩ := h
  exact ⟨m, List.mem_append_left more hm, hn⟩

namespace Session

/-- So they may for a whole session. -/
theorem Sited.append (h : s.Sited past) (more : List Session) : s.Sited (past ++ more) :=
  ⟨h.position.append more, h.offsets.mono fun _ hn => hn.append more⟩

/-- At its own moment the cursor stands where it stands. -/
theorem sited_last (h : s.trail.Offsets (Stood past)) : s.Sited (past ++ [s]) :=
  ⟨⟨s, List.mem_concat_self, rfl⟩, h.mono fun _ hn => hn.append [s]⟩

/-- A session that starts is sited in itself. -/
theorem sited_start (c : Cursor) (config : Config) :
    (Session.start c config).Sited [Session.start c config] := by
  have hstood : Stood [Session.start c config] c.position := ⟨_, List.mem_singleton_self _, rfl⟩
  refine ⟨hstood, fun id hid => ?_⟩
  -- There is nothing but the root.
  rw [show id = 0 from Nat.lt_one_iff.mp hid]
  exact ⟨hstood, hstood⟩

/-- An attempt that fails at once stands between two places where the cursor stood. -/
theorem offsets_rejected (h : s.Sited past) (hn : Stood past n) (label : String) :
    ((s.trail.push s.current n label false).2.close s.trail.size s.cursor.position true).Offsets
      (Stood past) :=
  (h.offsets.push hn s.current label false).close h.position s.trail.size true

/-- A new attempt starts where the cursor stands. -/
theorem sited_entered (h : s.Sited past) (label : String) (anchor : Bool) :
    (s.entered label anchor).Sited past :=
  ⟨h.position, h.offsets.push h.position s.current label anchor⟩

/-- An attempt that is left adds one offset at most, the one where it stops. -/
theorem offsets_left {P : Nat → Prop} (h : s.trail.Offsets P) {stop : Nat} (hstop : P stop)
    (id : Nat) (failed : Bool) (shape : Shape) : (s.left id stop failed shape).trail.Offsets P := by
  obtain ⟨u, hu, -, htrail⟩ := s.left_of_steps (P := (Trail.Offsets · P)) shape
    (h.close hstop id failed)
    (fun u hu => hu.of_extent (Trail.sameStarts_clearChildren u id).size
      (Trail.extent?_clearChildren u id))
    (fun u hu => hu.of_extent (Trail.sameStarts_dissolveToAnchor u id).size
      (Trail.marked_dissolveToAnchor u id).1)
  rcases htrail with htrail | htrail
  · rw [htrail]
    exact hu
  · rw [htrail]
    exact hu.of_extent (Trail.sameStarts_dissolve u id).size (Trail.extent?_dissolve u id)

end Session

namespace SitedAll

/-- Sessions one after the other may be looked at in two parts. -/
theorem append_iff :
    SitedAll past (earlier ++ later) ↔
      SitedAll past earlier ∧ SitedAll (past ++ earlier) later := by
  induction earlier generalizing past with
  | nil => simp [SitedAll]
  | cons m earlier ih => simp [SitedAll, ih, and_assoc]

/-- Each session is sited in those up to it. -/
theorem sited (h : SitedAll past (earlier ++ s :: later)) : s.Sited (past ++ (earlier ++ [s])) := by
  have hs := (append_iff.mp h).2.1
  rwa [List.append_assoc] at hs

end SitedAll

/-! ### Chronicles -/

/-- Wherever a computation starts that may go back to an offset, if the session is sited in those
before, so are all that it passes through, and so is the one in which it ends. -/
def Chronicle.Sited {β : Type} (b : Nat) (x : Chronicle β) : Prop :=
  ∀ past s, Stood past b → s.Sited past →
    SitedAll past (x s).2 ∧ ∀ r t, (x s).1 = .ok (r, t) → t.Sited (past ++ (x s).2)

variable {β γ κ α : Type} {x : Chronicle β}

/-- Where a single action ends, the cursor stands at a moment of its own. -/
theorem sited_lastSession {o : Except Halt (Except Failure β × Session)}
    (ho : ∀ r t, o = .ok (r, t) → t.trail.Offsets (Stood past)) :
    SitedAll past (lastSession o) ∧ ∀ r t, o = .ok (r, t) → t.Sited (past ++ lastSession o) := by
  rcases o with halt | ⟨r, t⟩
  · exact ⟨trivial, fun _ _ ht => nomatch ht⟩
  · have ht := Session.sited_last (ho r t rfl)
    refine ⟨⟨ht, trivial⟩, ?_⟩
    rintro _ _ ⟨⟩
    exact ht

/-- So only the attempts of a single action have to be looked at. -/
theorem sited_of {y : Action β}
    (hy : ∀ past s r t, Stood past b → s.Sited past → outcome y s = .ok (r, t) →
      t.trail.Offsets (Stood past)) : Chronicle.Sited b (.of y) :=
  fun past s hb hs => sited_lastSession fun r t ht => hy past s r t hb hs ht

/-- An action that leaves the trail alone. -/
theorem sited_of_trail {y : Action β} (hy : ∀ s r t, outcome y s = .ok (r, t) → t.trail = s.trail) :
    Chronicle.Sited b (.of y) := by
  refine sited_of fun past s r t _ hs ht => ?_
  rw [hy s r t ht]
  exact hs.offsets

/-- A computation with the cursor leaves the trail alone. -/
theorem trail_ofReading {y : Reading β} {r : Except Failure β}
    (h : outcome (Action.ofReading y) s = .ok (r, t)) : t.trail = s.trail := by
  rw [outcome_ofReading] at h
  split at h
  · cases h
  · cases h
    rfl

/-- An operation on the cursor does not touch the trail. -/
theorem trail_ofSource {request : Cursor.Request} {reply : request.Reply → Except SourceError β}
    {r : Except Failure β}
    (h : outcome (Action.ask request >>= fun told => Action.ofSource (reply told)) s = .ok (r, t)) :
    t.trail = s.trail := by
  rw [outcome_bind, outcome_ask] at h
  rcases hperform : s.cursor.perform request with cause | ⟨told, d⟩
  · rw [hperform] at h
    cases h
  · rw [hperform] at h
    dsimp only at h
    rw [outcome_ofSource] at h
    split at h
    · cases h
      rfl
    · cases h
      rfl

/-- A value has no moments. -/
theorem sited_pure (v : β) : Chronicle.Sited b (pure v) := by
  intro past s _ hs
  refine ⟨trivial, ?_⟩
  rintro _ _ ⟨⟩
  exact hs.append []

/-- In a sequence, the rest is sited in the moments of the first part and those before. -/
theorem sited_bind {f : β → Chronicle γ} (hx : Chronicle.Sited b x)
    (hf : ∀ v, Chronicle.Sited b (f v)) : Chronicle.Sited b (x >>= f) := by
  intro past s hb hs
  change SitedAll past (Chronicle.andThen x f s).2 ∧ ∀ r t,
    (Chronicle.andThen x f s).1 = .ok (r, t) → t.Sited (past ++ (Chronicle.andThen x f s).2)
  obtain ⟨hall, hends⟩ := hx past s hb hs
  rw [Chronicle.andThen]
  generalize x s = told at hall hends
  rcases told with ⟨halt | ⟨e | v, t⟩, log⟩
  · refine ⟨hall, ?_⟩
    rintro _ _ ⟨⟩
  · refine ⟨hall, ?_⟩
    rintro _ _ ⟨⟩
    exact hends _ _ rfl
  · -- What comes next has all of this in its past.
    obtain ⟨hall', hends'⟩ := hf v (past ++ log) t (hb.append log) (hends _ t rfl)
    refine ⟨SitedAll.append_iff.mpr ⟨hall, hall'⟩, fun r u hu => ?_⟩
    have hu' := hends' r u hu
    rwa [List.append_assoc] at hu'

/-- A computation around a part of it. The part begins in a session that is sited, and what is done
after it adds no other offsets than that of the cursor. -/
theorem sited_within {begins : Session → Option Session} {F : Action β → Action γ}
    (hbegins : ∀ past s t, Stood past b → s.Sited past → begins s = some t →
      t.Sited past ∧ ∃ b', Stood past b' ∧ Chronicle.Sited b' x)
    (hends : ∀ s r u, outcome (F x.action) s = .ok (r, u) → u.trail = s.trail ∨
      ∃ t r' u', begins s = some t ∧ outcome x.action t = .ok (r', u') ∧
        ∀ P : Nat → Prop, P u'.cursor.position → u'.trail.Offsets P → u.trail.Offsets P) :
    Chronicle.Sited b (.within begins F x) := by
  intro past s hb hs
  have hends := hends s
  have hbegins := hbegins past s
  rw [Chronicle.within]
  -- Without a part there is only the last session. With one, its moments come before that.
  cases hbegin : begins s with
  | none =>
    refine sited_lastSession fun r u hu => ?_
    rcases hends r u hu with htrail | ⟨t, _, _, ht, -⟩
    · rw [htrail]
      exact hs.offsets
    · rw [hbegin] at ht
      cases ht
  | some t =>
    obtain ⟨ht, b', hb', hx⟩ := hbegins t hb hs hbegin
    obtain ⟨hall, hpart⟩ := hx (past ++ [t]) t (hb'.append [t]) (ht.append [t])
    have hlast : ∀ r u, outcome (F x.action) s = .ok (r, u) →
        u.trail.Offsets (Stood (past ++ t :: (x t).2)) := by
      intro r u hu
      rcases hends r u hu with htrail | ⟨t', r', u', ht', hout, hafter⟩
      · rw [htrail]
        exact (hs.append _).offsets
      · rw [hbegin, Option.some.injEq] at ht'
        subst ht'
        have hu' := hpart r' u' hout
        rw [List.append_assoc] at hu'
        exact hafter _ hu'.position hu'.offsets
    obtain ⟨hlastAll, hlastEnds⟩ := sited_lastSession hlast
    refine ⟨SitedAll.append_iff.mpr ⟨⟨ht.append [t] , hall⟩, hlastAll⟩, fun r u hu => ?_⟩
    have hu' := hlastEnds r u hu
    rwa [List.append_assoc] at hu'

/-- The part may begin where the whole does, and end where it ends but for the cursor. -/
theorem sited_within_some {F : Action β → Action γ} (hx : Chronicle.Sited b x)
    (hends : ∀ s r u, outcome (F x.action) s = .ok (r, u) →
      ∃ r' u', outcome x.action s = .ok (r', u') ∧ u.trail = u'.trail) :
    Chronicle.Sited b (.within some F x) := by
  refine sited_within (fun past s t hb hs ht => ?_) fun s r u hu => ?_
  · cases ht
    exact ⟨hs, b, hb, hx⟩
  · obtain ⟨r', u', hu', htrail⟩ := hends s r u hu
    refine .inr ⟨s, r', u', rfl, hu', fun P _ hP => ?_⟩
    rw [htrail]
    exact hP

/-- A recorded action starts where it is entered and stops where it is left. -/
theorem sited_recorded (label : String) (shape : Shape) (hx : ∀ b, Chronicle.Sited b x) :
    Chronicle.Sited b (chronicleEngine.recorded label shape x) := by
  refine sited_within (fun past s t hb hs ht => ?_) fun s r u hu => ?_
  · rw [Session.enter?] at ht
    split at ht
    · cases ht
    · cases ht
      exact ⟨Session.sited_entered hs label shape.anchor, b, hb, hx b⟩
  · by_cases hdeep : s.maxDepth ≠ 0 ∧ s.depth ≥ s.maxDepth
    · change outcome (Action.recorded label shape x.action) s = _ at hu
      rw [outcome_recorded, if_pos hdeep] at hu
      cases hu
      exact .inl rfl
    · have henter : s.enter? label shape = some (s.entered label shape.anchor) := if_neg hdeep
      cases recorded_of_outcome hu with
      | tooDeep h => exact absurd h hdeep
      | @matched v t ht =>
        exact .inr ⟨_, _, t, henter, ht, fun P hstop hP => Session.offsets_left hP hstop _ _ _⟩
      | @failed f t d ht _ =>
        exact .inr ⟨_, _, t, henter, ht, fun P hstop hP =>
          Session.offsets_left (s := { t with cursor := d }) hP hstop _ _ _⟩

/-- All ways of putting computations together leave sessions sited. -/
theorem simulation_sited :
    Engine.Simulation chronicleEngine chronicleEngine (fun b m n => m = b ∧ n = b)
      (fun b _ x _ => Chronicle.Sited b x) where
  pure := sited_pure
  bind := sited_bind
  map f h := sited_bind h fun v => sited_pure (f v)
  here := by
    intro b β f _ hf past s hb hs
    -- The offset asked for is one where the cursor stands now.
    have hs' := Session.sited_last hs.offsets
    obtain ⟨hall, hends⟩ := hf s.cursor.position _ _ ⟨rfl, rfl⟩ (past ++ [s]) s hs'.position hs'
    refine ⟨⟨hs', hall⟩, fun r t ht => ?_⟩
    have ht' := hends r t ht
    rwa [List.append_assoc] at ht'
  returnTo _ := sited_of_trail fun s r t ht => trail_ofReading ht
  read _ := sited_of_trail fun s r t ht => trail_ofSource ht
  readChar := sited_of_trail fun s r t ht => trail_ofSource ht
  peek _ := sited_of_trail fun s r t ht => trail_ofSource ht
  atEnd := sited_of_trail fun s r t ht => trail_ofSource ht
  expected _ _ := sited_of_trail fun s r t ht => by cases ht; rfl
  expectedFound _ _ _ := sited_of_trail fun s r t ht => by cases ht; rfl
  reject := by
    rintro b _ _ β label ⟨rfl, rfl⟩
    refine sited_of fun past s r t hb hs ht => ?_
    cases ht
    exact Session.offsets_rejected hs hb label
  outOfFuel := sited_of_trail fun s r t ht => nomatch ht
  limitExceeded := sited_of_trail fun s r t ht => nomatch ht
  rulePending := sited_of_trail fun s r t ht => nomatch ht
  ruleDropped := sited_of_trail fun s r t ht => nomatch ht
  recover h := by
    refine sited_within_some h fun s r u hu => ?_
    rw [outcome_recover] at hu
    split at hu
    · cases hu
    · next hout =>
      cases hu
      exact ⟨_, _, hout, rfl⟩
    · next hout =>
      split at hu
      · cases hu
        exact ⟨_, _, hout, rfl⟩
      · cases hu
        exact ⟨_, _, hout, rfl⟩
  cut h := by
    refine sited_within_some h fun s r u hu => ?_
    rw [outcome_cut] at hu
    split at hu
    · cases hu
    · next hout =>
      cases hu
      exact ⟨_, _, hout, rfl⟩
    · next hout =>
      cases hu
      exact ⟨_, _, hout, rfl⟩
  lookahead h := by
    refine sited_within_some (h _) fun s r u hu => ?_
    rw [outcome_lookahead_eq] at hu
    split at hu
    · cases hu
    · next hout =>
      split at hu
      · cases hu
      · cases hu
        exact ⟨_, _, hout, rfl⟩

/-- All that a parser passes through is sited, wherever it starts. -/
theorem sited_run (g : Grammar Empty α) (fuel : Nat) (p : Parser Empty α) (b : Nat) :
    Chronicle.Sited b (p.chronicle g fuel) :=
  simulation_sited.run_alone (fun label shape _ hx _ => sited_recorded label shape hx)
    (fun _ _ key => key.elim) fuel p b

/-- Steps that only run parsers leave sessions sited, if the parsers do. -/
theorem sited_steps {g : Grammar κ α} {run : Parser κ α → Chronicle (Value α)}
    (hrun : ∀ p b, Chronicle.Sited b (run p)) {steps : Procedure κ α} (h : steps.OnlyRuns)
    (b : Nat) : Chronicle.Sited b (steps.chronicle g run) := by
  induction steps with
  | done v => exact sited_pure v
  | fail f => exact sited_of_trail fun s r t ht => by cases ht; rfl
  | depth next ih => exact fun past s => ih s.depth (h s.depth) past s
  | trail next ih => exact fun past s => ih s.trail (h s.trail) past s
  | attempt p next ih =>
    refine sited_bind ?_ fun r => ih r (h r)
    refine sited_within_some (hrun p b) fun s r u hu => ?_
    rw [outcome_attempt] at hu
    split at hu
    · cases hu
    · next hout =>
      cases hu
      exact ⟨_, _, hout, rfl⟩
  | _ => exact h.elim

end ParseTrail
