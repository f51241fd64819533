import ParseTrail.Proofs.Recording
import ParseTrail.Proofs.Session.Ledger

/-!
# Dissolving up to an anchor

An attempt may dissolve those around it, up to the nearest anchor. They are in progress when it
completes, so they are marked, and each of them is dissolved when it completes in turn, if it is not
dropped by then. By the end of a run all of this has been done:

- `Grammar.MayRun`: the parsers that a parser can come to run on its trail;
- `Session.deferred_left`: what one attempt that completes does to what is deferred;
- `Ledger.Settles`: what a whole computation does to it;
- `outer_dissolution_reaches_anchor`: after a run, an attempt that dissolved those around it is
  right below the anchor.
-/

namespace ParseTrail

section

variable {κ α : Type}

/-! ### Parsers on one trail -/

/-- The steps of a procedure may run a parser in the session that they are in. -/
def Procedure.MayRun (q : Parser κ α) : Procedure κ α → Prop
  | .done _ | .fail _ | .fault _ => False
  | .depth next => ∃ n, (next n).MayRun q
  | .trail next => ∃ t, (next t).MayRun q
  | .cursor _ next => ∃ reply, (next reply).MayRun q
  | .attempt p next => p = q ∨ ∃ r, (next r).MayRun q
  | .reject _ _ next => ∃ f, (next f).MayRun q
  | .speculate _ body next => body.MayRun q ∨ ∃ r, (next r).MayRun q
  | .parse _ _ next => ∃ r, (next r).MayRun q
  | .lookahead _ next => ∃ r, (next r).MayRun q
  | .parseText _ _ next => ∃ r, (next r).MayRun q
  | .apart _ _ next => ∃ r t, (next r t).MayRun q

/-- The parsers that a parser can come to run in the session that it is in, itself included. -/
inductive Grammar.MayRun (g : Grammar κ α) (p : Parser κ α) : Parser κ α → Prop
  | self : Grammar.MayRun g p p
  | part {q r : Parser κ α} : Grammar.MayRun g p q → r ∈ q.matcher.parts → Grammar.MayRun g p r
  | rule {q r : Parser κ α} {key : Nat} : Grammar.MayRun g p q → q.matcher = .rule key →
    g.rules key = .defined r → Grammar.MayRun g p r
  | procedure {q r : Parser κ α} {key : κ} : Grammar.MayRun g p q → q.matcher = .procedure key →
    (g.procedures key).MayRun r → Grammar.MayRun g p r

end

/-! ### One attempt -/

/-- A session leads to another while some attempts complete, and what is deferred is kept. -/
structure Session.Completes (s t : Session) (past entered : List Completion) : Prop where
  resumes : s.Resumes t
  marked : s.trail.Marked t.trail
  deferred : t.trail.Deferred t.current (past ++ entered)

namespace Session

variable {s t u : Session} {past first second : List Completion} {label : String} {shape : Shape}

/-- Only the cursor moves. -/
theorem Completes.withCursor (hs : s.Orderly) (h : s.trail.Deferred s.current past) (d : Cursor) :
    s.Completes { s with cursor := d } past [] where
  resumes := hs.withCursor d
  marked := .refl _
  deferred := (List.append_nil past).symm ▸ h

/-- Attempts that complete one after the other do so as one list. -/
theorem Completes.trans (hst : s.Completes t past first)
    (htu : t.Completes u (past ++ first) second) : s.Completes u past (first ++ second) where
  resumes := hst.resumes.trans htu.resumes
  marked := hst.marked.trans htu.marked
  deferred := List.append_assoc past first second ▸ htu.deferred

/-- Rejecting what was matched leaves an attempt that is no anchor and not marked. -/
theorem completes_rejected (hs : s.Orderly) (h : s.trail.Deferred s.current past) (offset : Nat)
    (label : String) :
    s.Completes { s with
      trail := (s.trail.push s.current offset label false).2.close s.trail.size
        s.cursor.position true } past [] := by
  obtain ⟨hlinked, hcurrent⟩ := hs.ready
  have hpushed := hlinked.push hcurrent offset label false
  have hopens := (Trail.Opens.push hlinked hcurrent offset label false).close s.cursor.position true
  have hsize : s.trail.size < (s.trail.push s.current offset label false).2.size := by
    rw [Trail.size_push]
    exact Nat.lt_succ_self _
  have hclosed := (h.push hlinked hcurrent offset label false).close hpushed hsize s.trail.size
    s.cursor.position true
  obtain ⟨hanchor, hdissolving⟩ := Trail.flags_close (s.trail.push s.current offset label false).2
    s.trail.size s.cursor.position true
  refine ⟨resumes_rejected hs offset label, ?_, ?_⟩
  · exact (Trail.Marked.push hcurrent offset label false).trans (Trail.marked_close _ _ _ _)
  · refine hclosed.keep hopens.linked hopens.parent? ?_ (by simp) (fun hid => ?_) (by simp)
    · rw [hdissolving, Trail.isDissolving_push hcurrent, if_pos rfl]
    · rw [hanchor, Trail.isAnchor_push hcurrent, if_pos rfl] at hid
      cases hid

/-- Closing an attempt takes no mark off. -/
theorem marked_left (t : Session) (id stop : Nat) (failed : Bool) (shape : Shape) :
    t.trail.Marked (t.left id stop failed shape).trail := by
  have hclose := t.trail.marked_close id stop failed
  have hleaf := hclose.ite (Trail.marked_clearChildren · id) (shape.leaf = true)
  have houter := hleaf.ite (Trail.Marked.dissolveToAnchor · id) (shape.dissolveOuter = true)
  exact houter.ite (Trail.marked_dissolve · id) _

/-- An attempt of a parser is being closed: it is still in progress on the trail. -/
structure Closing (s : Session) (shape : Shape) (nearest : Nat) (past : List Completion)
    (u : Trail) : Prop where
  opens : s.trail.Opens u s.current
  deferred : u.Deferred s.trail.size past
  isAnchor : u.isAnchor s.trail.size = shape.anchor
  nearest : u.nearestAnchor s.trail.size = nearest

namespace Closing

variable {nearest : Nat} {u : Trail}

/-- To close the attempt leaves the flags and the ways up. -/
theorem close (h : s.Closing shape nearest past u) (stop : Nat) (failed : Bool) :
    s.Closing shape nearest past (u.close s.trail.size stop failed) where
  opens := h.opens.close stop failed
  deferred := h.deferred.close h.opens.linked h.opens.lt_size _ stop failed
  isAnchor := by rw [(Trail.flags_close _ _ _ _).1, h.isAnchor]
  nearest := by rw [h.opens.linked.nearestAnchor_close, h.nearest]

/-- To drop what was made for it leaves them, too. -/
theorem clearChildren (h : s.Closing shape nearest past u) :
    s.Closing shape nearest past (u.clearChildren s.trail.size) where
  opens := h.opens.clearChildren
  deferred := h.deferred.clearChildren h.opens.linked h.opens.lt_size
  isAnchor := by rw [(Trail.flags_clearChildren _ _).1, h.isAnchor]
  nearest := by rw [h.opens.linked.nearestAnchor_clearChildren, h.nearest]

/-- To mark what stands above it leaves the anchors and adds to the marks. -/
theorem dissolveToAnchor (h : s.Closing shape nearest past u) :
    s.Closing shape nearest past (u.dissolveToAnchor s.trail.size) where
  opens := h.opens.dissolveToAnchor
  deferred := h.deferred.dissolveToAnchor h.opens.linked h.opens.lt_size _
  isAnchor := by rw [Trail.isAnchor_dissolveToAnchor, h.isAnchor]
  nearest := by rw [h.opens.linked.nearestAnchor_dissolveToAnchor, h.nearest]

/-- Once those around it are marked, they give way to the anchor. -/
theorem givesWay (h : s.Closing shape nearest past u) :
    (u.dissolveToAnchor s.trail.size).GivesWay nearest s.current := by
  have hpos : 0 < s.trail.size := Nat.lt_of_le_of_lt (Nat.zero_le _) h.opens.parent_lt
  have hreach := h.deferred.within.up h.opens.linked h.opens.parent? (Nat.ne_of_lt hpos)
  rw [← h.nearest]
  exact h.opens.linked.givesWay_dissolveToAnchor h.deferred.root hreach h.opens.parent?

/-- At last it stays or is dissolved. What is dissolved is marked, or its shape says so, and in
neither case is it an anchor. -/
theorem entered (h : s.Closing shape nearest past u)
    (hway : shape.dissolveOuter = true → u.GivesWay nearest s.current)
    (hshape : ¬(shape.dissolve = true ∧ shape.anchor = true)) :
    (if shape.dissolve || u.isDissolving s.trail.size then u.dissolve s.trail.size
      else u).Deferred s.current (past ++ [⟨s.trail.size, shape, nearest⟩]) := by
  by_cases hdissolve : (shape.dissolve || u.isDissolving s.trail.size) = true
  · rw [if_pos hdissolve]
    refine h.deferred.dissolve h.opens.linked h.opens.parent? ?_ (by simp)
    rw [← Bool.not_eq_true]
    intro hanchored
    rw [h.deferred.unmarked s.trail.size hanchored, Bool.or_false] at hdissolve
    exact hshape ⟨hdissolve, h.isAnchor ▸ hanchored⟩
  · rw [if_neg hdissolve]
    rw [Bool.or_eq_true, not_or, Bool.not_eq_true, Bool.not_eq_true] at hdissolve
    refine h.deferred.keep h.opens.linked h.opens.parent? hdissolve.2 (by simp)
      (fun hanchored => ?_) (by simpa using hway)
    exact ⟨_, List.mem_singleton_self _, h.isAnchor ▸ hanchored⟩

end Closing

/-- An attempt completes. If it dissolves those around it, they are marked up to the nearest anchor.
-/
theorem deferred_left (hs : s.Orderly) (ht : (s.entered label shape.anchor).Resumes t)
    (hmarked : (s.entered label shape.anchor).trail.Marked t.trail)
    (h : t.trail.Deferred t.current past) (hshape : ¬(shape.dissolve = true ∧ shape.anchor = true))
    (stop : Nat) (failed : Bool) :
    (t.left s.trail.size stop failed shape).trail.Deferred
      (t.left s.trail.size stop failed shape).current
      (past ++ [⟨s.trail.size, shape, t.trail.nearestAnchor s.trail.size⟩]) := by
  obtain ⟨hlinked, hcurrent⟩ := hs.ready
  have hid : t.current = s.trail.size := ht.current
  have hclosing : s.Closing shape (t.trail.nearestAnchor s.trail.size) past t.trail := by
    refine ⟨?_, hid ▸ h, ?_, rfl⟩
    · exact (Trail.Opens.push hlinked hcurrent s.cursor.position label shape.anchor).mono
        ht.orderly.ready.linked ht.keeps
    · have hsize : s.trail.size < (s.entered label shape.anchor).trail.size := by
        rw [Session.entered, Trail.size_push]
        exact Nat.lt_succ_self _
      rw [hmarked.isAnchor _ hsize, Session.entered, Trail.isAnchor_push hcurrent, if_pos rfl]
  -- It is closed, and its children may be dropped. Nothing changes above it.
  have hdropped : s.Closing shape (t.trail.nearestAnchor s.trail.size) past
      (if shape.leaf then (t.trail.close s.trail.size stop failed).clearChildren s.trail.size
        else t.trail.close s.trail.size stop failed) := by
    split
    · exact (hclosing.close stop failed).clearChildren
    · exact hclosing.close stop failed
  rw [Session.left]
  generalize (if shape.leaf then (t.trail.close s.trail.size stop failed).clearChildren s.trail.size
    else t.trail.close s.trail.size stop failed) = u at hdropped ⊢
  -- Then those around it may be marked.
  dsimp only
  split
  · rw [hdropped.dissolveToAnchor.opens.parent?]
    exact hdropped.dissolveToAnchor.entered (fun _ => hdropped.givesWay) hshape
  · next houter =>
    rw [hdropped.opens.parent?]
    exact hdropped.entered (fun hmarks => absurd hmarks houter) hshape

end Session

/-! ### Whole computations -/

/-- A computation has an answer in a session that only differs in the cursor. -/
def Action.MovesOnly {β : Type} (x : Action β) : Prop :=
  ∀ s r t, outcome x s = .ok (r, t) → ∃ d, t = { s with cursor := d }

namespace Action.MovesOnly

variable {β : Type}

/-- A value does not even move the cursor. -/
theorem pure (v : β) : MovesOnly (Pure.pure v : Action β) := by
  intro s r t ht
  cases ht
  exact ⟨s.cursor, rfl⟩

/-- Neither does a failure. -/
theorem throw (f : Failure) : MovesOnly (throw f : Action β) := by
  intro s r t ht
  cases ht
  exact ⟨s.cursor, rfl⟩

/-- What halts has no answer. -/
theorem halt (h : Halt) : MovesOnly (throwThe Halt h : Action β) := by
  intro s r t ht
  cases ht

/-- What is done with the cursor touches nothing else. -/
theorem ofReading (x : Reading β) : MovesOnly (Action.ofReading x) := by
  intro s r t ht
  rw [outcome_ofReading] at ht
  split at ht
  · cases ht
  · cases ht
    exact ⟨_, rfl⟩

/-- What may only halt touches nothing. -/
theorem liftM (x : Except Halt β) : MovesOnly (liftM x : Action β) := by
  intro s r t ht
  rw [outcome_liftM] at ht
  split at ht
  · cases ht
  · cases ht
    exact ⟨s.cursor, rfl⟩

/-- Asking the cursor, an error of the source fails. -/
theorem ofSource {request : Cursor.Request} (reply : request.Reply → Except SourceError β) :
    MovesOnly (Action.ask request >>= fun told => Action.ofSource (reply told)) := by
  intro s r t ht
  rw [outcome_bind, outcome_ask] at ht
  rcases hperform : s.cursor.perform request with cause | ⟨told, d⟩
  · rw [hperform] at ht
    cases ht
  · rw [hperform] at ht
    dsimp only at ht
    rw [outcome_ofSource] at ht
    -- An answer and an error of the source leave the cursor where it is.
    split at ht
    · cases ht
      exact ⟨d, rfl⟩
    · cases ht
      exact ⟨d, rfl⟩

end Action.MovesOnly

namespace Ledger

variable {β γ : Type}

/-- Whatever comes of a computation, what is deferred is kept, with the attempts that complete in
it. -/
def Settles (x : Ledger β) : Prop :=
  ∀ s past r t, s.Orderly → s.trail.Deferred s.current past → (x s).1 = .ok (r, t) →
    s.Completes t past (x s).2

/-- Where only the cursor moves, no attempt completes. -/
theorem settles_of {x : Action β} (h : x.MovesOnly) : (of x).Settles := by
  intro s past r t hs hdeferred ht
  obtain ⟨d, rfl⟩ := h s r t ht
  exact .withCursor hs hdeferred d

/-- An attempt that fails at once completes, and defers nothing. -/
theorem settles_reject (offset : Nat) (label : String) :
    (of (Action.reject offset label)).Settles := by
  intro s past r t hs hdeferred ht
  change outcome (Action.reject offset label) s = _ at ht
  rw [outcome_reject] at ht
  cases ht
  exact Session.completes_rejected hs hdeferred offset label

/-- In a sequence, what completes in the rest comes after what completes in the first part. -/
theorem settles_bind {x : Ledger β} {f : β → Ledger γ} (hx : x.Settles)
    (hf : ∀ v, (f v).Settles) : (x >>= f).Settles := by
  intro s past r u hs hdeferred hu
  change (andThen x f s).1 = _ at hu
  change s.Completes u past (andThen x f s).2
  have hfirst := hx s past
  rw [andThen] at hu ⊢
  generalize x s = told at hu hfirst ⊢
  rcases told with ⟨halt | ⟨e | v, t⟩, entered⟩
  · cases hu
  · cases hu
    exact hfirst _ _ hs hdeferred rfl
  · -- What comes next begins where the first part ended, with what it entered.
    have hst := hfirst _ t hs hdeferred rfl
    exact hst.trans (hf v t _ r u hst.resumes.orderly hst.deferred hu)

/-- A part of an action settles what it enters, if only the cursor moves before and after. -/
theorem settles_within {begins : Cursor → Cursor} {F : Action β → Action γ} {x : Ledger β}
    (hF : ∀ s r t, outcome (F x.action) s = .ok (r, t) → ∃ r' u d,
      outcome x.action { s with cursor := begins s.cursor } = .ok (r', u) ∧
        t = { u with cursor := d }) (hx : x.Settles) : (within begins F x).Settles := by
  intro s past r t hs hdeferred ht
  obtain ⟨r', u, d, hu, rfl⟩ := hF s r t ht
  have hbegins := hs.withCursor (begins s.cursor)
  have hsu := hx _ past r' u hbegins.orderly hdeferred hu
  exact ⟨hbegins.trans (hsu.resumes.trans (hsu.resumes.orderly.withCursor d)), hsu.marked,
    hsu.deferred⟩

/-- A part that begins in the same session. -/
theorem settles_part {F : Action β → Action γ} {x : Ledger β}
    (hF : ∀ s r t, outcome (F x.action) s = .ok (r, t) → ∃ r' u d,
      outcome x.action s = .ok (r', u) ∧ t = { u with cursor := d }) (hx : x.Settles) :
    (within id F x).Settles :=
  settles_within hF hx

/-- To absorb a failure completes nothing more. -/
theorem settles_recover {x : Ledger β} (hx : x.Settles) : (within id Action.recover x).Settles := by
  refine settles_part (fun s r t ht => ?_) hx
  rw [outcome_recover] at ht
  split at ht
  · cases ht
  · next v u hu =>
    cases ht
    exact ⟨.ok v, t, t.cursor, hu, rfl⟩
  · next f u hu =>
    split at ht
    · cases ht
      exact ⟨.error f, t, t.cursor, hu, rfl⟩
    · cases ht
      exact ⟨.error f, t, t.cursor, hu, rfl⟩

/-- Neither does it to commit one. -/
theorem settles_cut {x : Ledger β} (hx : x.Settles) : (within id Action.cut x).Settles := by
  refine settles_part (fun s r t ht => ?_) hx
  rw [outcome_cut] at ht
  split at ht
  · cases ht
  · next v u hu =>
    cases ht
    exact ⟨.ok v, t, t.cursor, hu, rfl⟩
  · next f u hu =>
    cases ht
    exact ⟨.error f, t, t.cursor, hu, rfl⟩

/-- Neither does the way back after a look ahead. -/
theorem settles_lookahead {x : Ledger β} (hx : x.Settles) :
    (within id Action.lookahead x).Settles := by
  refine settles_part (fun s r t ht => ?_) hx
  rw [outcome_lookahead_eq] at ht
  rcases hu : outcome x.action s with halt | ⟨r', u⟩
  · rw [hu] at ht
    cases ht
  · rw [hu] at ht
    dsimp only at ht
    split at ht
    · cases ht
    · next d hd =>
      cases ht
      exact ⟨r, u, d, rfl, rfl⟩

/-- Neither does it to take a failure for a value. -/
theorem settles_attempt {x : Ledger β} (hx : x.Settles) : (within id Action.attempt x).Settles := by
  refine settles_part (fun s r t ht => ?_) hx
  rw [outcome_attempt] at ht
  split at ht
  · cases ht
  · next r' u hu =>
    cases ht
    exact ⟨r', t, t.cursor, hu, rfl⟩

/-- Neither does a scope of its own. -/
theorem settles_speculate (accept : β → Bool) {x : Ledger β} (hx : x.Settles) :
    (within Cursor.openScope (Action.speculate accept) x).Settles := by
  refine settles_within (fun s r t ht => ?_) hx
  rw [outcome_speculate] at ht
  rcases hu : outcome x.action { s with cursor := s.cursor.openScope } with halt | ⟨r', u⟩
  · rw [hu] at ht
    cases ht
  · rw [hu] at ht
    dsimp only at ht
    split at ht
    · cases ht
      exact ⟨r', u, u.cursor.closeScope, rfl, rfl⟩
    · split at ht
      · cases ht
      · next d hd =>
        cases ht
        exact ⟨r', u, d, rfl, rfl⟩

/-- An attempt is entered after what completes in it. If it would be too deep nothing happens. -/
theorem settles_recorded (label : String) {shape : Shape} {x : Ledger β}
    (hshape : ¬(shape.dissolve = true ∧ shape.anchor = true)) (hx : x.Settles) :
    (recorded label shape x).Settles := by
  intro s past r u hs hdeferred hu
  change outcome (Action.recorded label shape x.action) s = _ at hu
  rw [recorded, Session.enter?]
  by_cases hdeep : s.maxDepth ≠ 0 ∧ s.depth ≥ s.maxDepth
  · rw [outcome_recorded, if_pos hdeep] at hu
    cases hu
    rw [if_pos hdeep]
    exact .withCursor hs hdeferred s.cursor
  · rw [if_neg hdeep]
    have hentered := Session.orderly_entered hs label shape.anchor
    have hpushed := hdeferred.push hs.ready.linked hs.ready.current_lt s.cursor.position label
      shape.anchor
    have hinner {r : Except Failure β} {t : Session}
        (ht : (x (s.entered label shape.anchor)).1 = .ok (r, t)) :=
      hx (s.entered label shape.anchor) past r t hentered hpushed ht
    -- Whether the computation matched or failed, the attempt is closed where it ended.
    have hleft {r : Except Failure β} {t : Session} (d : Cursor) (stop : Nat) (failed : Bool)
        (ht : (x (s.entered label shape.anchor)).1 = .ok (r, t)) :
        s.Completes (Session.left { t with cursor := d } s.trail.size stop failed shape) past
          ((x (s.entered label shape.anchor)).2 ++
            [⟨s.trail.size, shape, t.trail.nearestAnchor s.trail.size⟩]) := by
      have ht := hinner ht
      have hmoved := ht.resumes.trans (ht.resumes.orderly.withCursor d)
      refine ⟨Session.resumes_left hs hmoved stop failed shape, ?_, ?_⟩
      · exact ((Trail.Marked.push hs.ready.current_lt _ label shape.anchor).trans ht.marked).trans
          (Session.marked_left { t with cursor := d } s.trail.size stop failed shape)
      · rw [← List.append_assoc]
        exact Session.deferred_left hs hmoved ht.marked ht.deferred hshape stop failed
    cases recorded_of_outcome hu with
    | tooDeep hdeep' => exact absurd hdeep' hdeep
    | @matched v t ht =>
      have ht : (x (s.entered label shape.anchor)).1 = .ok (.ok v, t) := ht
      have hleft := hleft t.cursor t.cursor.position false ht
      dsimp only
      rw [ht]
      exact hleft
    | @failed f t d ht hreturn =>
      have ht : (x (s.entered label shape.anchor)).1 = .ok (.error f, t) := ht
      have hleft := hleft d t.cursor.position true ht
      dsimp only
      rw [ht]
      exact hleft

/-- All ways of putting computations together settle what is deferred. -/
theorem simulation_settles :
    Engine.Simulation ledgerEngine ledgerEngine (fun (_ : Unit) m n => m = n)
      (fun _ _ x _ => x.Settles) where
  pure v := settles_of (.pure v)
  bind := settles_bind
  map f h := settles_bind h fun v => settles_of (.pure (f v))
  here h := settles_bind (settles_of (.ofReading Reading.position)) fun m => h () m m rfl
  returnTo _ := settles_of (.ofReading _)
  read _ := settles_of (.ofSource _)
  readChar := settles_of (.ofSource _)
  peek _ := settles_of (.ofSource _)
  atEnd := settles_of (.ofSource _)
  expected _ _ := settles_of (.throw _)
  expectedFound _ _ _ := settles_of (.throw _)
  reject := by
    rintro _ m _ β reason -
    exact settles_bind (settles_reject m reason) fun f => settles_of (.throw f)
  outOfFuel := settles_of (.halt _)
  limitExceeded := settles_of (.halt _)
  rulePending := settles_of (.halt _)
  ruleDropped := settles_of (.halt _)
  recover := settles_recover
  cut := settles_cut
  lookahead h := settles_lookahead (h ())

end Ledger

section

variable {κ α : Type}

/-- The steps of a procedure settle what is deferred, if the parsers do that it may run. Parses that
it begins anew have trails of their own. -/
theorem Procedure.settles_ledger (g : Grammar κ α) {run : Parser κ α → Ledger (Value α)}
    (procedure : Procedure κ α) (hrun : ∀ q, procedure.MayRun q → (run q).Settles) :
    (procedure.ledger g run).Settles := by
  -- Only attempts, rejections and speculations change the trail at hand.
  induction procedure with
  | done v => exact Ledger.settles_of (.pure v)
  | fail f => exact Ledger.settles_of (.throw f)
  | fault cause => exact Ledger.settles_of (.halt _)
  | depth next ih =>
    intro s
    exact ih s.depth (fun q hq => hrun q ⟨s.depth, hq⟩) s
  | trail next ih =>
    intro s
    exact ih s.trail (fun q hq => hrun q ⟨s.trail, hq⟩) s
  | cursor request next ih =>
    exact Ledger.settles_bind (Ledger.settles_of (.ofReading _)) fun reply =>
      ih reply fun q hq => hrun q ⟨reply, hq⟩
  | attempt p next ih =>
    exact Ledger.settles_bind (Ledger.settles_attempt (hrun p (.inl rfl))) fun r =>
      ih r fun q hq => hrun q (.inr ⟨r, hq⟩)
  | reject offset label next ih =>
    exact Ledger.settles_bind (Ledger.settles_reject offset label) fun f =>
      ih f fun q hq => hrun q ⟨f, hq⟩
  | speculate accept body next ihbody ih =>
    have hbody := ihbody fun q hq => hrun q (.inl hq)
    exact Ledger.settles_bind (Ledger.settles_speculate accept hbody) fun r =>
      ih r fun q hq => hrun q (.inr ⟨r, hq⟩)
  | parse p config next ih =>
    exact Ledger.settles_bind (Ledger.settles_of (.ofReading _)) fun r =>
      ih r fun q hq => hrun q ⟨r, hq⟩
  | lookahead p next ih =>
    exact Ledger.settles_bind (Ledger.settles_of (.ofReading _)) fun r =>
      ih r fun q hq => hrun q ⟨r, hq⟩
  | parseText text rule next ih =>
    rw [Procedure.ledger]
    split
    · exact Ledger.settles_bind (Ledger.settles_of (.liftM _)) fun r =>
        ih r fun q hq => hrun q ⟨r, hq⟩
    · exact Ledger.settles_of (.halt _)
    · exact Ledger.settles_of (.halt _)
  | apart config body next _ ih =>
    exact Ledger.settles_bind (Ledger.settles_of (.ofReading _)) fun told =>
      ih told.1 told.2 fun q hq => hrun q ⟨told.1, told.2, hq⟩

/-- A run settles what is deferred, if no parser on the way is both dissolved and an anchor. -/
theorem Parser.settles_ledger {g : Grammar κ α} {p : Parser κ α}
    (hshapes : ∀ q, g.MayRun p q → ¬(q.shape.dissolve = true ∧ q.shape.anchor = true))
    (fuel : Nat) : (p.ledger g fuel).Settles :=
  Ledger.simulation_settles.run_alone_of (Q := g.MayRun p) (fun _ hq _ hr => hq.part hr)
    (fun _ _ _ hq hkey hr => hq.rule hkey hr)
    (fun q hq _ hx _ => Ledger.settles_recorded q.label (hshapes q hq) (hx ()))
    (fun _ _ hq hkey _ hrun _ => Procedure.settles_ledger g _ fun r hr =>
      hrun r (hq.procedure hkey hr) ())
    fuel .self ()

/-- Dissolution reaches up to the anchor. In a grammar in which no parser is both dissolved and an
anchor, procedures of all kinds included, entering attempts in a ledger changes nothing. Once a run
from a new session on has an answer, be it a failure, each attempt within reach whose parser
dissolves those around it is right below the anchor that was the nearest one above it when it
completed: the root, or the attempt of a parser that is an anchor. -/
theorem outer_dissolution_reaches_anchor (g : Grammar κ α) (p : Parser κ α)
    (hshapes : ∀ q, g.MayRun p q → ¬(q.shape.dissolve = true ∧ q.shape.anchor = true))
    (fuel : Nat) (c : Cursor) (config : Config) (r : Except Failure (Value α)) (t : Session)
    (ht : outcome (p.run g fuel) (Session.start c config) = .ok (r, t)) :
    (p.ledger g fuel).action = p.run g fuel ∧
      ∀ e ∈ p.completions g fuel c config, e.shape.dissolveOuter = true → t.trail.Reaches 0 e.id →
        t.trail.parent? e.id = some e.anchor ∧
          (e.anchor = 0 ∨
            ∃ a ∈ p.completions g fuel c config, a.id = e.anchor ∧ a.shape.anchor = true) := by
  have haction := p.ledger_action g fuel
  refine ⟨haction, fun e he houter hreach => ?_⟩
  rw [← haction] at ht
  obtain ⟨hresumes, -, hdeferred⟩ := Parser.settles_ledger hshapes fuel (Session.start c config)
    [] r t (Session.orderly_start c config) (Trail.Deferred.start c.position) ht
  rw [List.nil_append] at hdeferred
  have hlinked := hresumes.orderly.ready.linked
  -- The run is over, and nothing but the root is in progress.
  have hover {j : Nat} (hj : t.trail.Reaches j t.current) : j = 0 := by
    have hcurrent : t.current = 0 := hresumes.current
    exact Nat.le_zero.mp (hcurrent ▸ hj.le hlinked)
  obtain ⟨q, hq⟩ : ∃ q, t.trail.parent? e.id = some q := by
    obtain ⟨hpos, -⟩ := hdeferred.known e he
    generalize e.id = id at hpos hreach
    cases hreach with
    | refl => exact absurd hpos (Nat.lt_irrefl 0)
    | child _ hmem => exact ⟨_, (hlinked.mem_children_iff _ _).mp hmem⟩
  have hanchored : q = e.anchor ∧ t.trail.isAnchor q = true := by
    rcases hdeferred.ways e he houter q hq with hdone | ⟨hreach, hway⟩
    · exact hdone
    · have hzero := hover hreach
      cases hway with
      | anchor hanchored => exact ⟨rfl, hanchored⟩
      | up hmark _ _ =>
        -- The root is an anchor and not marked.
        rw [hzero, hdeferred.unmarked 0 hdeferred.root] at hmark
        cases hmark
  obtain ⟨rfl, hanchored⟩ := hanchored
  refine ⟨hq, ?_⟩
  rcases hdeferred.anchors _ hanchored with hzero | hreach | hentered
  · exact .inl hzero
  · exact .inl (hover hreach)
  · exact .inr hentered

end

/-- The procedure `tangling`, two levels down within an anchor that may be left out. -/
def snare : Parser Unit Unit :=
  (Parser.procedure (some "knot") ()).optional.optional.anchored.optional

/-- These are all the parsers that the example can come to run. -/
theorem eq_of_mayRun_snare {q : Parser Unit Unit} (hq : tangling.MayRun snare q) :
    q = snare ∨ q = (Parser.procedure (some "knot") ()).optional.optional.anchored ∨
      q = (Parser.procedure (some "knot") ()).optional ∨ q = Parser.procedure (some "knot") () ∨
      q = (Parser.literal "b").dissolvingOuter ∨ q = (Parser.literal "b").many ∨
      q = Parser.literal "b" := by
  induction hq with
  | self => simp
  | @part q r _ hmem ih =>
    -- Each of them has at most one part.
    rcases ih with rfl | rfl | rfl | rfl | rfl | rfl | rfl
    · simp [List.mem_singleton.mp hmem]
    · simp [List.mem_singleton.mp hmem]
    · simp [List.mem_singleton.mp hmem]
    · cases hmem
    · cases hmem
    · simp [List.mem_singleton.mp hmem]
    · cases hmem
  | rule _ _ hrule _ => cases hrule
  | procedure _ _ hruns _ =>
    obtain ⟨_, _, rfl | ⟨_, _, _, rfl | ⟨_, ⟨⟩⟩⟩⟩ := hruns
    · simp
    · simp

/-- The two levels in between are gone, and what was made for them is below the anchor. -/
theorem outer_dissolution_reaches_anchor_snare :
    (∀ q, tangling.MayRun snare q → ¬(q.shape.dissolve = true ∧ q.shape.anchor = true)) ∧
    ∃ r t, outcome (snare.run tangling 8) (Session.start (Cursor.ofText "abd") {}) = .ok (r, t) ∧
      ∃ e ∈ snare.completions tangling 8 (Cursor.ofText "abd") {}, e.id = 6 ∧
        e.shape.dissolveOuter = true ∧ t.trail.Reaches 0 e.id ∧ t.trail.parent? e.id = some 2 := by
  have hshapes (q : Parser Unit Unit) (hq : tangling.MayRun snare q) :
      ¬(q.shape.dissolve = true ∧ q.shape.anchor = true) := by
    rcases eq_of_mayRun_snare hq with rfl | rfl | rfl | rfl | rfl | rfl | rfl <;> decide
  have hran : passes (fun out => decide (1 ∈ out.2.trail.children 0 ∧ 2 ∈ out.2.trail.children 1 ∧
      6 ∈ out.2.trail.children 2))
      (outcome (snare.run tangling 8) (Session.start (Cursor.ofText "abd") {})) = true := by
    decide +kernel
  have hentered : ⟨6, { dissolveOuter := true }, 2⟩ ∈
      snare.completions tangling 8 (Cursor.ofText "abd") {} := by
    decide +kernel
  obtain ⟨⟨r, t⟩, ht, htested⟩ := exists_of_passes hran
  obtain ⟨hwhole, hanchor, hletter⟩ := of_decide_eq_true htested
  have hreach : t.trail.Reaches 0 6 := .child (.child (.child .refl hwhole) hanchor) hletter
  obtain ⟨-, hdissolved⟩ := outer_dissolution_reaches_anchor tangling snare hshapes 8
    (Cursor.ofText "abd") {} r t ht
  obtain ⟨hparent, -⟩ := hdissolved _ hentered rfl hreach
  exact ⟨hshapes, r, t, ht, _, hentered, rfl, rfl, hreach, hparent⟩

end ParseTrail
