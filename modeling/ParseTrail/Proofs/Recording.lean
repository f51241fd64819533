import ParseTrail.Proofs.Ranges
import ParseTrail.Proofs.Session.Sites
import ParseTrail.Proofs.Trail.Ordered

/-!
# The discipline of recording

Attempts are opened and closed around the actions they are made for, while the trail is rewritten
underneath. Whatever their shapes, and whatever procedures do in between, a run leaves a session in
the attempt and at the depth it came from, and the trail is in order at every moment.

- `Session.Orderly`, `Session.Resumes`: what every moment and every run keeps to;
- `Chronicle.Sited`: attempts start and stop where the cursor has been;
- `recording_keeps_order`: the order of the trail and what a run leaves, at every moment.
-/

namespace ParseTrail

/-! ### Keeping to the attempt in progress -/

namespace Session

variable {s t u : Session}

/-- The trail is in order, and the attempt in progress is at its edge. -/
structure Orderly (s : Session) : Prop where
  ready : s.Ready
  ordered : s.trail.Ordered
  edge : s.trail.AtEdge s.current

/-- A session goes on in the attempt, and at the depth, of another, and keeps the attempts before.
-/
structure Resumes (s t : Session) : Prop where
  orderly : t.Orderly
  current : t.current = s.current
  depth : t.depth = s.depth
  keeps : s.trail.Keeps t.trail

theorem orderly_start (c : Cursor) (config : Config) : (Session.start c config).Orderly :=
  ⟨ready_start c config, Trail.siblings_start _ _, Trail.siblings_start _ _⟩

/-- Only the cursor moves. -/
theorem Orderly.withCursor (hs : s.Orderly) (d : Cursor) : s.Resumes { s with cursor := d } :=
  ⟨⟨⟨hs.ready.linked, hs.ready.current_lt⟩, hs.ordered, hs.edge⟩, rfl, rfl, .refl _⟩

theorem Resumes.trans (hst : s.Resumes t) (htu : t.Resumes u) : s.Resumes u where
  orderly := htu.orderly
  current := htu.current.trans hst.current
  depth := htu.depth.trans hst.depth
  keeps := hst.keeps.trans htu.keeps

theorem orderly_entered (hs : s.Orderly) (label : String) (anchor : Bool) :
    (s.entered label anchor).Orderly where
  ready := ready_entered hs.ready label anchor
  ordered := hs.ordered.push hs.ready.linked hs.ready.current_lt hs.edge _ _ _
  edge := hs.edge.push hs.ready.linked hs.ready.current_lt _ _ _

/-- An attempt has come and gone. -/
theorem Orderly.resumes (hs : s.Orderly) (hkeeps : s.trail.Keeps t.trail)
    (hlinked : t.trail.Linked) (hordered : t.trail.Ordered) (hedge : t.trail.AtEdge s.current)
    (hcurrent : t.current = s.current) (hdepth : t.depth = s.depth) : s.Resumes t := by
  refine ⟨⟨⟨hlinked, ?_⟩, hordered, ?_⟩, hcurrent, hdepth, hkeeps⟩
  · rw [hcurrent]
    exact Nat.lt_of_lt_of_le hs.ready.current_lt hkeeps.size_le
  · rw [hcurrent]
    exact hedge

/-- A rejection adds an attempt at the edge. -/
theorem resumes_rejected (hs : s.Orderly) (offset : Nat) (label : String) :
    s.Resumes { s with
      trail := (s.trail.push s.current offset label false).2.close s.trail.size
        s.cursor.position true } := by
  have hlinked := hs.ready.linked
  have hopens := (Trail.Opens.push hlinked hs.ready.current_lt offset label false).close
    s.cursor.position true
  have hordered := hs.ordered.push hlinked hs.ready.current_lt hs.edge offset label false
  have hedge := (hs.edge.push hlinked hs.ready.current_lt offset label false).close s.trail.size
    s.cursor.position true
  have hmem := (hopens.linked.mem_children_iff _ _).mpr hopens.parent?
  exact hs.resumes hopens.keeps hopens.linked (hordered.close _ _ _) (Trail.AtEdge.above hedge hmem)
    rfl rfl

/-- The attempt in progress is closed and takes its place, whatever its shape. -/
theorem resumes_left (hs : s.Orderly) {label : String} {anchor : Bool}
    (ht : (s.entered label anchor).Resumes t) (stop : Nat) (failed : Bool) (shape : Shape) :
    s.Resumes (t.left s.trail.size stop failed shape) := by
  have hentered :=
    Trail.Opens.push hs.ready.linked hs.ready.current_lt s.cursor.position label anchor
  have hopens : s.trail.Opens t.trail s.current :=
    hentered.mono ht.orderly.ready.linked ht.keeps
  have hcurrent : t.current = s.trail.size := ht.current
  have hedge : t.trail.AtEdge s.trail.size := hcurrent ▸ ht.orderly.edge
  -- Each step keeps the attempt open below its parent and at the edge, up to the last.
  obtain ⟨u, ⟨hu, hordered, hedge⟩, hcurrent, htrail⟩ := t.left_of_steps
    (P := fun u => s.trail.Opens u s.current ∧ u.Ordered ∧ u.AtEdge s.trail.size) shape
    ⟨hopens.close stop failed, ht.orderly.ordered.close _ _ _, hedge.close _ _ _⟩
    (fun u hu => ⟨hu.1.clearChildren, hu.2.1.clearChildren hu.1.lt_size,
      hu.2.2.clearChildren hu.1.lt_size⟩)
    (fun u hu => ⟨hu.1.dissolveToAnchor, hu.2.1.dissolveToAnchor _, hu.2.2.dissolveToAnchor _⟩)
  have hparent : u.AtEdge s.current :=
    Trail.AtEdge.above hedge ((hu.linked.mem_children_iff _ _).mpr hu.parent?)
  have hdepth : (t.left s.trail.size stop failed shape).depth = s.depth :=
    Nat.sub_eq_of_eq_add ht.depth
  rw [hu.parent?, Option.getD_some] at hcurrent
  rcases htrail with htrail | htrail
  · refine hs.resumes ?_ ?_ ?_ ?_ hcurrent hdepth
    · rw [htrail]
      exact hu.keeps
    · rw [htrail]
      exact hu.linked
    · rw [htrail]
      exact hordered
    · rw [htrail]
      exact hparent
  · refine hs.resumes ?_ ?_ ?_ ?_ hcurrent hdepth
    · rw [htrail]
      exact hu.keeps_dissolve
    · rw [htrail]
      exact hu.linked.dissolve _
    · rw [htrail]
      exact hordered.dissolve hu.linked
    · rw [htrail]
      exact hparent.dissolve hu.linked

end Session

/-- Sessions go on in the attempt they were in, and their trails stay in order. -/
def recording : Course where
  ready _ s := s.Orderly
  leads := Session.Resumes
  excuses _ := False

theorem recording_recorded {β : Type} (label : String) (shape : Shape) {x : Action β}
    (hx : ∀ b, recording.Follows b x) (b : Nat) :
    recording.Follows b (Action.recorded label shape x) := by
  intro s r u hs hu _
  have hentered := Session.orderly_entered hs label shape.anchor
  cases recorded_of_outcome hu with
  | tooDeep _ => exact hs.withCursor s.cursor
  | matched ht => exact Session.resumes_left hs (hx b _ _ _ hentered ht fun _ _ => id) _ false shape
  | @failed f t d ht hreturn =>
    have ht := hx b _ _ _ hentered ht fun _ _ => id
    exact Session.resumes_left hs (ht.trans (ht.orderly.withCursor d)) _ true shape

theorem cursorFree_recording : recording.CursorFree where
  trans := .trans
  ready_of_leads _ hst := hst.orderly
  anywhere := id
  no_excuse _ := id
  moved d hs := hs.withCursor d
  start _ := Session.orderly_start
  reject offset label := by
    intro s r t hs ht _
    rw [outcome_reject] at ht
    cases ht
    exact Session.resumes_rejected hs offset label
  recorded := recording_recorded
  entered label anchor hs := Session.orderly_entered hs label anchor

theorem strict_proceeding : proceeding.Strict where
  kept := kept_proceeding
  no_excuse _ := id
  recorded := proceeding_recorded
  entered label anchor hs _ := by
    have hentered := Session.sound_entered hs.1 label anchor
    exact ⟨_, hentered, hentered.start_le⟩

variable {κ α : Type}

/-- At every moment of the steps of a procedure the trail is in order, with the attempt in progress
at its edge. -/
theorem orderly_moments (g : Grammar κ α) (fuel : Nat) (steps : Procedure κ α) (c : Cursor)
    (config : Config) : ∀ s ∈ steps.moments g fuel c config, s.Orderly := by
  intro s hs
  have hheeds := cursorFree_recording.heeds_steps (g := g) (cursorFree_recording.heeds_run g fuel)
    steps 0
  obtain ⟨_, horderly⟩ := hheeds.ready_of_mem (Session.orderly_start c config) hs
  exact horderly

/-- A run goes on where it began. -/
theorem Session.Orderly.run {s t : Session} (hs : s.Orderly) {g : Grammar κ α} {fuel : Nat}
    {p : Parser κ α} {r : Except Failure (Value α)} (ht : outcome (p.run g fuel) s = .ok (r, t)) :
    s.Resumes t := by
  have hfollows := (cursorFree_recording.heeds_run g fuel p 0).follows
  rw [Parser.chronicle_action] at hfollows
  exact hfollows s r t hs ht fun _ _ => id

/-- At every moment of steps that only run parsers, attempts start no earlier than those above them,
and stop where the cursor has been. -/
theorem sound_moments (g : Grammar Empty α) (fuel : Nat) {steps : Procedure Empty α}
    (h : steps.OnlyRuns) (c : Cursor) (config : Config) :
    (∀ s ∈ steps.moments g fuel c config, s.Sound) ∧
      SitedAll [] (steps.moments g fuel c config) := by
  constructor
  · intro s hs
    have hheeds := strict_proceeding.heeds_steps (g := g) (strict_proceeding.heeds_run g fuel) h
      c.position
    obtain ⟨_, hs⟩ := hheeds.ready_of_mem ⟨Session.sound_start c config, Nat.le_refl _⟩ hs
    exact hs.1
  · have hstart := Session.sited_start c config
    exact ⟨hstart, (sited_steps (sited_run g fuel) h c.position _ _ hstart.position hstart).1⟩

/-- Recording keeps order. Whatever the holder of a session does, with procedures and shapes of all
kinds, the chronicle of it is that of what happens, and at every moment, those of parses begun anew
included, the attempts within reach are met in the order in which they were made, and a run from
there that has an answer ends at the same depth and in the same attempt. If only parsers without
procedures are run, an attempt within reach starts no earlier than the one above it, and stops no
later than the furthest place where the cursor has been so far. -/
theorem recording_keeps_order :
    (∀ (g : Grammar κ α) (fuel : Nat) (steps : Procedure κ α) (c : Cursor) (config : Config),
      (steps.chronicle g (Parser.chronicle g fuel)).action = steps.perform g (Parser.run g fuel) ∧
      ∀ s ∈ steps.moments g fuel c config,
        s.trail.preOrder.Pairwise (· < ·) ∧
        ∀ (g' : Grammar κ α) (fuel' : Nat) (p : Parser κ α) (r : Except Failure (Value α))
          (t : Session), outcome (p.run g' fuel') s = .ok (r, t) →
            t.depth = s.depth ∧ t.current = s.current) ∧
    ∀ (g : Grammar Empty α) (fuel : Nat) (steps : Procedure Empty α), steps.OnlyRuns →
      ∀ (c : Cursor) (config : Config) (earlier : List Session) (s : Session)
        (later : List Session),
        steps.moments g fuel c config = earlier ++ s :: later →
        ∀ id, s.trail.Reaches 0 id → id ≠ 0 →
          ∃ parent, s.trail.parent? id = some parent ∧
            s.trail.startOf parent ≤ s.trail.startOf id ∧
            ∃ m ∈ earlier ++ [s], s.trail.stopOf id ≤ m.cursor.position := by
  refine ⟨fun g fuel steps c config => ⟨?_, fun s hs => ?_⟩, ?_⟩
  · exact steps.chronicle_action g (Parser.chronicle_action g fuel)
  · have hs := orderly_moments g fuel steps c config s hs
    refine ⟨hs.ordered.pairwise_preOrder hs.ready.linked ?_, fun g' fuel' p r t ht => ?_⟩
    · exact Nat.lt_of_le_of_lt (Nat.zero_le _) hs.ready.current_lt
    · have hresumes := hs.run ht
      exact ⟨hresumes.depth, hresumes.current⟩
  · intro g fuel steps hruns c config earlier s later hsplit id hreach hne
    obtain ⟨hsound, hsited⟩ := sound_moments g fuel hruns c config
    rw [hsplit] at hsited
    have hs := hsound s (by rw [hsplit]; exact List.mem_append_right _ List.mem_cons_self)
    obtain ⟨hlinked, hcurrent⟩ := hs.ready
    -- An attempt within reach is the child of another, and both are sited.
    cases hreach with
    | refl => exact absurd rfl hne
    | @child parent _ _ hmem =>
      obtain ⟨m, hm, hstop⟩ := (hsited.sited.offsets id (hlinked.lt_size_of_mem hmem)).2
      exact ⟨parent, (hlinked.mem_children_iff _ _).mp hmem, hs.nested.start_le _ _ hmem, m, hm,
        Nat.le_of_eq hstop.symm⟩

/-- A procedure that rejects what it has read, runs a parser that dissolves the attempts around it,
goes back, parses anew, and runs another parser before it fails. -/
def tangling : Grammar Unit Unit where
  rules _ := .dropped
  procedures _ :=
    .cursor (.read 1) fun _ => .reject 0 "read" fun _ =>
      .attempt (Parser.literal "b").dissolvingOuter fun _ => .cursor (.restoreTo 0) fun _ =>
        .parse (.literal "a") {} fun _ => .attempt (Parser.literal "b").many fun _ =>
          .fail (.expected { offset := 0, label := "more" })

/-- It may fail, within an attempt that stops dissolution. -/
def tangle : Parser Unit Unit :=
  (Parser.procedure (some "knot") ()).optional.anchored

/-- Runs it once. -/
def tangleOnce : Procedure Unit Unit :=
  .attempt tangle fun _ => .done .unit

/-- Runs a parser that fails further on than where it stops. -/
def hastyOnce : Procedure Empty Unit :=
  .attempt hasty fun _ => .done .unit

/-- Attempt 2 has been dissolved when the parser is run again, and that ends where it began. A
parser without procedures has failed at 3, but the cursor is back. -/
theorem recording_keeps_order_tangle :
    (∃ s ∈ tangleOnce.moments tangling 6 (Cursor.ofText "abd") {},
      s.trail.preOrder = [0, 1, 3, 4, 5, 6, 7] ∧
      ∃ r t, outcome (tangle.run tangling 6) s = .ok (r, t) ∧ t.depth = s.depth ∧
        t.current = s.current) ∧
    hastyOnce.OnlyRuns ∧
    ∃ earlier s, hastyOnce.moments ruleless 4 (Cursor.ofText "aaaa") {} = earlier ++ [s] ∧
      s.trail.preOrder = [0, 1, 2, 3, 4] ∧ s.trail.stopOf 3 = 3 ∧ s.cursor.position = 0 ∧
      ∃ m ∈ earlier ++ [s], s.trail.stopOf 3 ≤ m.cursor.position := by
  have hruns : hastyOnce.OnlyRuns := fun _ => trivial
  refine ⟨?_, hruns, ?_⟩
  · have hchecked : (tangleOnce.moments tangling 6 (Cursor.ofText "abd") {}).getLast?.any
        (fun s => decide (s.trail.preOrder = [0, 1, 3, 4, 5, 6, 7]) &&
          passes (fun _ => true) (outcome (tangle.run tangling 6) s)) = true := by
      decide +kernel
    obtain ⟨s, hs, htested⟩ := (Option.any_eq_true _ _).mp hchecked
    obtain ⟨horder, hrun⟩ := Bool.and_eq_true_iff.mp htested
    have hmem := List.mem_of_getLast? hs
    obtain ⟨⟨r, t⟩, hout, -⟩ := exists_of_passes hrun
    obtain ⟨-, hmoments⟩ := recording_keeps_order.1 tangling 6 tangleOnce (Cursor.ofText "abd") {}
    exact ⟨s, hmem, of_decide_eq_true horder, r, t, hout, (hmoments s hmem).2 tangling 6 tangle r t hout⟩
  · have hchecked : (hastyOnce.moments ruleless 4 (Cursor.ofText "aaaa") {}).getLast?.any
        (fun s => decide (s.trail.preOrder = [0, 1, 2, 3, 4] ∧ s.trail.stopOf 3 = 3 ∧
          s.cursor.position = 0 ∧ 1 ∈ s.trail.children 0 ∧ 2 ∈ s.trail.children 1 ∧
          3 ∈ s.trail.children 2)) = true := by
      decide +kernel
    obtain ⟨s, hs, htested⟩ := (Option.any_eq_true _ _).mp hchecked
    obtain ⟨horder, hstop, hposition, hwhole, hmany, htext⟩ := of_decide_eq_true htested
    obtain ⟨earlier, hsplit⟩ := List.getLast?_eq_some_iff.mp hs
    have hreach : s.trail.Reaches 0 3 := .child (.child (.child .refl hwhole) hmany) htext
    obtain ⟨_, -, -, hsited⟩ := (@recording_keeps_order Unit Unit).2 ruleless 4 hastyOnce hruns
      (Cursor.ofText "aaaa") {} earlier s [] hsplit 3 hreach (by decide)
    exact ⟨earlier, s, hsplit, horder, hstop, hposition, hsited⟩

end ParseTrail
