import ParseTrail.Proofs.Recording
import ParseTrail.Proofs.Trail.Dissolved
import ParseTrail.Proofs.Trail.Marks

/-!
# Labels of attempts

An attempt keeps the label that it is opened with. Whether it stays on the trail when it is left is
up to its own shape, as long as no attempt below marks it to be dissolved.

- `Trail.Unmarked`, `Session.left_of_unmarked`: how an attempt is left that nobody has marked;
- `Grammar.Contained`: nothing that a parser can come to run dissolves the attempts around it;
- `labelled_run`: what such a parser runs marks nothing, and changes no label.
-/

namespace ParseTrail

namespace Trail

variable {t u : Trail} {id parent : Nat}

/-! ### Labels -/

/-- The label of an attempt. -/
def labelOf? (t : Trail) (id : Nat) : Option String :=
  (t.get? id).map (·.label)

/-- The bare data of attempts tell their labels. -/
theorem labelOf?_congr (h : u.bare? = t.bare?) : u.labelOf? = t.labelOf? := by
  have hbare (t : Trail) (id : Nat) : t.labelOf? id = (t.bare? id).map (·.label) := by
    rw [labelOf?, bare?, Option.map_map]
    rfl
  funext id
  rw [hbare, hbare, h]

/-- A new attempt has its own label, and the others keep theirs. -/
theorem labelOf?_push (hparent : parent < t.size) (offset : Nat) (label : String) (anchor : Bool)
    (id : Nat) :
    (t.push parent offset label anchor).2.labelOf? id =
      if id = t.size then some label else t.labelOf? id := by
  rw [labelOf?, get?_push t hparent]
  split
  · rfl
  · split
    · rw [Option.map_map]
      rfl
    · rfl

/-- An attempt that was closed has failed or not as it was told. -/
theorem failedAt_close (hid : id < t.size) (stop : Nat) (failed : Bool) :
    (t.close id stop failed).failedAt id = failed := by
  obtain ⟨a, ha⟩ : ∃ a, t.get? id = some a := ⟨_, Array.getElem?_eq_getElem hid⟩
  rw [failedAt, close, get?_update, if_pos rfl, ha]
  rfl

/-- To close an attempt changes no label. -/
theorem labelOf?_close (t : Trail) (id stop : Nat) (failed : Bool) :
    (t.close id stop failed).labelOf? = t.labelOf? := by
  funext j
  rw [labelOf?, close, get?_update]
  split
  · rw [Option.map_map]
    rfl
  · rfl

/-- To drop children changes none. -/
theorem labelOf?_clearChildren (t : Trail) (id : Nat) :
    (t.clearChildren id).labelOf? = t.labelOf? :=
  labelOf?_congr (by rw [clearChildren, bare?_setChildren, bare?_adopt])

/-- To dissolve an attempt changes none. -/
theorem labelOf?_dissolve (t : Trail) (id : Nat) : (t.dissolve id).labelOf? = t.labelOf? :=
  labelOf?_congr (bare?_dissolve t id)

/-- No attempt is marked to be dissolved. -/
def Unmarked (t : Trail) : Prop :=
  ∀ id, t.isDissolving id = false

/-- The root is not marked. -/
theorem unmarked_start (offset : Nat) : (start offset).Unmarked := by
  intro id
  rcases id with _ | id
  · rfl
  · rfl

/-- Neither is a new attempt. -/
theorem Unmarked.push (h : t.Unmarked) (hparent : parent < t.size) (offset : Nat) (label : String)
    (anchor : Bool) : (t.push parent offset label anchor).2.Unmarked := by
  intro id
  rw [isDissolving_push hparent]
  split
  · rfl
  · exact h id

/-- No attempt is marked where the marks are the same. -/
theorem Unmarked.of_eq (h : t.Unmarked) (hu : u.isDissolving = t.isDissolving) : u.Unmarked := by
  intro id
  rw [hu]
  exact h id

end Trail

/-! ### Sessions that mark nothing -/

namespace Session

variable {s t u : Session} {label : String} {anchor : Bool} {shape : Shape}

/-- A session goes on in the attempt of another. No attempt is marked, and those before keep their
labels. -/
structure Labelled (s t : Session) : Prop where
  resumes : s.Resumes t
  unmarked : t.trail.Unmarked
  labelOf? : ∀ id < s.trail.size, t.trail.labelOf? id = s.trail.labelOf? id

namespace Labelled

/-- To move the cursor leaves all labels. -/
theorem withCursor (hs : s.Orderly) (h : s.trail.Unmarked) (d : Cursor) :
    s.Labelled { s with cursor := d } :=
  ⟨hs.withCursor d, h, fun _ _ => rfl⟩

/-- Labels that are kept twice are kept. -/
theorem trans (hst : s.Labelled t) (htu : t.Labelled u) : s.Labelled u where
  resumes := hst.resumes.trans htu.resumes
  unmarked := htu.unmarked
  labelOf? id hid :=
    (htu.labelOf? id (Nat.lt_of_lt_of_le hid hst.resumes.keeps.size_le)).trans (hst.labelOf? id hid)

end Labelled

/-- An attempt that fails at once leaves the labels before it, and is not marked. -/
theorem labelled_rejected (hs : s.Orderly) (h : s.trail.Unmarked) (offset : Nat)
    (label : String) :
    s.Labelled { s with
      trail := (s.trail.push s.current offset label false).2.close s.trail.size
        s.cursor.position true } where
  resumes := resumes_rejected hs offset label
  unmarked := (h.push hs.ready.current_lt offset label false).of_eq
    (Trail.flags_close _ s.trail.size s.cursor.position true).2
  labelOf? id hid := by
    rw [Trail.labelOf?_close, Trail.labelOf?_push hs.ready.current_lt, if_neg (Nat.ne_of_lt hid)]

/-- An attempt is closed where nothing is marked and it marks nothing. Before it is dissolved, if
its shape says so, it may only have lost its children. -/
theorem left_of_unmarked (houter : shape.dissolveOuter = false) (h : t.trail.Unmarked)
    (id stop : Nat) (failed : Bool) :
    ∃ u : Trail, (u = t.trail.close id stop failed ∨
        u = (t.trail.close id stop failed).clearChildren id) ∧
      u.Unmarked ∧ u.labelOf? = t.trail.labelOf? ∧
      (t.left id stop failed shape).trail = if shape.dissolve then u.dissolve id else u := by
  have hclosed := h.of_eq (Trail.flags_close t.trail id stop failed).2
  have hleft (u : Trail) (hu : u.Unmarked) :
      (if shape.dissolve || u.isDissolving id then u.dissolve id else u) =
        if shape.dissolve then u.dissolve id else u := by
    rw [hu id, Bool.or_false]
  rw [Session.left]
  -- It dissolves none of the attempts around it, so only its children are in question.
  simp only [houter, Bool.false_eq_true, if_false]
  split
  · have hcleared := hclosed.of_eq (Trail.flags_clearChildren _ id).2
    refine ⟨_, .inr rfl, hcleared, ?_, hleft _ hcleared⟩
    rw [Trail.labelOf?_clearChildren, Trail.labelOf?_close]
  · exact ⟨_, .inl rfl, hclosed, Trail.labelOf?_close _ _ _ _, hleft _ hclosed⟩

/-- To enter an attempt adds its label to those before. -/
theorem labelled_entered (hs : s.Orderly) (h : s.trail.Unmarked) (label : String)
    (anchor : Bool) :
    (s.entered label anchor).trail.Unmarked ∧
      ∀ id, (s.entered label anchor).trail.labelOf? id =
        if id = s.trail.size then some label else s.trail.labelOf? id :=
  ⟨h.push hs.ready.current_lt _ _ _, Trail.labelOf?_push hs.ready.current_lt _ _ _⟩

/-- To leave an attempt keeps the labels, if it does not dissolve the attempts around it. -/
theorem labelled_left (hs : s.Orderly) (h : s.trail.Unmarked) (houter : shape.dissolveOuter = false)
    (ht : (s.entered label shape.anchor).Labelled t) (stop : Nat) (failed : Bool) :
    s.Labelled (t.left s.trail.size stop failed shape) := by
  obtain ⟨u, -, hunmarked, hlabels, htrail⟩ :=
    left_of_unmarked houter ht.unmarked s.trail.size stop failed
  have hentered := (labelled_entered hs h label shape.anchor).2
  -- Those before it had their labels when it was opened, and nothing has changed them since.
  have hkeeps (id : Nat) (hid : id < s.trail.size) : u.labelOf? id = s.trail.labelOf? id := by
    have hlt : id < (s.entered label shape.anchor).trail.size := by
      rw [Session.entered, Trail.size_push]
      exact Nat.lt_succ_of_lt hid
    rw [hlabels, ht.labelOf? id hlt, hentered, if_neg (Nat.ne_of_lt hid)]
  refine ⟨resumes_left hs ht.resumes stop failed shape, ?_, fun id hid => ?_⟩
  · rw [htrail]
    split
    · exact hunmarked.of_eq (Trail.flags_dissolve u _).2
    · exact hunmarked
  · rw [htrail]
    split
    · rw [Trail.labelOf?_dissolve, hkeeps id hid]
    · exact hkeeps id hid

end Session

/-- Sessions go on in the attempt they were in, and mark nothing. -/
def labelling : Course where
  ready _ s := s.Orderly ∧ s.trail.Unmarked
  leads := Session.Labelled
  excuses _ := False

/-- An operation on the cursor goes on in the same attempt. -/
theorem labelling_ofSource {β : Type} {b : Nat} {request : Cursor.Request}
    {reply : request.Reply → Except SourceError β} :
    labelling.Follows b (Action.ask request >>= fun told => Action.ofSource (reply told)) :=
  Course.follows_ofSource fun _ d _ hs _ _ => .withCursor hs.1 hs.2 d

/-- All primitive actions do. -/
theorem kept_labelling : labelling.Kept where
  refl {_ s} hs := .withCursor hs.1 hs.2 s.cursor
  trans := .trans
  ready_of_leads _ hst := ⟨hst.resumes.orderly, hst.unmarked⟩
  narrow := id
  excuses_commit := id
  not_excuses _ := id
  read _ := labelling_ofSource
  readChar := labelling_ofSource
  peek _ := labelling_ofSource
  atEnd := labelling_ofSource
  returnTo := by
    intro b s r t hs ht _
    rw [outcome_returnTo] at ht
    split at ht
    · cases ht
    · cases ht
      exact .withCursor hs.1 hs.2 _
  reject label := by
    intro s r t hs ht _
    rw [outcome_reject] at ht
    cases ht
    exact Session.labelled_rejected hs.1 hs.2 _ label

/-- A recorded action does, unless it dissolves the attempts around it. -/
theorem labelling_recorded {β : Type} (label : String) {shape : Shape}
    (houter : shape.dissolveOuter = false) {x : Action β} (hx : ∀ b, labelling.Follows b x)
    (b : Nat) : labelling.Follows b (Action.recorded label shape x) := by
  intro s r u hs hu _
  have hready : labelling.ready b (s.entered label shape.anchor) :=
    ⟨Session.orderly_entered hs.1 label shape.anchor, (Session.labelled_entered hs.1 hs.2 _ _).1⟩
  cases recorded_of_outcome hu with
  | tooDeep _ => exact .withCursor hs.1 hs.2 s.cursor
  | matched ht =>
    have ht := hx b _ _ _ hready ht fun _ _ => id
    exact Session.labelled_left hs.1 hs.2 houter ht _ false
  | @failed f t d ht hreturn =>
    have ht := hx b _ _ _ hready ht fun _ _ => id
    exact Session.labelled_left hs.1 hs.2 houter
      (ht.trans (.withCursor ht.resumes.orderly ht.unmarked d)) _ true

section

variable {α : Type} {g : Grammar Empty α} {p q : Parser Empty α}

/-- No parser that a parser can come to run dissolves the attempts around it. -/
def Grammar.Contained (g : Grammar Empty α) (p : Parser Empty α) : Prop :=
  ∀ q, g.Runs p q → q.shape.dissolveOuter = false

/-- What a parser with a label can come to run, apart from itself, is what it can without. -/
theorem Grammar.Runs.of_withLabel {label : String} (h : g.Runs (p.withLabel label) q) :
    q = p.withLabel label ∨ g.Runs p q := by
  induction h with
  | self => exact .inl rfl
  | part _ hr ih =>
    rcases ih with rfl | hrun
    · rw [Parser.matcher_withLabel] at hr
      exact .inr (.part .self hr)
    · exact .inr (hrun.part hr)
  | rule _ hkey hr ih =>
    rcases ih with rfl | hrun
    · rw [Parser.matcher_withLabel] at hkey
      exact .inr (.rule .self hkey hr)
    · exact .inr (hrun.rule hkey hr)

/-- A parser is as contained with a label as without. -/
theorem Grammar.Contained.withLabel (h : g.Contained p) (label : String) :
    g.Contained (p.withLabel label) := by
  intro q hq
  rcases hq.of_withLabel with rfl | hrun
  · have houter := h p .self
    cases p
    exact houter
  · exact h q hrun

/-- What a contained parser can come to run goes on in the attempt that it was in. -/
theorem labelled_run (h : g.Contained p) (hq : g.Runs p q) (fuel b : Nat) :
    labelling.Follows b (q.run g fuel) :=
  kept_labelling.run_of g (Q := g.Runs p) (fun _ hq _ hr => hq.part hr)
    (fun _ _ _ hq hkey hr => hq.rule hkey hr)
    (fun q hq _ hx => labelling_recorded q.label (h q hq) hx) fuel hq b

/-- So do the matchers, before they are recorded. -/
theorem labelled_perform (h : g.Contained p) (fuel b : Nat) :
    labelling.Follows b (p.matcher.perform g (Parser.run g fuel) fuel) :=
  kept_labelling.perform g p.matcher (fun _ hq => labelled_run h (.part .self hq) fuel)
    (fun _ _ hkey hq => labelled_run h (.rule .self hkey hq) fuel) fuel b

end

end ParseTrail
