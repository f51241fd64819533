import ParseTrail.Proofs.Session.Account
import ParseTrail.Proofs.Session.Course
import ParseTrail.Proofs.Trail.Dissolved

/-!
# Failed leaves

Attempts keep what they say of themselves once another is in progress; only their links may change,
and the mark that they are to be dissolved. An attempt that drops those made for it thus leaves a
single attempt on the trail when it fails, and otherwise the trail is the one from before:

- `Trail.Remembers`, `remembers_run`: what attempts say of themselves;
- `Trail.GainsLeaf`: a trail with one failed leaf more;
- `gainsLeaf_of_outcome`: what the failure of a leaf leaves on the trail.
-/

namespace ParseTrail

namespace Trail

variable {t u v : Trail} {id j parent start : Nat} {label : String}

/-! ### What attempts say of themselves -/

/-- What an attempt says of itself, its links apart and whether it is to be dissolved. -/
def told? (t : Trail) (id : Nat) : Option Attempt :=
  (t.bare? id).map fun a => { a with dissolving := false }

/-- The bare data of attempts tell what they say of themselves. -/
theorem told?_congr (h : u.bare? = t.bare?) : u.told? = t.told? := by
  funext id
  rw [told?, told?, h]

/-- To change what an attempt does not say of itself, or another attempt, changes nothing of it. -/
theorem told?_update (t : Trail) (id j : Nat) {f : Attempt → Attempt}
    (hf : j ≠ id ∨
      ∀ a, { (f a).bare with dissolving := false } = { a.bare with dissolving := false }) :
    (t.update id f).told? j = t.told? j := by
  rw [told?, told?, bare?, bare?, get?_update, Option.map_map, Option.map_map]
  split
  · next hid =>
    rw [Option.map_map]
    congr 1
    funext a
    exact hf.resolve_left (fun hne => hne hid.symm) a
  · rfl

/-- A new attempt says what it was given, and the others what they said. -/
theorem told?_push (t : Trail) (parent offset : Nat) (label : String) (anchor : Bool) (j : Nat) :
    (t.push parent offset label anchor).2.told? j =
      if j = t.size then some { span := Span.point offset, label, anchor } else t.told? j := by
  rw [push, told?_congr (bare?_setChildren _ _ _), told?, bare?, get?, Array.getElem?_push]
  by_cases hsize : j = t.attempts.size
  · rw [if_pos hsize, if_pos (show j = t.size from hsize)]
    rfl
  · rw [if_neg hsize, if_neg (show j ≠ t.size from hsize)]
    rfl

/-- To drop children changes nothing of what is said. -/
theorem told?_clearChildren (t : Trail) (id : Nat) : (t.clearChildren id).told? = t.told? :=
  told?_congr (by rw [clearChildren, bare?_setChildren, bare?_adopt])

/-- Marks are not among what is said. -/
theorem told?_dissolveToAnchor (t : Trail) (id : Nat) :
    (t.dissolveToAnchor id).told? = t.told? := by
  rw [dissolveToAnchor]
  generalize (t.ancestors id).takeWhile (!t.isAnchor ·) = ids
  induction ids generalizing t with
  | nil => rfl
  | cons id ids ih =>
    refine (ih (t.update id fun a => { a with dissolving := true })).trans ?_
    funext j
    exact told?_update t id j (.inr fun _ => rfl)

/-- A closed attempt keeps its label. -/
theorem exists_told?_close {a : Attempt} (h : t.told? id = some a) (stop : Nat) (failed : Bool) :
    ∃ b, (t.close id stop failed).told? id = some b ∧ b.label = a.label := by
  rw [told?, bare?, Option.map_map] at h
  obtain ⟨c, hc, rfl⟩ := Option.map_eq_some_iff.mp h
  rw [told?, bare?, close, get?_update, if_pos rfl, hc]
  exact ⟨_, rfl, rfl⟩

/-- A trail says of the attempts of another what that one says. -/
structure Remembers (t u : Trail) : Prop where
  size_le : t.size ≤ u.size
  told? : ∀ j < t.size, u.told? j = t.told? j

/-- A trail remembers itself. -/
theorem Remembers.refl (t : Trail) : t.Remembers t :=
  ⟨Nat.le_refl _, fun _ _ => rfl⟩

/-- What is remembered twice is remembered. -/
theorem Remembers.trans (htu : t.Remembers u) (huv : u.Remembers v) : t.Remembers v where
  size_le := Nat.le_trans htu.size_le huv.size_le
  told? j hj := (huv.told? j (Nat.lt_of_lt_of_le hj htu.size_le)).trans (htu.told? j hj)

/-- A new attempt comes after those remembered. -/
theorem remembers_push (t : Trail) (parent offset : Nat) (label : String) (anchor : Bool) :
    t.Remembers (t.push parent offset label anchor).2 where
  size_le := by
    rw [size_push]
    exact Nat.le_succ _
  told? j hj := by rw [told?_push, if_neg (Nat.ne_of_lt hj)]

/-- It is remembered whatever else has changed. -/
theorem Remembers.of_same (h : t.Remembers u) (hsize : v.size = u.size)
    (htold : v.told? = u.told?) : t.Remembers v where
  size_le := hsize ▸ h.size_le
  told? j hj := by rw [htold, h.told? j hj]

/-- So it is after children were dropped. -/
theorem Remembers.clearChildren (h : t.Remembers u) (id : Nat) : t.Remembers (u.clearChildren id) :=
  h.of_same (sameStarts_clearChildren u id).size (told?_clearChildren u id)

/-- To close an attempt changes what it says itself. -/
theorem Remembers.close (h : t.Remembers u) (stop : Nat) (failed : Bool) :
    t.Remembers (u.close t.size stop failed) where
  size_le := by
    rw [(sameStarts_close u t.size stop failed).size]
    exact h.size_le
  told? j hj := (told?_update u t.size j (.inl (Nat.ne_of_lt hj))).trans (h.told? j hj)

end Trail

/-! ### Sessions -/

/-- Sessions in which attempts keep what they say of themselves. -/
def remembering : Course where
  ready _ _ := True
  leads s t := s.trail.Remembers t.trail
  excuses _ := False

section

variable {β : Type} {b : Nat}

/-- What is done with the cursor leaves all attempts. -/
theorem remembering_ofReading (x : Reading β) : remembering.Follows b (Action.ofReading x) := by
  intro s r t _ ht _
  rw [outcome_ofReading] at ht
  split at ht
  · cases ht
  · cases ht
    exact .refl _

/-- So does an operation whose answer is passed on. -/
theorem remembering_ask {request : Cursor.Request} {reply : request.Reply → Except SourceError β} :
    remembering.Follows b (Action.ask request >>= fun told => Action.ofSource (reply told)) :=
  Course.follows_ofSource fun s _ _ _ _ _ => .refl s.trail

/-- All primitive actions remember. -/
theorem kept_remembering : remembering.Kept where
  refl {_ s} _ := .refl s.trail
  trans := .trans
  ready_of_leads _ _ := trivial
  narrow := id
  excuses_commit := id
  not_excuses _ := id
  read _ := remembering_ask
  readChar := remembering_ask
  peek _ := remembering_ask
  atEnd := remembering_ask
  returnTo := remembering_ofReading _
  reject label := by
    intro s r t _ ht _
    rw [outcome_reject] at ht
    cases ht
    exact (Trail.remembers_push _ _ _ _ _).close _ _

/-- An attempt is closed, and whatever becomes of it and of those around it, they keep what they say
of themselves. -/
theorem Trail.Remembers.left {s t : Session} (h : s.trail.Remembers t.trail) (stop : Nat)
    (failed : Bool) (shape : Shape) :
    s.trail.Remembers (t.left s.trail.size stop failed shape).trail := by
  obtain ⟨u, hu, -, heq | heq⟩ := Session.left_of_steps t (P := s.trail.Remembers) shape
    (h.close stop failed) (fun u hu => hu.clearChildren _)
    (fun u hu => hu.of_same (sameStarts_dissolveToAnchor u _).size (told?_dissolveToAnchor u _))
  · rw [heq]
    exact hu
  · rw [heq]
    exact hu.of_same (sameStarts_dissolve u _).size (told?_congr (bare?_dissolve u _))

/-- A recorded action remembers all attempts before its own. -/
theorem remembering_recorded (label : String) (shape : Shape) {x : Action β}
    (hx : ∀ b, remembering.Follows b x) (b : Nat) :
    remembering.Follows b (Action.recorded label shape x) := by
  intro s r u _ hu _
  have hentered : s.trail.Remembers (s.entered label shape.anchor).trail :=
    Trail.remembers_push _ _ _ _ _
  cases recorded_of_outcome hu with
  | tooDeep _ => exact .refl _
  | matched ht => exact (hentered.trans (hx b _ _ _ trivial ht fun _ _ => id)).left _ _ _
  | @failed f t d ht _ =>
    have ht := hx b _ _ t trivial ht fun _ _ => id
    exact Trail.Remembers.left (t := { t with cursor := d }) (hentered.trans ht) _ _ _

/-- Whatever runs, the attempts from before keep what they say of themselves. -/
theorem remembers_run {α : Type} (g : Grammar Empty α) (fuel : Nat) (p : Parser Empty α) (b : Nat) :
    remembering.Follows b (p.run g fuel) :=
  kept_remembering.run g remembering_recorded fuel p b

end

/-! ### Failed leaves -/

namespace Trail

variable {t u : Trail} {id j parent start : Nat} {failed : Bool} {label : String}

/-- The trail `u` is `t` with one attempt more, a leaf that failed, last below `parent`. Nothing
else was changed, and nothing else has come within reach. -/
structure GainsLeaf (t u : Trail) (parent start : Nat) (label : String) : Prop where
  leaf : ∃ a, u.get? t.size = some a ∧ a.span.start = start ∧ a.label = label ∧ a.failed = true ∧
    a.parent? = some parent ∧ a.children = []
  others : ∀ j < t.size, u.get? j =
    (t.get? j).map fun a => if j = parent then { a with children := a.children ++ [t.size] } else a
  reaches : ∀ c < t.size, ∀ j, u.Reaches c j ↔ t.Reaches c j ∨ j = t.size ∧ t.Reaches c parent

/-- What an attempt says of itself, its parent, its children and whether it is to be dissolved make
up the attempt. -/
theorem get?_eq_of_told? {a : Attempt}
    (htold : t.told? id = some { a.bare with dissolving := false }) (hparent : t.parent? id = a.parent?) (hchildren : t.children id = a.children)
    (hdissolving : ∀ note, t.note? id = some note → note.dissolving = a.dissolving) :
    t.get? id = some a := by
  rw [told?, bare?, Option.map_map] at htold
  obtain ⟨b, hget, hbare⟩ := Option.map_eq_some_iff.mp htold
  rw [Trail.parent?, hget] at hparent
  rw [Trail.children, hget] at hchildren
  have hnote := hdissolving b.note (by rw [note?, hget]; rfl)
  rw [hget]
  cases a
  cases b
  simp only [Attempt.bare, Function.comp_apply, Attempt.mk.injEq] at hbare
  simp_all [Attempt.note]

/-- Where nothing was left below an attempt, it has no children. -/
theorem Standing.children_eq_nil (h : Standing t u parent start failed .nil) :
    u.children t.size = [] := by
  have hbelow := h.below
  generalize u.children t.size = ids at hbelow
  cases hbelow
  rfl

/-- The leaf is the only attempt that has come within reach. -/
theorem Standing.reaches_iff (h : Standing t u parent start failed .nil) (ht : t.Linked) {c : Nat}
    (hc : c < t.size) : u.Reaches c j ↔ t.Reaches c j ∨ j = t.size ∧ t.Reaches c parent := by
  constructor
  · intro hreach
    -- The leaf leads nowhere, and the others lead to it or to where they led before.
    induction hreach with
    | refl => exact .inl .refl
    | @child i k hi hk ih =>
      rcases ih with hold | ⟨rfl, -⟩
      · rw [h.grows.children i (hold.lt_size ht hc), List.mem_append] at hk
        rcases hk with hk | hk
        · exact .inl (hold.child hk)
        · rw [List.mem_ite_nil_right, List.mem_singleton] at hk
          exact .inr ⟨hk.2, hk.1 ▸ hold⟩
      · rw [h.children_eq_nil] at hk
        cases hk
  · have hkeeps {j : Nat} (hj : t.Reaches c j) : u.Reaches c j := by
      induction hj with
      | refl => exact .refl
      | child hi hk ih =>
        refine ih.child ?_
        rw [h.grows.children _ (hi.lt_size ht hc)]
        exact List.mem_append_left _ hk
    rintro (hj | ⟨rfl, hparent⟩)
    · exact hkeeps hj
    · refine (hkeeps hparent).child ?_
      rw [h.grows.children _ h.parent_lt, if_pos rfl]
      exact List.mem_append_right _ (List.mem_singleton.mpr rfl)

/-- A leaf that a trail has grown by, and nothing else within reach. -/
theorem Standing.gainsLeaf (h : Standing t u parent start true .nil) (ht : t.Linked)
    (hold : t.Remembers u) (htold : ∃ a, u.told? t.size = some a ∧ a.label = label) :
    t.GainsLeaf u parent start label := by
  refine ⟨?_, fun j hj => ?_, fun c hc j => h.reaches_iff ht hc⟩
  · obtain ⟨a, htold, hlabel⟩ := htold
    rw [told?, bare?, Option.map_map] at htold
    obtain ⟨b, hget, rfl⟩ := Option.map_eq_some_iff.mp htold
    have hnote := h.note?
    have hparent := h.parent?
    have hchildren := h.children_eq_nil
    rw [Trail.note?, hget, Option.map_some, Option.some.injEq] at hnote
    rw [Trail.parent?, hget, Option.bind_some] at hparent
    rw [Trail.children, hget, Option.map_some, Option.getD_some] at hchildren
    exact ⟨b, hget, congrArg Note.start hnote, hlabel, congrArg Note.failed hnote, hparent,
      hchildren⟩
  · -- An attempt is what it tells of itself, its parent, its children and its note. Of those made
    -- before, only the parent of the leaf gets another child.
    obtain ⟨a, ha⟩ : ∃ a, t.get? j = some a := ⟨_, Array.getElem?_eq_getElem hj⟩
    rw [ha, Option.map_some]
    refine get?_eq_of_told? ?_ ?_ ?_ fun note hnote => ?_
    · rw [hold.told? j hj, told?, bare?, ha]
      split <;> rfl
    · rw [h.grows.parent? j hj, Trail.parent?, ha]
      split <;> rfl
    · rw [h.grows.children j hj, Trail.children, ha]
      split
      · rfl
      · exact List.append_nil _
    · rw [h.grows.note? j hj, Trail.note?, ha] at hnote
      cases hnote
      split <;> rfl

end Trail

/-- An attempt that drops those made for it, and is not dissolved, leaves a leaf when it fails to
match. -/
theorem gainsLeaf_of_outcome {β : Type} {label : String} {x : Action β} {s t : Session}
    {e : Expectation} (hs : s.Ready) (hx : Action.Accounts False False x)
    (hremembers : ∀ b, remembering.Follows b x)
    (hout : outcome (Action.recorded label { leaf := true } x) s = .ok (.error (.expected e), t)) :
    s.trail.GainsLeaf t.trail s.current s.cursor.position label ∧ t.current = s.current := by
  cases recorded_of_outcome hout with
  | @failed _ u d ht _ =>
    have hentered : (s.entered label false).trail.Remembers u.trail :=
      hremembers 0 _ _ u trivial ht fun _ _ => id
    have hold : s.trail.Remembers u.trail := (Trail.remembers_push _ _ _ _ _).trans hentered
    obtain ⟨F, hF, -⟩ := hx _ _ u (ready_entered hs label false) ht rfl
    have hleaf := ((standing_of_stretch hs hF).close u.cursor.position true).clearChildren
    have hleft : Session.left { u with cursor := d } s.trail.size u.cursor.position true
          { leaf := true } = { u with
        cursor := d
        trail := (u.trail.close s.trail.size u.cursor.position true).clearChildren s.trail.size
        current := s.current, depth := u.depth - 1 } := by
      simp only [Session.left, Bool.false_eq_true, if_true, if_false, hleaf.parent?,
        Option.getD_some, Trail.isDissolving_of_note? hleaf.note?, Bool.or_self]
    rw [hleft]
    refine ⟨hleaf.gainsLeaf hs.linked ?_ ?_, rfl⟩
    · exact (hold.close u.cursor.position true).clearChildren _
    · -- The label is the one that the attempt was opened with.
      have hlt : s.trail.size < (s.entered label false).trail.size := by
        rw [Session.entered, Trail.size_push]
        exact Nat.lt_succ_self _
      have htold := hentered.told? _ hlt
      rw [Session.entered, Trail.told?_push, if_pos rfl] at htold
      rw [Trail.told?_clearChildren]
      exact Trail.exists_told?_close htold u.cursor.position true

end ParseTrail
