import ParseTrail.Parser.Catalog
import ParseTrail.Proofs.Blame
import ParseTrail.Proofs.Session.Course
import ParseTrail.Proofs.Trail.Keeps

/-!
# Ranges along a chain of attempts

An attempt that fails is closed where its children got, so that it covers them. It need not cover
what stands further below: an attempt that matched may have absorbed the failure of another one that
got further, and stops short of it.

- `Session.Proceeds`: what recording does to a trail of nested attempts;
- `failed_attempt_covers`: what a failed attempt covers of the attempts below it;
- `failed_attempt_falls_short`: an attempt that failed before an attempt below it did.
-/

namespace ParseTrail

/-! ### Recording below the attempt in progress -/

namespace Trail

variable {t u : Trail} {parent : Nat}

/-- The trail `u` has come from `t` by an attempt below `parent`, which has not failed, and attempts
made for it. -/
structure Hosts (t u : Trail) (parent : Nat) : Prop where
  linked : u.Linked
  nested : u.Nested
  keeps : t.Keeps u
  parent? : u.parent? t.size = some parent
  opened : t.failedAt parent = false

namespace Hosts

/-- The attempt in progress is opened below its parent. -/
theorem opens (h : t.Hosts u parent) : t.Opens u parent :=
  ⟨h.linked, h.keeps, h.parent?⟩

/-- Its parent has not failed. -/
theorem open_parent (h : t.Hosts u parent) : u.failedAt parent = false := by
  rw [failedAt_congr (h.keeps.extent? parent h.opens.parent_lt), h.opened]

/-- A new attempt is hosted by the one in progress, if it starts no earlier. -/
theorem push (hlinked : t.Linked) (hnested : t.Nested) (hparent : parent < t.size)
    (hopen : t.failedAt parent = false) {offset : Nat} (hstart : t.startOf parent ≤ offset)
    (label : String) (anchor : Bool) :
    t.Hosts (t.push parent offset label anchor).2 parent := by
  have hopens := Opens.push hlinked hparent offset label anchor
  exact ⟨hopens.linked, hnested.push hlinked hparent hopen hstart label anchor, hopens.keeps,
    hopens.parent?, hopen⟩

/-- It may be closed. -/
theorem close (h : t.Hosts u parent) (stop : Nat) (failed : Bool) :
    t.Hosts (u.close t.size stop failed) parent := by
  have hopens := h.opens.close stop failed
  exact ⟨hopens.linked, h.nested.close h.linked h.parent? h.open_parent stop failed, hopens.keeps,
    hopens.parent?, h.opened⟩

/-- What was made for it may be dropped. -/
theorem clearChildren (h : t.Hosts u parent) : t.Hosts (u.clearChildren t.size) parent := by
  have hopens := h.opens.clearChildren
  exact ⟨hopens.linked, h.nested.clearChildren h.opens.lt_size, hopens.keeps, hopens.parent?,
    h.opened⟩

/-- What stands above it may be marked. -/
theorem dissolveToAnchor (h : t.Hosts u parent) :
    t.Hosts (u.dissolveToAnchor t.size) parent := by
  have hopens := h.opens.dissolveToAnchor
  exact ⟨hopens.linked, h.nested.dissolveToAnchor _, hopens.keeps, hopens.parent?, h.opened⟩

end Hosts

end Trail

/-! ### Sessions -/

namespace Session

variable {s t u : Session} {d : Cursor}

/-- The trail is nested, and the attempt in progress on it has not failed and starts no later than
the cursor. -/
structure Sound (s : Session) : Prop where
  ready : s.Ready
  nested : s.trail.Nested
  opened : s.trail.failedAt s.current = false
  start_le : s.trail.startOf s.current ≤ s.cursor.position

/-- A session goes on from another in the same attempt, and keeps those before. -/
structure Proceeds (s t : Session) : Prop where
  sound : t.Sound
  current : t.current = s.current
  keeps : s.trail.Keeps t.trail

/-- A session starts soundly, with its root in progress. -/
theorem sound_start (c : Cursor) (config : Config) : (Session.start c config).Sound :=
  ⟨ready_start c config, Trail.nested_start _, rfl, Nat.le_refl _⟩

/-- A sound session goes on from itself. -/
theorem Proceeds.refl (hs : s.Sound) : s.Proceeds s :=
  ⟨hs, rfl, .refl _⟩

/-- What goes on twice goes on. -/
theorem Proceeds.trans (hst : s.Proceeds t) (htu : t.Proceeds u) : s.Proceeds u :=
  ⟨htu.sound, htu.current.trans hst.current, hst.keeps.trans htu.keeps⟩

/-- The attempt in progress starts where it did. -/
theorem Proceeds.startOf_current (h : s.Proceeds t) (hs : s.Sound) :
    t.trail.startOf t.current = s.trail.startOf s.current := by
  rw [h.current, Trail.startOf_congr (h.keeps.extent? _ hs.ready.current_lt)]

/-- Only the cursor moves, to no offset before the attempt in progress. -/
theorem Sound.withCursor (hs : s.Sound) (hd : s.trail.startOf s.current ≤ d.position) :
    s.Proceeds { s with cursor := d } :=
  ⟨⟨⟨hs.ready.linked, hs.ready.current_lt⟩, hs.nested, hs.opened, hd⟩, rfl, .refl _⟩

/-- An attempt has come and gone, and the attempt in progress is the one it was made for. -/
theorem Sound.proceeds (hs : s.Sound) (hlinked : t.trail.Linked) (hnested : t.trail.Nested)
    (hkeeps : s.trail.Keeps t.trail) (hcurrent : t.current = s.current)
    (hstart : s.trail.startOf s.current ≤ t.cursor.position) : s.Proceeds t := by
  have hextent := hkeeps.extent? _ hs.ready.current_lt
  refine ⟨⟨⟨hlinked, ?_⟩, hnested, ?_, ?_⟩, hcurrent, hkeeps⟩
  · rw [hcurrent]
    exact Nat.lt_of_lt_of_le hs.ready.current_lt hkeeps.size_le
  · rw [hcurrent, Trail.failedAt_congr hextent, hs.opened]
  · rw [hcurrent, Trail.startOf_congr hextent]
    exact hstart

/-- A rejection adds a failed attempt. -/
theorem proceeds_rejected (hs : s.Sound) {offset : Nat}
    (hstart : s.trail.startOf s.current ≤ offset) (label : String) :
    s.Proceeds { s with
      trail := (s.trail.push s.current offset label false).2.close s.trail.size
        s.cursor.position true } := by
  have hosts := (Trail.Hosts.push hs.ready.linked hs.nested hs.ready.current_lt hs.opened hstart label
    false).close s.cursor.position true
  exact hs.proceeds hosts.linked hosts.nested hosts.keeps rfl hs.start_le

/-- The attempt in progress hosts the one that is entered. -/
theorem hosts_entered (hs : s.Sound) (label : String) (anchor : Bool) :
    s.trail.Hosts (s.entered label anchor).trail s.current :=
  .push hs.ready.linked hs.nested hs.ready.current_lt hs.opened hs.start_le label anchor

/-- That one starts where the cursor stands. -/
theorem startOf_entered (s : Session) (label : String) (anchor : Bool) :
    (s.entered label anchor).trail.startOf s.trail.size = s.cursor.position := by
  rw [Trail.startOf_eq_extent, entered, Trail.extent?_push, if_pos rfl]
  rfl

/-- An attempt that was just opened. -/
theorem sound_entered (hs : s.Sound) (label : String) (anchor : Bool) :
    (s.entered label anchor).Sound where
  ready := ready_entered hs.ready label anchor
  nested := (hosts_entered hs label anchor).nested
  opened := by
    have hextent : (s.entered label anchor).trail.extent? s.trail.size =
        some (Span.point s.cursor.position, false) := by
      rw [entered, Trail.extent?_push, if_pos rfl]
    rw [entered, Trail.failedAt_eq_extent]
    exact congrArg (Option.any (·.2)) hextent
  start_le := Nat.le_of_eq (startOf_entered s label anchor)

/-- The attempt in progress is closed and takes its place, whatever its shape. -/
theorem proceeds_left (hs : s.Sound) {label : String} {anchor : Bool}
    (ht : (s.entered label anchor).Proceeds t)
    (hstart : s.trail.startOf s.current ≤ t.cursor.position) (stop : Nat) (failed : Bool)
    (shape : Shape) : s.Proceeds (t.left s.trail.size stop failed shape) := by
  have hentered := hosts_entered hs label anchor
  have hosts : s.trail.Hosts t.trail s.current := by
    refine ⟨ht.sound.ready.linked, ht.sound.nested, hentered.keeps.trans ht.keeps, ?_, hs.opened⟩
    rw [ht.keeps.parent? _ hentered.opens.lt_size, hentered.parent?]
  -- Each step keeps the attempt below its parent, up to the last, which may dissolve it.
  obtain ⟨u, hu, hcurrent, htrail⟩ := t.left_of_steps (P := (s.trail.Hosts · s.current)) shape
    (hosts.close stop failed) (fun _ => Trail.Hosts.clearChildren)
    (fun _ => Trail.Hosts.dissolveToAnchor)
  rw [hu.parent?, Option.getD_some] at hcurrent
  rcases htrail with htrail | htrail
  · refine hs.proceeds ?_ ?_ ?_ hcurrent hstart
    · rw [htrail]
      exact hu.linked
    · rw [htrail]
      exact hu.nested
    · rw [htrail]
      exact hu.keeps
  · refine hs.proceeds ?_ ?_ ?_ hcurrent hstart
    · rw [htrail]
      exact hu.linked.dissolve _
    · rw [htrail]
      exact hu.nested.dissolve hu.linked hu.parent? hu.open_parent
    · rw [htrail]
      exact hu.opens.keeps_dissolve

end Session

/-! ### Parsers -/

/-- Sessions proceed, and go back to offsets no earlier than the attempt in progress. -/
def proceeding : Course where
  ready b s := s.Sound ∧ s.trail.startOf s.current ≤ b
  leads := Session.Proceeds
  excuses _ := False

variable {b : Nat}

/-- An operation on the cursor that does not move it back. -/
theorem proceeding_ofSource {β : Type} {request : Cursor.Request}
    {reply : request.Reply → Except SourceError β}
    (h : ∀ c d told, Cursor.perform c request = .ok (told, d) → c.position ≤ d.position) :
    proceeding.Follows b (Action.ask request >>= fun told => Action.ofSource (reply told)) :=
  Course.follows_ofSource fun _ _ _ hs hd _ =>
    hs.1.withCursor (Nat.le_trans hs.1.start_le (h _ _ _ hd))

/-- The primitive actions proceed. -/
theorem kept_proceeding : proceeding.Kept where
  refl hs := .refl hs.1
  trans := .trans
  ready_of_leads hs hst := ⟨hst.sound, hst.startOf_current hs.1 ▸ hs.2⟩
  narrow hs := ⟨hs.1, hs.1.start_le⟩
  excuses_commit := id
  not_excuses _ := id
  read _ := proceeding_ofSource fun _ _ _ hd => (Cursor.Ahead.read hd).position_le
  readChar := proceeding_ofSource fun _ _ _ hd => (Cursor.Ahead.readChar hd).position_le
  peek n := proceeding_ofSource fun c d told hd => by
    -- Looking ahead leaves the cursor where the source failed, if it did.
    rcases hread : c.read n with cause | ⟨err | found, e⟩
    · rw [Cursor.perform, Cursor.peek, hread] at hd
      cases hd
    · rw [Cursor.perform, Cursor.peek, hread] at hd
      cases hd
      exact (Cursor.Ahead.read hread).position_le
    · rcases told with err | found'
      · rw [Cursor.perform, Cursor.peek, hread] at hd
        cases hd
      · exact Nat.le_of_eq (Cursor.position_peek hd).symm
  atEnd := proceeding_ofSource fun c d _ hd => by
    have hposition := Cursor.position_atEnd c
    have hd : c.atEnd = _ := Except.ok.inj hd
    rw [hd] at hposition
    exact Nat.le_of_eq hposition.symm
  returnTo := by
    intro b s r t hs ht _
    obtain ⟨-, d, hd, rfl⟩ := outcome_returnTo_ok ht
    exact hs.1.withCursor (hd ▸ hs.2)
  reject label := by
    intro s r t hs ht _
    rw [outcome_reject] at ht
    cases ht
    exact Session.proceeds_rejected hs.1 hs.2 label

/-- A recorded action proceeds, as its attempt is hosted by the one in progress. -/
theorem proceeding_recorded {β : Type} (label : String) (shape : Shape) {x : Action β}
    (hx : ∀ b, proceeding.Follows b x) (b : Nat) :
    proceeding.Follows b (Action.recorded label shape x) := by
  intro s r u hs hu _
  -- The action goes on from the attempt just opened, and back to where it starts at most.
  have hentered := Session.sound_entered hs.1 label shape.anchor
  cases recorded_of_outcome hu with
  | tooDeep _ => exact .refl hs.1
  | @matched v t ht =>
    have ht := hx _ _ _ t ⟨hentered, hentered.start_le⟩ ht fun _ _ => id
    have hstart : s.trail.startOf s.current ≤ t.cursor.position := by
      have hle := ht.sound.start_le
      rw [ht.startOf_current hentered] at hle
      exact Nat.le_trans hs.1.start_le
        (Nat.le_trans (Nat.le_of_eq (Session.startOf_entered s label shape.anchor).symm) hle)
    exact Session.proceeds_left hs.1 ht hstart _ false shape
  | @failed f t d ht hreturn =>
    have ht := hx _ _ _ t ⟨hentered, hentered.start_le⟩ ht fun _ _ => id
    have hd : d.position = s.cursor.position := Cursor.position_returnTo hreturn
    have hback : (s.entered label shape.anchor).Proceeds { t with cursor := d } := by
      refine ht.trans (ht.sound.withCursor ?_)
      rw [ht.startOf_current hentered, hd]
      exact hentered.start_le
    exact Session.proceeds_left hs.1 hback (hd ▸ hs.1.start_le) _ true shape

/-- What a failed attempt covers of the attempts below it. On the trail of any run, whatever the
shapes of the parsers, no attempt starts before one that stands above it. A failed attempt stops no
earlier than an attempt below it, however far, unless an attempt on the way matched and stopped
earlier than that. -/
theorem failed_attempt_covers {α : Type} (g : Grammar Empty α) (fuel : Nat) (p : Parser Empty α)
    (config : Config) (c d : Cursor) (r : Except Failure (Value α)) (trail : Trail)
    (hrun : Reading.session config (p.run g fuel) c = .ok ((r, trail), d)) (x y : Nat)
    (hreach : trail.Reaches x y) :
    trail.startOf x ≤ trail.startOf y ∧
      (trail.failedAt x = true → trail.stopOf y ≤ trail.stopOf x ∨
        ∃ m, trail.Reaches x m ∧ m ≠ x ∧ trail.Reaches m y ∧ trail.failedAt m = false ∧
          trail.stopOf m < trail.stopOf y) := by
  rw [session_eq] at hrun
  rcases hout : outcome (p.run g fuel) (Session.start c config) with h | ⟨r', t⟩
  · rw [hout] at hrun
    cases hrun
  · rw [hout] at hrun
    cases hrun
    -- The trail of every run is nested, from which both parts follow.
    have hproceeds := kept_proceeding.run g proceeding_recorded fuel p c.position _ _ t
      ⟨Session.sound_start c config, Nat.le_refl _⟩ hout fun _ _ => id
    have hnested := hproceeds.sound.nested
    refine ⟨hnested.startOf_le hreach, fun hfailed => ?_⟩
    rcases hnested.stopOf_le_or_exists_matched hreach with hle | ⟨m, hxm, hmy, hmatched, hlt⟩
    · exact .inl hle
    · refine .inr ⟨m, hxm, ?_, hmy, hmatched, hlt⟩
      rintro rfl
      rw [hfailed] at hmatched
      cases hmatched

/-- Any number of a longer text, then one letter before another. -/
def hasty : Parser Empty Unit :=
  .between (.many (.literal "aab")) (.literal "d") (.literal "c")

/-- The example is put together from the catalog. -/
theorem fromCatalog_hasty : hasty.FromCatalog := by
  refine .matcher fun q hq => ?_
  simp only [Matcher.parts, List.mem_cons, List.not_mem_nil, or_false] at hq
  rcases hq with rfl | rfl | rfl
  · refine .matcher fun q hq => ?_
    rw [List.mem_singleton.mp hq]
    exact .literal _
  · exact .literal _
  · exact .literal _

/-- What the attempt of the whole, of the repetition and of the longer text come to. -/
theorem exists_trail_hasty :
    ∃ r trail d, Reading.session {} (hasty.run ruleless 4) (Cursor.ofText "aaaa") =
      .ok ((r, trail), d) ∧ 1 ∈ trail.children 0 ∧ 2 ∈ trail.children 1 ∧ 3 ∈ trail.children 2 ∧
      trail.failedAt 1 = true ∧ trail.failedAt 3 = true ∧ trail.stopOf 1 < trail.stopOf 3 := by
  have hchecked : passes (fun end₁ => decide (1 ∈ end₁.1.2.children 0 ∧
      2 ∈ end₁.1.2.children 1 ∧ 3 ∈ end₁.1.2.children 2 ∧ end₁.1.2.failedAt 1 = true ∧
      end₁.1.2.failedAt 3 = true ∧ end₁.1.2.stopOf 1 < end₁.1.2.stopOf 3))
      (Reading.session {} (hasty.run ruleless 4) (Cursor.ofText "aaaa")) = true := by
    decide +kernel
  obtain ⟨⟨⟨r, trail⟩, d⟩, hrun, htrail⟩ := exists_of_passes hchecked
  exact ⟨r, trail, d, hrun, of_decide_eq_true htrail⟩

/-- The longer text is not covered, since its repetition matched and stops before it. -/
theorem failed_attempt_covers_hasty :
    ∃ r trail d, Reading.session {} (hasty.run ruleless 4) (Cursor.ofText "aaaa") =
      .ok ((r, trail), d) ∧ trail.Reaches 1 3 ∧ trail.startOf 1 ≤ trail.startOf 3 ∧
      trail.failedAt 1 = true ∧
      ∃ m, trail.Reaches 1 m ∧ m ≠ 1 ∧ trail.Reaches m 3 ∧ trail.failedAt m = false ∧
        trail.stopOf m < trail.stopOf 3 := by
  obtain ⟨r, trail, d, hrun, -, hmany, htext, hfailed, -, hstop⟩ := exists_trail_hasty
  have hreach : trail.Reaches 1 3 := .child (.child .refl hmany) htext
  obtain ⟨hstart, hcovers⟩ :=
    failed_attempt_covers ruleless 4 hasty {} (Cursor.ofText "aaaa") d r trail hrun 1 3 hreach
  exact ⟨r, trail, d, hrun, hreach, hstart, hfailed,
    (hcovers hfailed).resolve_left (Nat.not_le.mpr hstop)⟩

/-- A failed attempt that stops before a failed attempt below it does. -/
theorem failed_attempt_falls_short :
    hasty.FromCatalog ∧
    ∃ r trail d, Reading.session {} (hasty.run ruleless 4) (Cursor.ofText "aaaa") =
      .ok ((r, trail), d) ∧
      ∃ x y, trail.Reaches 0 x ∧ trail.Reaches x y ∧ trail.failedAt x = true ∧
        trail.failedAt y = true ∧ trail.stopOf x < trail.stopOf y := by
  obtain ⟨r, trail, d, hrun, hwhole, hmany, htext, hfailed, hfailed', hstop⟩ := exists_trail_hasty
  exact ⟨fromCatalog_hasty, r, trail, d, hrun, 1, 3, .child .refl hwhole,
    .child (.child .refl hmany) htext, hfailed, hfailed', hstop⟩

end ParseTrail
