import ParseTrail.Parser.Run
import ParseTrail.Proofs.Cursor.Lines
import ParseTrail.Proofs.Session.Likeness
import ParseTrail.Proofs.Session.Outcome
import ParseTrail.Proofs.Trail.Basic

/-!
# Sessions in the same text

Two cursors may show the same place of the same text and yet keep different amounts of it, as one
reads a text and another pulls it from a source in pieces. Sessions at such cursors stay at the same
places, record the same attempts and end alike:

- `respects_sameText`: the primitive actions are alike in them;
- `agree_invoke_of_abreast`, `agree_parse_of_abreast`, `agree_parseAhead_of_abreast`: invocations
  give the same answers, errors and reports included.
-/

namespace ParseTrail

/-- Two cursors stand at one place of a text that lies at `base`. -/
def Cursor.Abreast (base : Nat) (text : List Char) (c d : Cursor) : Prop :=
  ∃ before rest, text = before ++ rest ∧ c.Shows base before rest ∧ d.Shows base before rest

/-- All attempts start in the text that a cursor keeps. -/
def Trail.KeptBy (t : Trail) (c : Cursor) : Prop :=
  t.StartsWithin c.origin (c.origin + c.buffered)

/-- Two cursors in scopes that stand abreast. -/
structure MeetingPoint where
  /-- The offset of the text. -/
  base : Nat
  /-- The text before the cursors. -/
  before : List Char
  /-- The text after them. -/
  rest : List Char
  /-- One cursor. -/
  first : Cursor
  /-- The other cursor. -/
  second : Cursor
  firstShows : first.Shows base before rest
  secondShows : second.Shows base before rest
  firstInScope : 0 < first.scopes
  secondInScope : 0 < second.scopes

namespace MeetingPoint

/-- The offset of the cursors. -/
def offset (b : MeetingPoint) : Nat :=
  b.base + Text.byteLength b.before

/-- The text that the cursors stand in. -/
def text (b : MeetingPoint) : List Char :=
  b.before ++ b.rest

end MeetingPoint

/-- Two sessions that differ in their cursors alone, which have come the same way since they met. -/
structure Together (b : MeetingPoint) (s t : Session) : Prop where
  eq : t = { s with cursor := t.cursor }
  abreast : Cursor.Abreast b.base b.text s.cursor t.cursor
  first : b.first.Extends s.cursor
  second : b.second.Extends t.cursor
  firstKept : s.trail.KeptBy s.cursor
  secondKept : s.trail.KeptBy t.cursor

/-- Sessions in the same text correspond. -/
def sameText : Likeness MeetingPoint Session Session Failure Failure where
  states := Together
  failures := Eq
  halts _ := True

variable {b : MeetingPoint} {s t : Session} {c d c' d' : Cursor} {base : Nat} {text : List Char}
  {β : Type} {x y : Action β}

theorem Cursor.Abreast.position_eq (h : Cursor.Abreast base text c d) :
    c.position = d.position := by
  obtain ⟨before, rest, -, hc, hd⟩ := h
  rw [hc.position, hd.position]

theorem Trail.KeptBy.extends {u : Trail} (h : u.KeptBy c) (hext : c.Extends d) : u.KeptBy d := by
  refine h.mono (Nat.le_of_eq hext.origin) ?_
  rw [hext.origin]
  exact Nat.add_le_add_left hext.buffered_le _

namespace Together

/-- The sessions go on with cursors that have come the same way further. -/
theorem withCursors (h : Together b s t) (hc : s.cursor.Extends c') (hd : t.cursor.Extends d')
    (habreast : Cursor.Abreast b.base b.text c' d') :
    Together b { s with cursor := c' } { t with cursor := d' } where
  eq := by
    -- The equation of the sessions does not depend on the cursors they had.
    have heq := h.eq
    generalize t.cursor = e at heq
    subst heq
    rfl
  abreast := habreast
  first := h.first.trans hc
  second := h.second.trans hd
  firstKept := h.firstKept.extends hc
  secondKept := h.secondKept.extends hd

/-- The sessions go on with another trail, the same in both, whose attempts start in the text that
both cursors keep. -/
theorem withTrail (h : Together b s t) {s' t' : Session} (hs : s'.cursor = s.cursor)
    (ht : t'.cursor = t.cursor) (heq : t' = { s' with cursor := t'.cursor })
    (hfirst : s'.trail.KeptBy s.cursor) (hsecond : s'.trail.KeptBy t.cursor) :
    Together b s' t' where
  eq := heq
  abreast := by
    rw [hs, ht]
    exact h.abreast
  first := hs.symm ▸ h.first
  second := ht.symm ▸ h.second
  firstKept := hs.symm ▸ hfirst
  secondKept := ht.symm ▸ hsecond

end Together

/-! ### Primitive actions -/

/-- An operation that answers from the text ahead and moves over a part of it. -/
theorem alike_ask_of_answer (r : Cursor.Request) (answer : List Char → r.Reply)
    (moved : List Char → Nat)
    (h : ∀ {base before rest} {c : Cursor}, c.Shows base before rest →
      ∃ d, c.perform r = .ok (answer rest, d) ∧
        d.Shows base (before ++ rest.take (moved rest)) (rest.drop (moved rest))) :
    sameText.Alike b Eq (Action.ask r) (Action.ask r) := by
  intro s t hst
  -- Both cursors have the same text ahead, whatever they keep of it, and the answer depends on
  -- that text alone.
  obtain ⟨before, rest, htext, hs, ht⟩ := hst.abreast
  obtain ⟨c, hc, hcshows⟩ := h hs
  obtain ⟨d, hd, hdshows⟩ := h ht
  rw [outcome_ask, outcome_ask, hc, hd]
  have hsscope : 0 < s.cursor.scopes := hst.first.scopes ▸ b.firstInScope
  have htscope : 0 < t.cursor.scopes := hst.second.scopes ▸ b.secondInScope
  refine .done (.ok rfl) (hst.withCursors (.perform hs.inBounds hsscope r hc)
    (.perform ht.inBounds htscope r hd) ⟨_, _, ?_, hcshows, hdshows⟩)
  rw [htext, List.append_assoc, List.take_append_drop]

theorem alike_ofSource_sameText (r : Except SourceError β) :
    sameText.Alike b Eq (Action.ofSource r) (Action.ofSource r) := by
  rcases r with e | v
  · exact Likeness.Alike.throw rfl
  · exact Likeness.Alike.pure rfl

/-- Parsing respects that sessions are in the same text. -/
theorem respects_sameText : sameText.Respects MeetingPoint.offset where
  failures := rfl
  narrow := by
    intro b s t hst
    obtain ⟨before, rest, htext, hs, ht⟩ := hst.abreast
    -- The sessions meet where they are now.
    let b' : MeetingPoint := ⟨b.base, before, rest, s.cursor, t.cursor, hs, ht,
      hst.first.scopes ▸ b.firstInScope, hst.second.scopes ▸ b.secondInScope⟩
    refine ⟨b', ?_, fun s' t' hst' => ?_, hs.position.symm, ht.position.symm⟩
    · exact ⟨hst.eq, ⟨before, rest, rfl, hs, ht⟩, .refl hs.inBounds, .refl ht.inBounds,
        hst.firstKept, hst.secondKept⟩
    · refine ⟨hst'.eq, ?_, hst.first.trans hst'.first, hst.second.trans hst'.second,
        hst'.firstKept, hst'.secondKept⟩
      rw [htext]
      exact hst'.abreast
  read n := (alike_ask_of_answer (.read n) (fun rest => .ok (rest.take n)) (fun _ => n)
    fun h => h.read n).bindEq fun r => alike_ofSource_sameText r
  readChar := (alike_ask_of_answer .readChar (fun rest => .ok rest.head?) (fun _ => 1)
    fun h => h.readChar).bindEq fun r => alike_ofSource_sameText r
  peek n := by
    refine (alike_ask_of_answer (.peek n) (fun rest => .ok (rest.take n)) (fun _ => 0)
      fun h => ?_).bindEq fun r => alike_ofSource_sameText r
    -- Looking ahead moves over no character.
    obtain ⟨d, hpeek, hd⟩ := h.peek n
    rw [List.take_zero, List.append_nil, List.drop_zero]
    exact ⟨d, hpeek, hd⟩
  atEnd := by
    refine (alike_ask_of_answer .atEnd (fun rest => .ok rest.isEmpty) (fun _ => 0)
      fun h => ?_).bindEq fun r => alike_ofSource_sameText r
    obtain ⟨d, hend, hd⟩ := h.atEnd
    rw [List.take_zero, List.append_nil, List.drop_zero]
    exact ⟨d, congrArg Except.ok hend, hd⟩
  returnTo := by
    intro b s t hst
    obtain ⟨before, rest, htext, hs, ht⟩ := hst.abreast
    have hfirst := hst.first.returnTo b.firstShows.inBounds
    have hsecond := hst.second.returnTo b.secondShows.inBounds
    rw [b.firstShows.position] at hfirst
    rw [b.secondShows.position] at hsecond
    rw [outcome_returnTo, outcome_returnTo, MeetingPoint.offset, hfirst, hsecond]
    -- Where they met is kept by both cursors, as each extends the one that it was there.
    have hle : b.first.index ≤ s.cursor.buffered :=
      Nat.le_trans b.firstShows.inBounds hst.first.buffered_le
    have hle' : b.second.index ≤ t.cursor.buffered :=
      Nat.le_trans b.secondShows.inBounds hst.second.buffered_le
    refine .done (.ok rfl) (hst.withCursors ((Cursor.Extends.refl hs.inBounds).withIndex hle)
      ((Cursor.Extends.refl ht.inBounds).withIndex hle') ⟨b.before, b.rest, rfl, ?_, ?_⟩)
    · exact b.firstShows.back hs hst.first htext.symm
    · exact b.secondShows.back ht hst.second htext.symm
  reject := by
    intro b label s t hst
    obtain ⟨before, rest, -, hs, ht⟩ := hst.abreast
    obtain ⟨d, rfl⟩ : ∃ d, t = { s with cursor := d } := ⟨_, hst.eq⟩
    have hposition : d.position = s.cursor.position := hst.abreast.position_eq.symm
    have hfirst := hst.first.position_within b.firstShows.inBounds
    have hsecond := hst.second.position_within b.secondShows.inBounds
    rw [b.firstShows.position] at hfirst
    rw [b.secondShows.position] at hsecond
    rw [outcome_reject, outcome_reject]
    simp only [hposition]
    -- The new attempt starts at the meeting point, and that is kept. Closing it moves no start.
    have hstarts := ((s.trail.push s.current b.offset label false).2.sameStarts_close s.trail.size
      s.cursor.position true)
    exact .done (.ok rfl) (hst.withTrail rfl rfl rfl
      ((Trail.startsWithin_push hst.firstKept hfirst.1 hfirst.2 _ _ _).of_sameStarts hstarts)
      ((Trail.startsWithin_push hst.secondKept hsecond.1 hsecond.2 _ _ _).of_sameStarts hstarts))
  enter := by
    intro b label shape s t hst
    obtain ⟨before, rest, -, hs, ht⟩ := hst.abreast
    obtain ⟨d, rfl⟩ : ∃ d, t = { s with cursor := d } := ⟨_, hst.eq⟩
    have hposition : d.position = s.cursor.position := hst.abreast.position_eq.symm
    rw [outcome_enter, outcome_enter]
    by_cases hdeep : s.maxDepth ≠ 0 ∧ s.depth ≥ s.maxDepth
    · rw [if_pos hdeep, if_pos hdeep]
      exact .done (.error rfl) hst
    · rw [if_neg hdeep, if_neg hdeep]
      simp only [hposition]
      -- It starts at the cursor, which stands in the text that it keeps.
      have hfirst := (Cursor.Extends.refl hs.inBounds).position_within hs.inBounds
      have hsecond := (Cursor.Extends.refl ht.inBounds).position_within ht.inBounds
      rw [hposition] at hsecond
      exact .done (.ok rfl) (hst.withTrail rfl rfl rfl
        (Trail.startsWithin_push hst.firstKept hfirst.1 hfirst.2 _ _ _)
        (Trail.startsWithin_push hst.secondKept hsecond.1 hsecond.2 _ _ _))
  leave := by
    intro b id stop failed shape s t hst
    obtain ⟨d, rfl⟩ : ∃ d, t = { s with cursor := d } := ⟨_, hst.eq⟩
    rw [outcome_leave, outcome_leave]
    -- An attempt that is left may lose its children or dissolve. No start is new.
    have hstarts := s.sameStarts_left id stop failed shape
    exact .done (.ok rfl) (hst.withTrail rfl rfl rfl (hst.firstKept.of_sameStarts hstarts)
      (hst.secondKept.of_sameStarts hstarts))
  outOfFuel := trivial
  limitExceeded := trivial
  rulePending := trivial
  ruleDropped := trivial

/-- Running a parser without procedures is alike in the same text. -/
theorem alike_run_of_sameText {α : Type} (g : Grammar Empty α) (fuel : Nat) (p : Parser Empty α)
    (b : MeetingPoint) : sameText.Alike b Eq (p.run g fuel) (p.run g fuel) :=
  respects_sameText.run g (fun _ _ key => key.elim) fuel p b

/-! ### Invocations -/

/-- Where invocations leave two cursors that stand abreast. -/
structure StayAbreast (base : Nat) (text : List Char) (c d c' d' : Cursor) : Prop where
  abreast : Cursor.Abreast base text c' d'
  first : c.Extends c'
  second : d.Extends d'

/-- The outcomes of an invocation at two cursors agree. -/
abbrev AgreeAbreast (base : Nat) (text : List Char) (c d : Cursor)
    (o p : Except Halt (β × Cursor)) : Prop :=
  Agree (fun _ => True) Eq (StayAbreast base text c d) o p

/-- The errors of a parse are the same, reports included. -/
theorem agree_errorOf_of_abreast {trail : Trail} (f : Failure)
    (h : StayAbreast base text c d c' d') (hfirst : trail.KeptBy c') (hsecond : trail.KeptBy d') :
    AgreeAbreast base text c d (Reading.errorOf trail f c') (Reading.errorOf trail f d') := by
  have hdiagnose (committed : Bool) : AgreeAbreast base text c d
      (Reading.diagnose trail committed c') (Reading.diagnose trail committed d') := by
    obtain ⟨before, rest, htext, hc, hd⟩ := h.abreast
    -- The line of the furthest start is told from the text. Both cursors keep the text up to there,
    -- so they find the same line, reading on to its end if they must.
    obtain ⟨c'', hline, hc''⟩ := hc.lineAt hfirst.furthestStart.1 hfirst.furthestStart.2
    obtain ⟨d'', hline', hd''⟩ := hd.lineAt hsecond.furthestStart.1 hsecond.furthestStart.2
    have hext := Cursor.Extends.lineAt trail.furthestStart hc.inBounds
    have hext' := Cursor.Extends.lineAt trail.furthestStart hd.inBounds
    rw [diagnose_eq, diagnose_eq]
    rw [hline] at hext ⊢
    rw [hline'] at hext' ⊢
    dsimp only
    rcases Report.ofTrail trail (Line.around base (before ++ rest) trail.furthestStart)
      with cause | report
    · exact .halt trivial
    · exact .done rfl
        ⟨⟨before, rest, htext, hc'', hd''⟩, h.first.trans hext, h.second.trans hext'⟩
  cases f with
  | expected _ => exact hdiagnose false
  | committed _ => exact hdiagnose true
  | tooDeep depth limit => exact .done rfl h
  | source e => exact .done rfl h

section

variable {before rest : List Char}

theorem Cursor.inScope_openScope (c : Cursor) : 0 < c.openScope.scopes :=
  Nat.succ_pos c.scopes

/-- The sessions of two invocations meet inside the scopes that these open. -/
def MeetingPoint.ofInvocations (hc : c.Shows base before rest) (hd : d.Shows base before rest) :
    MeetingPoint where
  base := base
  before := before
  rest := rest
  first := c.openScope
  second := d.openScope
  firstShows := hc.withScopes _
  secondShows := hd.withScopes _
  firstInScope := c.inScope_openScope
  secondInScope := d.inScope_openScope

theorem together_start (hc : c.Shows base before rest) (hd : d.Shows base before rest)
    (config : Config) :
    Together (.ofInvocations hc hd) (Session.start c.openScope config)
      (Session.start d.openScope config) := by
  have hposition : d.position = c.position := by rw [hd.position, hc.position]
  have hwithin := (Cursor.Extends.refl hc.inBounds).position_within hc.inBounds
  have hwithin' := (Cursor.Extends.refl hd.inBounds).position_within hd.inBounds
  refine ⟨?_, ⟨before, rest, rfl, hc.withScopes _, hd.withScopes _⟩, .refl hc.inBounds,
    .refl hd.inBounds, Trail.startsWithin_start hwithin.1 hwithin.2, ?_⟩
  · have hstart : d.openScope.position = c.openScope.position := hposition
    simp only [Session.start, hstart]
  · have hstart : c.openScope.position = d.position := hposition.symm
    rw [Session.start, hstart]
    exact Trail.startsWithin_start hwithin'.1 hwithin'.2

/-- A failure sends both cursors back to where they met. -/
theorem Together.returnTo {hc : c.Shows base before rest} {hd : d.Shows base before rest}
    (h : Together (.ofInvocations hc hd) s t) :
    s.cursor.closeScope.returnTo c.position = .ok { s.cursor.closeScope with index := c.index } ∧
      t.cursor.closeScope.returnTo d.position = .ok { t.cursor.closeScope with index := d.index } ∧
      StayAbreast base (before ++ rest) c d { s.cursor.closeScope with index := c.index }
        { t.cursor.closeScope with index := d.index } := by
  obtain ⟨before', rest', htext, hs, ht⟩ := h.abreast
  have hfirst : c.Extends s.cursor.closeScope := h.first.closeScope
  have hsecond : d.Extends t.cursor.closeScope := h.second.closeScope
  refine ⟨hfirst.returnTo hc.inBounds, hsecond.returnTo hd.inBounds,
    ⟨before, rest, rfl, ?_, ?_⟩, hfirst.withIndex ?_, hsecond.withIndex ?_⟩
  · exact hc.back (hs.withScopes _) hfirst htext.symm
  · exact hd.back (ht.withScopes _) hsecond htext.symm
  · exact Nat.le_trans hc.inBounds hfirst.buffered_le
  · exact Nat.le_trans hd.inBounds hsecond.buffered_le

end

/-- Invocations at cursors that stand abreast end alike, and the cursors stay abreast. -/
theorem agree_invoke_of_abreast (config : Config) (hxy : ∀ b, sameText.Alike b Eq x y)
    (h : Cursor.Abreast base text c d) :
    AgreeAbreast base text c d (Reading.invoke config x c) (Reading.invoke config y d) := by
  obtain ⟨before, rest, rfl, hc, hd⟩ := h
  have hagree := hxy _ _ _ (together_start hc hd config)
  rw [invoke_eq, invoke_eq]
  generalize outcome x (Session.start c.openScope config) = o,
    outcome y (Session.start d.openScope config) = p at hagree ⊢
  rcases hagree with _ | ⟨rfl | rfl, hend⟩
  · exact .halt trivial
  · next s t v =>
    -- A match leaves the cursors abreast.
    obtain ⟨before', rest', htext', hs, ht⟩ := hend.abreast
    exact .done rfl ⟨⟨before', rest', htext', hs.withScopes _, ht.withScopes _⟩,
      hend.first.closeScope, hend.second.closeScope⟩
  · next s t f =>
    -- After a failure the error is made where they met.
    obtain ⟨hreturn, hreturn', hback⟩ := hend.returnTo
    have htrail : t.trail = s.trail := by rw [hend.eq]
    simp only [hreturn, hreturn', htrail]
    have herror := agree_errorOf_of_abreast f hback hend.firstKept hend.secondKept
    generalize Reading.errorOf s.trail f { s.cursor.closeScope with index := c.index } = told,
      Reading.errorOf s.trail f { t.cursor.closeScope with index := d.index } = told'
      at herror ⊢
    rcases herror with _ | ⟨rfl, hstay⟩
    · exact .halt trivial
    · exact .done rfl hstay

/-- Parses at cursors that stand abreast answer alike. -/
theorem agree_parse_of_abreast (config : Config) (hxy : ∀ b, sameText.Alike b Eq x y)
    (h : Cursor.Abreast base text c d) :
    Agree (fun _ => True) Eq
      (fun c' d' => Cursor.Abreast base text c' d' ∧ c'.scopes = c.scopes ∧ d'.scopes = d.scopes ∧
        (c.origin = d.origin → c.scopes = d.scopes → c'.origin = d'.origin))
      (Reading.parse config x c) (Reading.parse config y d) := by
  have hagree := agree_invoke_of_abreast config hxy h
  rw [parse_eq, parse_eq]
  generalize Reading.invoke config x c = o, Reading.invoke config y d = p at hagree ⊢
  rcases hagree with _ | ⟨rfl, hstay⟩
  · exact .halt trivial
  · obtain ⟨before, rest, htext, hc, hd⟩ := hstay.abreast
    refine .done rfl ⟨⟨before, rest, htext, hc.release, hd.release⟩, ?_, ?_, fun horigin hscopes => ?_⟩
    · rw [Cursor.release_scopes, hstay.first.scopes]
    · rw [Cursor.release_scopes, hstay.second.scopes]
    · refine Cursor.release_origin_eq hc hd ?_ ?_
      · rw [hstay.first.origin, hstay.second.origin, horigin]
      · rw [hstay.first.scopes, hstay.second.scopes, hscopes]

/-- So do parses that only look ahead. -/
theorem agree_parseAhead_of_abreast (hxy : ∀ b, sameText.Alike b Eq x y)
    (h : Cursor.Abreast base text c d) :
    AgreeAbreast base text c d (Reading.parseAhead x c) (Reading.parseAhead y d) := by
  have hagree := agree_invoke_of_abreast {} hxy h
  obtain ⟨before, rest, htext, hc, hd⟩ := h
  rw [parseAhead_eq, parseAhead_eq]
  generalize Reading.invoke {} x c = o, Reading.invoke {} y d = p at hagree ⊢
  rcases hagree with _ | ⟨rfl, hstay⟩
  · exact .halt trivial
  · obtain ⟨before', rest', htext', hc', hd'⟩ := hstay.abreast
    simp only [hstay.first.returnTo hc.inBounds, hstay.second.returnTo hd.inBounds]
    refine .done rfl ⟨⟨before, rest, htext, ?_, ?_⟩, ?_, ?_⟩
    · exact hc.back hc' hstay.first (htext'.symm.trans htext)
    · exact hd.back hd' hstay.second (htext'.symm.trans htext)
    · exact hstay.first.withIndex (Nat.le_trans hc.inBounds hstay.first.buffered_le)
    · exact hstay.second.withIndex (Nat.le_trans hd.inBounds hstay.second.buffered_le)

end ParseTrail
