import ParseTrail.Proofs.Cursor.View
import ParseTrail.Proofs.Meaning.Runs
import ParseTrail.Proofs.Session.Likeness
import ParseTrail.Proofs.Session.Outcome

/-!
# Sessions and meaning

A session whose cursor shows a text runs a parser just as a list of the characters ahead does, so it
comes to what the parser means. Everything else in the session, how the text is kept, what was
attempted and how it was labelled, is of no consequence:

- `reads_simulation`: the session and the list simulate each other;
- `run_tallies_with_meaning`: what a run gives is what the parser means, wherever one of them is
  defined.
-/

namespace ParseTrail

/-- An offset into a text that lies at `base`, and what remains of the text there. -/
def Stands (base : Nat) (text : List Char) (offset : Nat) (place : List Char) : Prop :=
  ∃ before, text = before ++ place ∧ offset = base + Text.byteLength before

/-- A failure and a refusal are equally committed and stand at the same place. -/
inductive FailsAt (base : Nat) (text : List Char) : Failure → Refusal → Prop
  | expected {e : Expectation} {place : List Char} :
    Stands base text e.offset place → FailsAt base text (.expected e) ⟨false, place⟩
  | committed {e : Expectation} {place : List Char} :
    Stands base text e.offset place → FailsAt base text (.committed e) ⟨true, place⟩

/-- A cursor in a text that lies at `base`. -/
structure Viewpoint (base : Nat) (text : List Char) where
  /-- The text before the cursor. -/
  before : List Char
  /-- The text after it. -/
  rest : List Char
  /-- The cursor. -/
  cursor : Cursor
  whole : text = before ++ rest
  shows : cursor.Shows base before rest

/-- A session without a limit of depth whose cursor shows what remains on the list. It has come from
the viewpoint without losing text. -/
structure Reads (base : Nat) (text : List Char) (b : Viewpoint base text) (s : Session)
    (input : List Char) : Prop where
  unlimited : s.maxDepth = 0
  since : b.cursor.Extends s.cursor
  shows : ∃ before, text = before ++ input ∧ s.cursor.Shows base before input

/-- Sessions and the lists of what remains ahead correspond. -/
def reading (base : Nat) (text : List Char) :
    Likeness (Viewpoint base text) Session (List Char) Failure Refusal where
  states := Reads base text
  failures := FailsAt base text
  halts _ := True

variable {base : Nat} {text : List Char} {b : Viewpoint base text} {s : Session}
  {input : List Char} {β γ : Type} {x : Action β} {y : Matching β}

/-- The viewpoint stands at what remains there. -/
def Viewpoint.Marks (b : Viewpoint base text) (offset : Nat) (place : List Char) : Prop :=
  offset = b.cursor.position ∧ place = b.rest

/-- A mark tells where a place is in the text. -/
theorem Viewpoint.Marks.stands {offset : Nat} {place : List Char} (h : b.Marks offset place) :
    Stands base text offset place := by
  obtain ⟨rfl, rfl⟩ := h
  exact ⟨b.before, b.whole, b.shows.position⟩

namespace Reads

/-- A change to a session that leaves its cursor and its limit alone. -/
theorem of_cursor_eq (h : Reads base text b s input) {t : Session} (hcursor : t.cursor = s.cursor)
    (hdepth : t.maxDepth = s.maxDepth) : Reads base text b t input where
  unlimited := hdepth.trans h.unlimited
  since := hcursor ▸ h.since
  shows := hcursor ▸ h.shows

/-- The viewpoint moves to where the session is now. -/
theorem narrow (h : Reads base text b s input) :
    ∃ b' : Viewpoint base text, Reads base text b' s input ∧ b'.Marks s.cursor.position input ∧
      ∀ t place, Reads base text b' t place → Reads base text b t place := by
  obtain ⟨before, hwhole, hshows⟩ := h.shows
  refine ⟨⟨before, input, s.cursor, hwhole, hshows⟩,
    ⟨h.unlimited, .refl hshows.inBounds, before, hwhole, hshows⟩, ⟨rfl, rfl⟩, ?_⟩
  intro t place ht
  exact ⟨ht.unlimited, h.since.trans ht.since, ht.shows⟩

/-- Going back to the viewpoint. -/
theorem returnTo (h : Reads base text b s input) :
    ∃ d, s.cursor.returnTo b.cursor.position = .ok d ∧
      Reads base text b { s with cursor := d } b.rest := by
  obtain ⟨before, hwhole, hshows⟩ := h.shows
  have hbounds := b.shows.inBounds
  refine ⟨_, h.since.returnTo hbounds, h.unlimited,
    h.since.withIndex (Nat.le_trans hbounds h.since.buffered_le), b.before, b.whole, ?_⟩
  exact b.shows.back hshows h.since (hwhole.symm.trans b.whole)

end Reads

/-! ### Primitive actions -/

/-- An operation of the cursor that answers from the text ahead and moves over a part of it. -/
theorem alike_ask_of_moves (r : Cursor.Request) (hr : r ≠ .release) (ofReply : r.Reply → Action β)
    (answer : List Char → β) (moved : List Char → Nat)
    (h : ∀ {before rest} {c : Cursor}, c.Shows base before rest →
      ∃ reply d, c.perform r = .ok (reply, d) ∧ ofReply reply = pure (answer rest) ∧
        d.Shows base (before ++ rest.take (moved rest)) (rest.drop (moved rest))) :
    (reading base text).Alike b Eq (Action.ask r >>= ofReply)
      (do let input ← get; set (input.drop (moved input)); return answer input : Matching β) := by
  intro s input hst
  obtain ⟨before, hwhole, hshows⟩ := hst.shows
  obtain ⟨reply, d, hd, hreply, hdshows⟩ := h hshows
  rw [outcome_bind, outcome_ask, hd]
  simp only [hreply]
  refine .done (.ok rfl) ⟨hst.unlimited, hst.since.trans (.perform_of_ne hshows.inBounds hr hd),
    _, ?_, hdshows⟩
  rw [hwhole, List.append_assoc, List.take_append_drop]

/-- Both sides ask for the present place, and go on from a viewpoint there. -/
theorem alike_here {V : β → γ → Prop} {f : Nat → Action β} {k : List Char → Matching γ}
    (hfk : ∀ b' m n, Viewpoint.Marks b' m n → (reading base text).Alike b' V (f m) (k n)) :
    (reading base text).Alike b V (Action.position >>= f) (listEngine.here >>= k) := by
  intro s input hst
  obtain ⟨b', hst', hmarks, hback⟩ := Reads.narrow hst
  apply (hfk b' _ _ hmarks s input hst').mono
  · intro _ _ hresults
    exact hresults
  · exact hback

/-- Going back to a mark is going back to what remained there. -/
theorem alike_returnTo {offset : Nat} {place : List Char} (h : b.Marks offset place) :
    (reading base text).Alike b Eq (Action.returnTo offset) (listEngine.returnTo place) := by
  intro s input hst
  obtain ⟨rfl, rfl⟩ := h
  obtain ⟨d, hd, hback⟩ := Reads.returnTo hst
  rw [outcome_returnTo, hd]
  exact .done (.ok rfl) hback

/-- A rejection at a mark is a refusal of what remained there. -/
theorem alike_reject {offset : Nat} {place : List Char} (label : String)
    (h : b.Marks offset place) :
    (reading base text).Alike b Eq (do throw (← Action.reject offset label) : Action β)
      (listEngine.reject place label) := by
  intro s input hst
  rw [outcome_bind, outcome_reject]
  exact .done (.error (.expected h.stands)) (hst.of_cursor_eq rfl rfl)

/-! ### Absorbing failures and recording attempts -/

/-- Failures are absorbed on both sides. -/
theorem alike_recover (hxy : (reading base text).Alike b Eq x y) :
    (reading base text).Alike b Eq (Action.recover x) (listEngine.recover y) := by
  refine hxy.attempt.bind fun r r' hr => ?_
  rcases hr with rfl | hf
  · exact .pure rfl
  · rcases hf with hat | hat
    · exact .pure rfl
    · exact .throw (.committed hat)

/-- They are committed on both sides. -/
theorem alike_cut (hxy : (reading base text).Alike b Eq x y) :
    (reading base text).Alike b Eq (Action.cut x) (listEngine.cut y) := by
  refine hxy.attempt.bind fun r r' hr => ?_
  rcases hr with rfl | hf
  · exact .pure rfl
  · rcases hf with hat | hat
    · exact .throw (.committed hat)
    · exact .throw (.committed hat)

/-- After a look ahead both sides go back. -/
theorem alike_lookahead (hxy : ∀ b, (reading base text).Alike b Eq x y) :
    (reading base text).Alike b Eq (Action.lookahead x) (listEngine.lookahead y) := by
  refine alike_here fun b' m n hmarks => (hxy b').attempt.bind fun r r' hr => ?_
  refine (alike_returnTo hmarks).bindEq fun _ => ?_
  rcases hr with rfl | hf
  · exact .pure rfl
  · exact .throw hf

/-- Recording an attempt changes nothing for the list, except that a failure goes back. -/
theorem alike_recorded (label : String) (shape : Shape)
    (hxy : ∀ b, (reading base text).Alike b Eq x y) :
    (reading base text).Alike b Eq (Action.recorded label shape x)
      (listEngine.recorded label shape y) := by
  refine alike_here fun b' m n hmarks => ?_
  -- Entering an attempt fails only past a limit of depth, and there is none.
  refine Likeness.Alike.after (fun s input hst => ?_) fun id => ?_
  · have hdeep : ¬(s.maxDepth ≠ 0 ∧ s.depth ≥ s.maxDepth) := fun h => h.1 hst.unlimited
    rw [outcome_enter, if_neg hdeep]
    exact ⟨_, _, rfl, hst.of_cursor_eq rfl rfl⟩
  refine (hxy b').attempt.bind fun r r' hr => ?_
  refine Likeness.Alike.after (fun s input hst => ⟨_, _, outcome_position s, hst⟩) fun stop => ?_
  have hleave (failed : Bool) (s : Session) (input : List Char) (hst : Reads base text b' s input) :
      ∃ v s', outcome (Action.leave id stop failed shape) s = .ok (.ok v, s') ∧
        Reads base text b' s' input :=
    ⟨_, _, outcome_leave s id stop failed shape, hst.of_cursor_eq rfl rfl⟩
  rcases hr with rfl | hf
  · exact Likeness.Alike.after (hleave false) fun _ => .pure rfl
  · refine (alike_returnTo hmarks).bindEq fun _ => ?_
    exact Likeness.Alike.after (hleave true) fun _ => .throw hf

/-! ### Parsers -/

/-- Sessions and lists simulate each other. -/
theorem reads_simulation (base : Nat) (text : List Char) :
    Engine.Simulation sessionEngine listEngine (@Viewpoint.Marks base text)
      (fun b _ x y => (reading base text).Alike b Eq x y) where
  pure _ := .pure rfl
  bind := Likeness.Alike.bindEq
  map f h := h.map fun _ _ hvw => hvw ▸ rfl
  here := alike_here
  returnTo := alike_returnTo
  read n := alike_ask_of_moves (.read n) (by simp) _ (fun rest => rest.take n) (fun _ => n)
    fun h => by
      obtain ⟨d, hd, hshows⟩ := h.read n
      exact ⟨_, d, hd, rfl, hshows⟩
  readChar := alike_ask_of_moves .readChar (by simp) _ (fun rest => rest.head?) (fun _ => 1)
    fun h => by
      obtain ⟨d, hd, hshows⟩ := h.readChar
      exact ⟨_, d, hd, rfl, hshows⟩
  -- To look ahead is to move over no characters.
  peek n := alike_ask_of_moves (.peek n) (by simp) _ (fun rest => rest.take n) (fun _ => 0)
    fun h => by
      obtain ⟨d, hd, hshows⟩ := h.peek n
      refine ⟨_, d, hd, rfl, ?_⟩
      rw [List.take_zero, List.append_nil, List.drop_zero]
      exact hshows
  atEnd := alike_ask_of_moves .atEnd (by simp) _ (fun rest => rest.isEmpty) (fun _ => 0)
    fun h => by
      obtain ⟨d, hd, hshows⟩ := h.atEnd
      refine ⟨_, d, congrArg Except.ok hd, rfl, ?_⟩
      rw [List.take_zero, List.append_nil, List.drop_zero]
      exact hshows
  expected _ hmarks := .throw (.expected hmarks.stands)
  expectedFound _ _ hmarks := .throw (.expected hmarks.stands)
  reject reason hmarks := alike_reject reason hmarks
  outOfFuel := .halt trivial
  limitExceeded := .halt trivial
  rulePending := .halt trivial
  ruleDropped := .halt trivial
  recover := alike_recover
  cut := alike_cut
  lookahead := alike_lookahead

/-- Running a parser in a session is alike to running it on the list of what remains ahead. -/
theorem alike_matchList {α : Type} (g : Grammar Empty α) (fuel : Nat) (p : Parser Empty α)
    (b : Viewpoint base text) :
    (reading base text).Alike b Eq (p.run g fuel) (matchList g.rules fuel p) := by
  rw [← run_sessionEngine]
  exact (reads_simulation base text).run
    (fun label shape _ _ hxy _ => alike_recorded label shape hxy)
    (fun _ _ _ key => key.elim) fuel p b

/-! ### Meaning -/

/-- What a run gives, and the offset of the cursor after it, tally with a verdict: values are the
same, and both end at the same place; failures are equally committed and stand at the same place. -/
inductive Tallies (base : Nat) (text : List Char) :
    Verdict β → Except Failure β → Nat → Prop
  | matched {v : β} {rest : List Char} {stop : Nat} :
    Stands base text stop rest → Tallies base text (.matched v rest) (.ok v) stop
  | refused {f : Failure} {committed : Bool} {place : List Char} {stop : Nat} :
    FailsAt base text f ⟨committed, place⟩ →
      Tallies base text (.refused committed place) (.error f) stop

/-- Outcomes that agree tally, if either of them is not a halt. -/
theorem tallies_of_agree {o : Except Halt (Except Failure β × Session)}
    {q : Except Halt (Except Refusal β × List Char)}
    (h : Agree (fun _ => True) (Results (FailsAt base text) Eq) (Reads base text b) o q) :
    (∀ r t, o = .ok (r, t) →
      ∃ v, Verdict.ofOutcome q = some v ∧ Tallies base text v r t.cursor.position) ∧
    ∀ v, Verdict.ofOutcome q = some v →
      ∃ r t, o = .ok (r, t) ∧ Tallies base text v r t.cursor.position := by
  rcases h with _ | @⟨r, r', t, after, hresults, hst⟩
  · exact ⟨by rintro _ _ ⟨⟩, by rintro _ ⟨⟩⟩
  · obtain ⟨before, hwhole, hshows⟩ := hst.shows
    -- Whatever the list comes to, the session tallies with it.
    obtain ⟨v, hv, htally⟩ : ∃ v, Verdict.ofOutcome (.ok (r', after)) = some v ∧
        Tallies base text v r t.cursor.position := by
      rcases hresults with rfl | hf
      · exact ⟨_, rfl, .matched ⟨before, hwhole, hshows.position⟩⟩
      · exact ⟨_, rfl, .refused hf⟩
    constructor
    · rintro _ _ ⟨⟩
      exact ⟨v, hv, htally⟩
    · intro w hw
      rw [hv, Option.some.injEq] at hw
      exact ⟨r, t, rfl, hw ▸ htally⟩

/-- A session without a limit reads what its cursor shows. -/
theorem Cursor.Shows.reads {before : List Char} (hshows : s.cursor.Shows base before input)
    (hdepth : s.maxDepth = 0) :
    Reads base (before ++ input) ⟨before, input, s.cursor, rfl, hshows⟩ s input :=
  ⟨hdepth, .refl hshows.inBounds, before, rfl, hshows⟩

/-- If a run ends with a value or a failure, that is what the parser means. -/
theorem Parser.means_of_run {α : Type} {g : Grammar Empty α} {fuel : Nat} {p : Parser Empty α}
    {before : List Char} {r : Except Failure (Value α)} {t : Session}
    (hshows : s.cursor.Shows base before input) (hdepth : s.maxDepth = 0)
    (hrun : outcome (p.run g fuel) s = .ok (r, t)) :
    ∃ o, Means g.rules p.matcher input o ∧
      Tallies base (before ++ input) o r t.cursor.position := by
  have hagree := alike_matchList g fuel p _ s input (hshows.reads hdepth)
  obtain ⟨o, hverdict, htally⟩ := (tallies_of_agree hagree).1 r t hrun
  exact ⟨o, Parser.means_of_verdict hverdict, htally⟩

/-- If a parser means something, every run with enough fuel ends with that. -/
theorem Parser.run_of_means {α : Type} {g : Grammar Empty α} {p : Parser Empty α}
    {before : List Char} {o : Verdict (Value α)} (hshows : s.cursor.Shows base before input)
    (hdepth : s.maxDepth = 0) (ho : Means g.rules p.matcher input o) :
    ∃ enough, ∀ fuel, enough ≤ fuel → ∃ r t, outcome (p.run g fuel) s = .ok (r, t) ∧
      Tallies base (before ++ input) o r t.cursor.position := by
  obtain ⟨enough, hverdict⟩ := Parser.verdict_of_means ho
  refine ⟨enough, fun fuel hfuel => ?_⟩
  have hagree := alike_matchList g fuel p _ s input (hshows.reads hdepth)
  exact (tallies_of_agree hagree).2 o (hverdict fuel hfuel)

/-- Some run of a parser ends with a value or a failure just if the parser means something. -/
theorem Parser.exists_run_iff {α : Type} {g : Grammar Empty α} {p : Parser Empty α}
    {before : List Char} (hshows : s.cursor.Shows base before input) (hdepth : s.maxDepth = 0) :
    (∃ fuel e, outcome (p.run g fuel) s = .ok e) ↔ ∃ o, Means g.rules p.matcher input o := by
  constructor
  · rintro ⟨fuel, ⟨r, t⟩, hrun⟩
    obtain ⟨o, ho, -⟩ := Parser.means_of_run hshows hdepth hrun
    exact ⟨o, ho⟩
  · rintro ⟨o, ho⟩
    obtain ⟨enough, hends⟩ := Parser.run_of_means hshows hdepth ho
    obtain ⟨r, t, hrun, -⟩ := hends enough (Nat.le_refl _)
    exact ⟨enough, (r, t), hrun⟩

/-- A run of a parser gives what the parser means. Wherever the cursor of a session stands, whether
in a text or in a source that is still being read: if the run ends with a value or a failure, then
the parser means just that in front of the characters that remain, and with enough fuel every run
ends so if the parser means anything there. A parser means one thing at most. -/
theorem run_tallies_with_meaning {α : Type} (g : Grammar Empty α) (p : Parser Empty α) (s : Session)
    {base : Nat} {before input : List Char} (hshows : s.cursor.Shows base before input)
    (hdepth : s.maxDepth = 0) :
    (∀ fuel r t, outcome (p.run g fuel) s = .ok (r, t) →
      ∃ o, Means g.rules p.matcher input o ∧
        Tallies base (before ++ input) o r t.cursor.position) ∧
    (∀ o, Means g.rules p.matcher input o →
      ∃ enough, ∀ fuel, enough ≤ fuel → ∃ r t, outcome (p.run g fuel) s = .ok (r, t) ∧
        Tallies base (before ++ input) o r t.cursor.position) ∧
    ∀ o o', Means g.rules p.matcher input o → Means g.rules p.matcher input o' → o = o' := by
  refine ⟨fun fuel r t hrun => ?_, fun o ho => ?_, fun o o' ho ho' => ?_⟩
  · exact Parser.means_of_run hshows hdepth hrun
  · exact Parser.run_of_means hshows hdepth ho
  · exact ho.unique ho'

/-- Brackets around brackets, or around nothing. -/
def nested : Grammar Empty Unit where
  rules _ := .defined (.between (.literal "(") (.literal ")") (.optional (.rule 0)))
  procedures := Empty.elim

/-- Brackets in brackets after another character: the run gives what follows from the rules. -/
theorem run_tallies_with_meaning_nested :
    ∃ s : Session, s.cursor.Shows 0 ['x'] ['(', '(', ')', ')', 'y'] ∧ s.maxDepth = 0 ∧
      ∃ fuel r t, outcome ((Parser.rule 0).run nested fuel) s = .ok (r, t) ∧
        Tallies 0 ['x', '(', '(', ')', ')', 'y'] (.matched (.present .absent) ['y']) r
          t.cursor.position := by
  have hopen (rest : List Char) :
      Means nested.rules (.literal "(") ('(' :: rest) (.matched (.text "(") rest) := .literal
  have hclose (rest : List Char) :
      Means nested.rules (.literal ")") (')' :: rest) (.matched (.text ")") rest) := .literal
  have hpair {v : Value Unit} {input rest : List Char}
      (h : Means nested.rules (.optional (.rule 0)) input (.matched v (')' :: rest))) :
      Means nested.rules (.rule 0) ('(' :: input) (.matched v rest) := by
    have hrest := Means.before (q := .literal ")") (p := .optional (.rule 0)) h (hclose rest)
    exact .rule rfl (.between (hopen input) hrest)
  have hnone : Means nested.rules (.rule 0) [')', ')', 'y'] (.refused false [')', ')', 'y']) :=
    .rule rfl (.between_refused (.literal_refused (by decide)))
  have houter : Means nested.rules (.rule 0) ['(', '(', ')', ')', 'y']
      (.matched (.present .absent) ['y']) :=
    hpair (.optional (hpair (.optional_absent hnone)))
  have hshows := Cursor.shows_between ['x'] ['(', '(', ')', ')', 'y']
  obtain ⟨enough, hrun⟩ := (run_tallies_with_meaning nested (.rule 0) (Session.start _ {}) hshows
    rfl).2.1 _ houter
  exact ⟨_, hshows, rfl, enough, hrun enough (Nat.le_refl _)⟩

end ParseTrail
