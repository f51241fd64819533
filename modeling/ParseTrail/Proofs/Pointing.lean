import ParseTrail.Proofs.Positions
import ParseTrail.Proofs.Session.Boundaries
import ParseTrail.Proofs.Session.Mismatch

/-!
# Where a report points

A parse fails with an expectation that was not met, at some offset. Its report is about the attempts
that start furthest, and so it points to that offset or past it, if only the attempt that failed
there is still within reach. Attempts are taken off the trail on the way: those of parsers that only
pass others on, and those made for digits, numbers and blanks.

- `Parser.Ordinary`: parsers from the catalog whose attempts are left as the catalog has them;
- `traced_run`: every mismatch of such a parser is on record when its run ends;
- `report_points_no_earlier`: a failed parse is reported at or past the offset of its expectation.
-/

namespace ParseTrail

open ParseTrail.Action (Accounts Points Traced)

variable {κ α β : Type}

/-! ### Parsers from the catalog -/

/-- A parser put together from the catalog. Its author may give labels and anchors, but which
attempts are dissolved or dropped is as the catalog has it. -/
inductive Parser.Ordinary : Parser κ α → Prop
  | matcher {m : Matcher κ α} : (∀ q ∈ m.parts, q.Ordinary) → m.toParser.Ordinary
  | labelled {p : Parser κ α} (label : String) : p.Ordinary → (p.withLabel label).Ordinary
  | anchored {p : Parser κ α} : p.Ordinary → p.anchored.Ordinary
  | digits : Parser.digits.Ordinary
  | decimal : Parser.decimal.Ordinary
  | whitespace : Parser.whitespace.Ordinary
  | whitespace1 : Parser.whitespace1.Ordinary
  | self (key : Nat) : (Parser.self key).Ordinary
  | recursive (key : Nat) {body : Parser κ α} :
    body.Ordinary → (Parser.recursive key body).Ordinary

/-- A matcher whose mismatches are all where it starts: it repeats one character or converts what it
matches. -/
inductive Matcher.MissesAtStart : Matcher κ α → Prop
  | satisfy {label : String} {condition : Char → Bool} :
    (Matcher.satisfy label condition).MissesAtStart
  | many {q : Parser κ α} : q.matcher.MissesAtStart → (Matcher.many q).MissesAtStart
  | many1 {q : Parser κ α} : q.matcher.MissesAtStart → (Matcher.many1 q).MissesAtStart
  | map {q : Parser κ α} {f : Value α → Value α} :
    q.matcher.MissesAtStart → (Matcher.map f q).MissesAtStart
  | tryMap {q : Parser κ α} {f : Value α → Except String (Value α)} :
    q.matcher.MissesAtStart → (Matcher.tryMap f q).MissesAtStart

namespace Parser

variable {p q : Parser κ α}

namespace Ordinary

/-- What is made of no other parsers is ordinary. -/
theorem noParts {m : Matcher κ α} (h : m.parts = []) : m.toParser.Ordinary :=
  .matcher fun q hq => by rw [h] at hq; cases hq

/-- So is a character of a class. -/
theorem charOf (cls : CharClass) : (Parser.charOf cls : Parser κ α).Ordinary :=
  noParts rfl

/-- So is what is made of one ordinary parser. -/
theorem of_part {m : Matcher κ α} (h : m.parts = [q]) (hq : q.Ordinary) : m.toParser.Ordinary :=
  .matcher fun r hr => by rw [h] at hr; exact List.mem_singleton.mp hr ▸ hq

/-- What an ordinary parser is made of is ordinary. -/
theorem part (h : p.Ordinary) (hq : q ∈ p.matcher.parts) : q.Ordinary := by
  induction h with
  | matcher hparts _ => exact hparts q hq
  | labelled label _ ih => exact ih (matcher_withLabel label _ ▸ hq)
  | anchored _ ih => exact ih (matcher_reshape _ _ ▸ hq)
  | digits => exact List.mem_singleton.mp hq ▸ .of_part rfl (.charOf .digit)
  | decimal => exact List.mem_singleton.mp hq ▸ .digits
  | whitespace => exact List.mem_singleton.mp hq ▸ .of_part rfl (.charOf .space)
  | whitespace1 => exact List.mem_singleton.mp hq ▸ .of_part rfl (.charOf .space)
  | self key => cases hq
  | recursive key _ _ => cases hq

/-- Only what passes on the parsers it is made of is dissolved, and nothing dissolves the attempts
around it. -/
theorem plain (h : p.Ordinary) : p.Plain := by
  induction h with
  | matcher _ _ => exact ⟨⟨rfl, fun _ => rfl⟩, id⟩
  | @labelled p label _ ih =>
    cases p
    exact ⟨⟨ih.shape.dissolveOuter, fun hdissolve => nomatch hdissolve⟩,
      fun hdissolve => nomatch hdissolve⟩
  | @anchored p _ ih =>
    cases p
    exact ⟨⟨ih.shape.dissolveOuter, ih.shape.leaf⟩, ih.dissolves⟩
  | digits | decimal | whitespace | whitespace1 =>
    exact ⟨⟨rfl, fun hdissolve => nomatch hdissolve⟩, fun hdissolve => nomatch hdissolve⟩
  | self key => exact ⟨⟨rfl, fun _ => rfl⟩, id⟩
  | recursive key _ _ => exact ⟨⟨rfl, fun _ => rfl⟩, id⟩

/-- Only what misses at its start drops the attempts made for it. -/
theorem missesAtStart (h : p.Ordinary) (hleaf : p.shape.leaf) : p.matcher.MissesAtStart := by
  induction h with
  | matcher _ _ => cases hleaf
  | @labelled p label _ ih =>
    cases p
    exact ih hleaf
  | @anchored p _ ih =>
    cases p
    exact ih hleaf
  | digits | whitespace1 => exact .map (.many1 .satisfy)
  | decimal => exact .tryMap (.map (.many1 .satisfy))
  | whitespace => exact .map (.many .satisfy)
  | self key => cases hleaf
  | recursive key _ _ => cases hleaf

end Ordinary

end Parser

section

variable {g : Grammar Empty α} {p : Parser Empty α} {c d : Cursor} {diag : Diagnosis}

/-! ### Mismatches of parsers -/

/-- To record a parser does not change where it misses. -/
theorem missesAtStart_run {fuel : Nat}
    (hp : ∀ fuel, Action.MissesAtStart (p.matcher.perform g (Parser.run g fuel) fuel)) :
    Action.MissesAtStart (p.run g fuel) := by
  cases fuel with
  | zero => exact .of_misses (.halt _)
  | succ fuel => exact (hp fuel).recorded p.label p.shape

/-- What is made of no parsers misses where it starts. -/
theorem missesAtStart_perform {m : Matcher Empty α} (h : m.MissesAtStart) (fuel : Nat) :
    Action.MissesAtStart (m.perform g (Parser.run g fuel) fuel) := by
  induction h generalizing fuel with
  | satisfy => exact (missesAtStart_satisfy _ _).map _
  | many _ ih => exact .of_misses ((misses_many (missesAtStart_run ih) fuel []).map _)
  | many1 _ ih =>
    have hitem : Action.MissesAtStart (Parser.run g fuel _) := missesAtStart_run ih
    exact hitem.bind fun first => (misses_many hitem fuel [first]).map _
  | map _ ih => exact (missesAtStart_run ih).map _
  | tryMap _ ih => exact (missesAtStart_run ih).tryMap _

/-- The mismatches of what a matcher does are on record, if those of the parsers are that it is made
of, or they are where it starts. A matcher that is replaced by its parts leaves it to them. -/
theorem points_perform {run : Parser Empty α → Action (Value α)} (m : Matcher Empty α)
    (hparts : ∀ q ∈ m.parts, Traced (run q))
    (hrules : ∀ key q, m = .rule key → g.rules key = .defined q → Traced (run q)) (fuel : Nat) :
    Points m.dissolves (m.perform g run fuel) := by
  -- A matcher that is not dissolved may miss where it starts, as its own attempt starts there.
  have hall {β : Type} {owes : Prop} {x : Action β} (hx : Points True x) : Points owes x :=
    hx.mono fun _ => trivial
  have hstays {β : Type} {x : Action β} (hx : Points False x) : Points (false = true) x :=
    hx.mono fun h => nomatch h
  cases m with
  | literal text =>
    exact hstays (.of_missesAtStart ((missesAtStart_literal text).bind fun _ => .pure _))
  | satisfy label condition =>
    exact hstays (.of_missesAtStart ((missesAtStart_satisfy label condition).map _))
  | ending =>
    exact hstays (.of_missesAtStart ((missesAtStart_ending _).bind fun _ => .pure _))
  | succeed v => exact .pure v
  | refuse label => exact hstays (.of_missesAtStart (.here fun _ => .throw rfl))
  | many p =>
    have hp := hparts p (by simp [Matcher.parts])
    exact hall ((points_many hp fuel []).map _)
  | many1 p =>
    have hp := hparts p (by simp [Matcher.parts])
    exact hall (hp.bind fun first => (points_many hp fuel [first]).map _)
  | times n p => exact hall ((points_times (hparts p (by simp [Matcher.parts])) n).map _)
  | optional p =>
    have hp := hparts p (by simp [Matcher.parts])
    refine hall (hp.recover_bind fun found => ?_)
    cases found with
    | none => exact .pure _
    | some v => exact .pure _
  | sepBy p separator =>
    have hp := hparts p (by simp [Matcher.parts])
    have hseparator := hparts separator (by simp [Matcher.parts])
    exact hall ((points_sepBy hp hseparator fuel).map _)
  | sepBy1 p separator =>
    have hp := hparts p (by simp [Matcher.parts])
    have hseparator := hparts separator (by simp [Matcher.parts])
    exact hall (hp.bind fun first => (points_sepTail hp hseparator fuel [first]).map _)
  | choice arms =>
    refine hstays (points_firstOf _ fun x hx => ?_)
    obtain ⟨arm, harm, rfl⟩ := List.mem_map.mp hx
    exact hparts arm harm
  | cut p => exact hall (hparts p (by simp [Matcher.parts])).points.cut
  | between opening closing p =>
    have hopening := hparts opening (by simp [Matcher.parts])
    have hclosing := hparts closing (by simp [Matcher.parts])
    have hp := hparts p (by simp [Matcher.parts])
    exact hall (hopening.bind fun _ => hp.bind fun _ => hclosing.bind fun _ => .pure _)
  | lookahead p => exact hall (hparts p (by simp [Matcher.parts])).points.lookahead
  | butNot p excluded =>
    have hp := hparts p (by simp [Matcher.parts])
    exact hstays (points_butNot _ hp (hparts excluded (by simp [Matcher.parts])))
  | andThen p q =>
    have hq := hparts q (by simp [Matcher.parts])
    exact hall ((hparts p (by simp [Matcher.parts])).bind fun _ => hq.points)
  | before p q =>
    have hq := hparts q (by simp [Matcher.parts])
    exact hall ((hparts p (by simp [Matcher.parts])).bind fun _ => hq.bind fun _ => .pure _)
  | both p q =>
    have hq := hparts q (by simp [Matcher.parts])
    exact hall ((hparts p (by simp [Matcher.parts])).bind fun _ => hq.bind fun _ => .pure _)
  | map f p => exact hall ((hparts p (by simp [Matcher.parts])).points.map f)
  | tryMap f p => exact hall (points_tryMap f (hparts p (by simp [Matcher.parts])))
  | rule key =>
    -- A rule is dissolved, and the parser that it stands for has an attempt of its own.
    simp only [Matcher.perform]
    cases hrule : g.rules key with
    | defined q => exact hall (hrules key q rfl hrule).points
    | pending => exact .halt _
    | dropped => exact .halt _
  | procedure key => exact key.elim

/-- All mismatches of ordinary parsers are on record when their runs end. -/
theorem traced_run (hg : ∀ key q, g.rules key = .defined q → q.Ordinary) (fuel : Nat)
    (hp : p.Ordinary) : Traced (p.run g fuel) := by
  -- By induction on fuel, for all ordinary parsers at once, since a rule may stand for any of them.
  induction fuel generalizing p with
  | zero => exact ⟨.halt _, .halt _, fun _ _ _ ht => nomatch ht⟩
  | succ fuel ih =>
    have hparts : ∀ q ∈ p.matcher.parts, Traced (q.run g fuel) := fun q hq => ih (hp.part hq)
    have haccounts : Accounts False _ (p.matcher.perform g (Parser.run g fuel) fuel) :=
      accounts_perform p.matcher (fun q hq => (hparts q hq).accounts)
        (fun key q _ hq => (ih (hg key q hq)).accounts) False.elim fuel
    exact traced_recorded p.label (haccounts.mono fun h => ⟨h, False.elim⟩)
      (points_perform p.matcher hparts (fun key q _ hq => ih (hg key q hq)) fuel) hp.plain.shape
      hp.plain.dissolves fun hleaf => missesAtStart_perform (hp.missesAtStart hleaf) fuel

/-! ### Reports -/

/-- An invocation of a parser fails with a diagnosis: a parse under some configuration, or a look
ahead, which has the configuration that is given to none. -/
inductive Parser.Fails (g : Grammar Empty α) (fuel : Nat) (p : Parser Empty α) (c : Cursor)
    (diag : Diagnosis) : Config → Prop
  | parse {config : Config} {d : Cursor} :
    (p.parse g fuel config).run c = .ok (.error (.failed diag), d) → Fails g fuel p c diag config
  | lookahead {d : Cursor} :
    (p.parseAhead g fuel).run c = .ok (.error (.failed diag), d) → Fails g fuel p c diag {}

/-- A failed parse or look ahead is an invocation that failed. -/
theorem Parser.Fails.exists_invoke {fuel : Nat} {config : Config}
    (h : p.Fails g fuel c diag config) :
    ∃ d, Reading.invoke config (p.run g fuel) c = .ok (.error (.failed diag), d) := by
  cases h with
  | parse h =>
    obtain ⟨e, hinvoke, -⟩ := exists_invoke_of_parse h
    exact ⟨e, hinvoke⟩
  | lookahead h =>
    obtain ⟨e, hinvoke, -⟩ := exists_invoke_of_parseAhead h
    exact ⟨e, hinvoke⟩

/-- In a new session nothing is recorded before the offset where it starts. -/
theorem position_le_of_stretch {config : Config} {t : Session} {F : Forest} {child x : Nat}
    (hF : (Session.start c config).Stretch t F) (hchild : child ∈ t.trail.children t.current)
    (hx : t.trail.Reaches child x) : c.position ≤ t.trail.startOf x := by
  obtain ⟨ids, hgrows, hholds⟩ := hF.grown.exists_ids
  -- A new trail has a root without children, so all that is below it has grown since.
  have hchildren : t.trail.children t.current = ids :=
    hF.grown.current ▸ (hgrows.children 0 Nat.one_pos).trans rfl
  exact hF.starts _ (hholds.mem_starts_iff.mpr ⟨child, hchildren ▸ hchild, x, hx, rfl⟩)

/-- The furthest start is a boundary of the text, as all starts are. -/
theorem Session.OnBoundaries.furthestStart {base : Nat} {text : List Char} {s : Session}
    (h : s.OnBoundaries base text) (hs : s.Ready) :
    Text.BoundaryFrom base text s.trail.furthestStart := by
  have hsize : 0 < s.trail.size := Nat.lt_of_le_of_lt (Nat.zero_le _) hs.current_lt
  obtain ⟨id, hid, hstart⟩ := Trail.exists_startOf_eq_furthestStart hsize
  have hlt := ((hs.linked.mem_preOrder hsize).mp hid).lt_size hs.linked hsize
  exact hstart ▸ (h.offsets id hlt).1

/-- A report never points before the failure that it is about. A parse or a look ahead fails with a
diagnosis because its run ended with an expectation that was not met. Where all parsers are from the
catalog, labelled and anchored at will, a failed attempt within reach starts where the expectation
is. This is no earlier than where the invocation started and no further than the report points. And
in whatever text the cursor stood, the report points to a character boundary of it. -/
theorem report_points_no_earlier {α : Type} (g : Grammar Empty α)
    (hg : ∀ key q, g.rules key = .defined q → q.Ordinary) (fuel : Nat) (p : Parser Empty α)
    (hp : p.Ordinary) (c : Cursor) (config : Config) (diag : Diagnosis)
    (hdiag : p.Fails g fuel c diag config) :
    ∃ f s e, outcome (p.run g fuel) (Session.start c.openScope config) = .ok (.error f, s) ∧
      f.expectation? = some e ∧ diag.trail = s.trail ∧
      (∃ x ∈ diag.trail.preOrder.tail, (diag.trail.get? x).any (·.failed) ∧
        diag.trail.startOf x = e.offset) ∧
      c.position ≤ e.offset ∧ e.offset ≤ diag.report.furthest ∧
      ∀ base text, c.StandsIn base text → ∃ n, diag.report.furthest = base + n ∧
        Text.isBoundary text n = true ∧ n ≤ Text.byteLength text := by
  obtain ⟨_, hinvoke⟩ := hdiag.exists_invoke
  obtain ⟨f, t, -, line, -, hout, hmismatch, htrail, -, -, hreport⟩ :=
    exists_outcome_of_invoke hinvoke
  obtain ⟨e, he⟩ := Option.isSome_iff_exists.mp hmismatch
  have htraced := traced_run hg fuel hp
  have hready := Session.ready_start c.openScope config
  obtain ⟨F, hF, -⟩ := htraced.accounts _ _ t hready hout hmismatch
  have hlinked := hF.grown.linked
  -- The run is that of a recorded parser, so the failed attempt is below the root.
  obtain ⟨child, hchild, x, hx, hfailed, hstart⟩ : t.HasFailureAt e.offset :=
    htraced.points.hasFailureAt hready hout he
  have hroot : t.current = 0 := hF.grown.current
  have hmem := Trail.mem_preOrder_tail_of_child hlinked (hroot ▸ hchild) hx
  have hfurthest : diag.report.furthest = t.trail.furthestStart :=
    (Report.place_of_ofTrail hreport).1
  refine ⟨f, t, e, hout, he, htrail, ⟨x, htrail ▸ hmem, htrail ▸ hfailed, htrail ▸ hstart⟩, ?_, ?_,
    fun base text hc => ?_⟩
  · rw [← hstart]
    exact position_le_of_stretch (c := c.openScope) hF hchild hx
  · rw [hfurthest, ← hstart]
    exact Trail.startOf_le_furthestStart (List.mem_of_mem_tail hmem)
  · obtain ⟨before, rest, htext, hshows⟩ := hc
    have hopened : c.openScope.StandsIn base text := ⟨before, rest, htext, hshows.withScopes _⟩
    have hend := onBoundaries_run g fuel p (Session.onBoundaries_start hopened config) hout
    rw [hfurthest]
    exact (hend.furthestStart (hF.grown.ready hready)).exists_isBoundary

end

/-- A length in metres. -/
def measured : Parser Empty Unit :=
  (Parser.digits.before (.cut (.literal "m"))).withLabel "length"

/-- The example is ordinary. -/
theorem ordinary_measured : measured.Ordinary := by
  refine .labelled "length" (.matcher fun q hq => ?_)
  simp only [Matcher.parts, List.mem_cons, List.not_mem_nil, or_false] at hq
  rcases hq with rfl | rfl
  · exact .digits
  · exact .of_part rfl (.noParts rfl)

/-- Digits after a letter of two bytes, and another unit: the parse may not go on, and the report
points to the unit. -/
theorem report_points_no_earlier_measured :
    ∃ c diag, Cursor.StandsIn 0 "é12k".toList c ∧ c.position = 2 ∧
      measured.Fails ruleless 6 c diag {} ∧ diag.committed = true ∧ diag.report.furthest = 4 ∧
      ∃ f s e,
        outcome (measured.run ruleless 6) (Session.start c.openScope {}) = .ok (.error f, s) ∧
        f.expectation? = some e ∧ c.position ≤ e.offset ∧ e.offset ≤ 4 ∧
        (∃ x ∈ diag.trail.preOrder.tail, (diag.trail.get? x).any (·.failed) ∧
          diag.trail.startOf x = e.offset) ∧
        Text.isBoundary "é12k".toList 4 = true := by
  have hcursor : Cursor.StandsIn 0 "é12k".toList
      { text := "é".toList ++ "12k".toList, index := Text.byteLength "é".toList } :=
    ⟨_, _, by decide +kernel, Cursor.shows_between _ _⟩
  have hchecked : (diagnosis? ((measured.parse ruleless 6 {}).run
      { text := "é".toList ++ "12k".toList, index := Text.byteLength "é".toList })).map
        (fun diag => (diag.committed, diag.report.furthest)) = some (true, 4) := by
    decide +kernel
  obtain ⟨diag, hdiag, heq⟩ := Option.map_eq_some_iff.mp hchecked
  obtain ⟨hcommitted, hfurthest⟩ := Prod.mk.inj heq
  obtain ⟨d, hparse⟩ := exists_of_diagnosis?_eq_some hdiag
  obtain ⟨f, s, e, hout, he, -, hfailed, hfirst, hlast, hplace⟩ :=
    report_points_no_earlier ruleless (fun _ _ hrule => nomatch hrule) 6 measured ordinary_measured
      _ {} diag (.parse hparse)
  obtain ⟨n, hn, hboundary, -⟩ := hplace 0 _ hcursor
  rw [hfurthest] at hlast hn
  rw [← hn.trans (Nat.zero_add n)] at hboundary
  exact ⟨_, diag, hcursor, rfl, .parse hparse, hcommitted, hfurthest, f, s, e, hout, he, hfirst,
    hlast, hfailed, hboundary⟩

end ParseTrail
