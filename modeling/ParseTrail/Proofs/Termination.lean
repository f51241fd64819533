import ParseTrail.Proofs.Positions
import ParseTrail.Proofs.Session.Bounds
import ParseTrail.Proofs.Session.Fuel

/-!
# Termination under a limit of depth

A grammar may be recursive in any way, on the left as well, and a limit of depth bounds how far the
recursion goes. Loops it does not bound: they end with the text if each of their rounds consumes
some of it. So a parse needs no more fuel than there are levels below the limit and bytes in the
text.

- `ends_run`: at each level the depth that is left bounds the recursion, and the text the loops;
- `productive_parse_terminates`: under a limit of depth, every parse whose loops are productive has
  an outcome;
- `countless_repetition_halts`: it need not be an answer.
-/

namespace ParseTrail

section

variable {α : Type}

/-- The loops that a parser can come to run consume input, before the end of the text: the items of
repetitions do so whenever they match, and separators do so together with the items after them. -/
structure Grammar.Productive (g : Grammar Empty α) (p : Parser Empty α) (text : List Char)
    (limit : Nat) : Prop where
  items {q item : Parser Empty α} : g.Runs p q →
    q.matcher = .many item ∨ q.matcher = .many1 item →
      ∀ fuel, (item.run g fuel).Consumes text limit
  rounds {q item separator : Parser Empty α} : g.Runs p q →
    q.matcher = .sepBy item separator ∨ q.matcher = .sepBy1 item separator →
      ∀ fuel, (separator.run g fuel >>= fun _ => item.run g fuel).Consumes text limit

/-- The faults that a parse of a text may run into: rules without a definition, lists that are asked
for and cannot be that long, and columns that are too large a number. -/
inductive Grammar.Faults (g : Grammar Empty α) (p : Parser Empty α) (text : List Char) :
    Fault → Prop
  | pending {q : Parser Empty α} {key : Nat} : g.Runs p q → q.matcher = .rule key →
    g.rules key = .pending → Faults g p text .rulePending
  | dropped {q : Parser Empty α} {key : Nat} : g.Runs p q → q.matcher = .rule key →
    g.rules key = .dropped → Faults g p text .ruleDropped
  | times {q item : Parser Empty α} {n : Nat} : g.Runs p q → q.matcher = .times n item →
    listLimit ≤ n → Faults g p text .limitExceeded
  | column : offsetLimit ≤ Text.byteLength text + 1 → Faults g p text .limitExceeded

/-- What bounds the parses of a text by a parser. -/
def Grammar.bounds (g : Grammar Empty α) (p : Parser Empty α) (text : List Char) (limit : Nat) :
    Bounds :=
  ⟨text, limit, g.Faults p text⟩

variable {g : Grammar Empty α} {p : Parser Empty α} {text : List Char} {limit : Nat}

/-- Every parser that can come to be run ends, at every depth, if its fuel covers the levels that
are left below the limit and the whole text. -/
theorem ends_run (hproductive : g.Productive p text limit) (hlimit : 0 < limit) {fuel depth : Nat}
    (hdepth : depth ≤ limit) (hfuel : limit + Text.byteLength text < depth + fuel)
    {q : Parser Empty α} (hq : g.Runs p q) (b : Cursor) :
    (g.bounds p text limit).Ends depth b (q.run g fuel) := by
  -- By induction on fuel. Each level takes one unit of it, as it takes one of the depth that is
  -- left, so that what covers the text is there for the loops at every level.
  induction fuel generalizing depth q b with
  | zero => omega
  | succ fuel ih =>
    refine ends_recorded hlimit hdepth q.label q.shape (fun hbelow b' => ?_) b
    have hturns : Text.byteLength text < fuel := by
      have hle : depth + 1 ≤ limit := hbelow
      omega
    have hrun (r : Parser Empty α) (hr : g.Runs p r) (b : Cursor) :
        (g.bounds p text limit).Ends (depth + 1) b (r.run g fuel) :=
      ih hbelow (by omega) hr b
    rw [← perform_sessionEngine]
    refine (correspondence_bounds (g.bounds p text limit) (depth + 1)).perform_alone
      q.matcher (fun r hr => hrun r (hq.part hr)) (fun key r hkey hr => hrun r (hq.rule hkey hr))
      (fun key => key.elim)
      (fun item hm done b s hs => ?_) (fun item separator hm done b s hs => ?_)
      (fun n item hm hn _ => .fault (.times hq hm hn))
      (fun key hkey hpending _ => .fault (.pending hq hkey hpending))
      (fun key hkey hdropped _ => .fault (.dropped hq hkey hdropped)) b'
    · have hitem : item ∈ q.matcher.parts := by
        rcases hm with hm | hm <;> simp [hm, Matcher.parts]
      refine ended_many (hrun item (hq.part hitem) b) (hproductive.items hq hm fuel) done hs ?_
      exact Nat.lt_of_lt_of_le hturns (Nat.le_add_left _ _)
    · have hparts : item ∈ q.matcher.parts ∧ separator ∈ q.matcher.parts := by
        rcases hm with hm | hm <;> simp [hm, Matcher.parts]
      refine ended_sepTail (hrun item (hq.part hparts.1)) (hrun separator (hq.part hparts.2))
        (hproductive.rounds hq hm fuel) done hs ?_
      exact Nat.lt_of_lt_of_le hturns (Nat.le_add_left _ _)

/-! ### Parses -/

/-- The error of a parse that ends within its bounds. The line that it shows is found in the text,
and only its column may be too large a number. -/
theorem errorOf_of_isWithin {trail : Trail} {f : Failure} {c : Cursor} {before rest : List Char}
    (hf : f.IsWithin limit) (hc : c.Shows 0 before rest) (hkept : trail.KeptBy c) :
    (∃ diag d, Reading.errorOf trail f c = .ok (.failed diag, d)) ∨
      (∃ d, Reading.errorOf trail f c = .ok (.tooDeep (limit + 1) limit, d)) ∨
      (Reading.errorOf trail f c = .error (.fault .limitExceeded) ∧
        offsetLimit ≤ Text.byteLength (before ++ rest) + 1) := by
  have hfurthest := hkept.furthestStart
  have hdiagnose (committed : Bool) :
      (∃ diag d, Reading.diagnose trail committed c = .ok (.failed diag, d)) ∨
        (Reading.diagnose trail committed c = .error (.fault .limitExceeded) ∧
          offsetLimit ≤ Text.byteLength (before ++ rest) + 1) := by
    obtain ⟨d, hline, -⟩ := hc.lineAt hfurthest.1 hfurthest.2
    rw [diagnose_eq, hline]
    dsimp only
    cases hreport :
        Report.ofTrail trail (Line.around 0 (before ++ rest) trail.furthestStart) with
    | ok report => exact .inl ⟨_, d, rfl⟩
    | error cause =>
      -- The column is at most the offset, and that lies in the text.
      obtain ⟨rfl, hlarge⟩ := eq_limitExceeded_of_ofTrail hreport
      have hcolumn := Text.column_le
        (Line.around 0 (before ++ rest) trail.furthestStart).text.toList
        (Line.around 0 (before ++ rest) trail.furthestStart).span.start trail.furthestStart
      have hwithin := hc.kept_within
      exact .inr ⟨rfl, by omega⟩
  rcases hf with hmismatch | rfl
  · cases f with
    | expected _ => exact (hdiagnose false).imp_right .inr
    | committed _ => exact (hdiagnose true).imp_right .inr
    | tooDeep _ _ => cases hmismatch
    | source _ => cases hmismatch
  · exact .inr (.inl ⟨c, rfl⟩)

/-- The outcomes of a parse that comes to an end. -/
inductive Grammar.Answers (g : Grammar Empty α) (p : Parser Empty α) (text : List Char)
    (limit : Nat) : Except Halt (Except ParseError (Value α) × Cursor) → Prop
  /-- The text matched. -/
  | matched (v : Value α) (d : Cursor) : Answers g p text limit (.ok (.ok v, d))
  /-- It did not, and a report tells why. -/
  | failed (diag : Diagnosis) (d : Cursor) : Answers g p text limit (.ok (.error (.failed diag), d))
  /-- Parsers nested one deeper than the limit. -/
  | tooDeep (d : Cursor) : Answers g p text limit (.ok (.error (.tooDeep (limit + 1) limit), d))
  /-- The grammar lacks a rule, or asks for more than can be counted. -/
  | fault {cause : Fault} : g.Faults p text cause → Answers g p text limit (.error (.fault cause))

/-- A parse whose fuel covers the limit and the text comes to an end. -/
theorem answers_parse {fuel : Nat} {config : Config} {c : Cursor}
    (hproductive : g.Productive p text config.maxDepth) (hlimit : 0 < config.maxDepth)
    (hc : c.StandsIn 0 text) (hfuel : config.maxDepth + Text.byteLength text < fuel) :
    g.Answers p text config.maxDepth ((p.parse g fuel config).run c) := by
  obtain ⟨before, rest, rfl, hshows⟩ := hc
  have hopened : c.openScope.StandsIn 0 (before ++ rest) := (hshows.withScopes _).standsIn
  have hstart : (Session.start c.openScope config).Within
      (g.bounds p (before ++ rest) config.maxDepth) 0 c.openScope :=
    ⟨hopened, hopened, .refl hopened.inBounds, rfl, rfl⟩
  have hcovers : config.maxDepth + Text.byteLength (before ++ rest) < 0 + fuel := by omega
  have hend := ends_run hproductive hlimit (Nat.zero_le _) hcovers .self c.openScope _ hstart
  have hagree := alike_run_of_sameText g fuel p _ _ _ (together_start hshows hshows config)
  change Grammar.Answers g p _ _ (Reading.parse config (p.run g fuel) c)
  rw [parse_eq, invoke_eq]
  generalize outcome (p.run g fuel) (Session.start c.openScope config) = o at hend hagree ⊢
  cases hend with
  | fault hcause => exact .fault hcause
  | matched _ => exact .matched _ _
  | @failed f t hf _ =>
    -- The cursor can go back to where the parse began, and its text holds all attempts.
    obtain _ | ⟨-, htogether⟩ := hagree
    obtain ⟨hback, -, hstay⟩ := htogether.returnTo
    obtain ⟨before', rest', htext, hshows', -⟩ := hstay.abreast
    have hkept : t.trail.KeptBy { t.cursor.closeScope with index := c.index } :=
      htogether.firstKept
    simp only [hback]
    rcases errorOf_of_isWithin hf hshows' hkept with
      ⟨diag, d, herror⟩ | ⟨d, herror⟩ | ⟨herror, hlarge⟩
    · rw [herror]
      exact .failed _ _
    · rw [herror]
      exact .tooDeep _
    · rw [herror]
      exact .fault (.column (htext ▸ hlarge))

end

/-- Under a limit of depth a parse comes to an end if its loops consume input, however its grammar
is recursive: with a value, with the report of a failure, or with the error that tells of nesting
past the limit. It is the same end for all fuel beyond the limit and the length of the text
together. Nothing else can happen, unless the grammar lacks a rule or asks for more than can be
counted. -/
theorem productive_parse_terminates {α : Type} (g : Grammar Empty α) (p : Parser Empty α)
    (config : Config) (hlimit : 0 < config.maxDepth) (text : List Char) (c : Cursor)
    (hc : c.StandsIn 0 text) (hproductive : g.Productive p text config.maxDepth) :
    ∃ r, (∀ fuel, config.maxDepth + Text.byteLength text < fuel →
        (p.parse g fuel config).run c = r) ∧
      g.Answers p text config.maxDepth r := by
  have hends := answers_parse hproductive hlimit hc (Nat.lt_succ_self _)
  refine ⟨_, fun fuel hfuel => parse_refuelled g hfuel p config c fun hempty => ?_, hends⟩
  -- None of its ends is to run out of fuel.
  rw [hempty] at hends
  cases hends

/-! ### A left-recursive grammar -/

/-- A literal moves over its own length. -/
theorem position_of_outcome_literal {s : String} {text : List Char} {start t : Session} {v : Unit}
    (hstart : start.cursor.StandsIn 0 text)
    (h : outcome (Action.literal s) start = .ok (.ok v, t)) :
    t.cursor.position = start.cursor.position + Text.byteLength s.toList := by
  obtain ⟨before, rest, -, hshows⟩ := hstart
  obtain ⟨d, hread, hd⟩ := hshows.read s.length
  have hfound : outcome (Action.read s.length) start =
      .ok (.ok (rest.take s.length), { start with cursor := d }) := by
    have hperform : start.cursor.perform (.read s.length) =
        .ok (.ok (rest.take s.length), d) := hread
    change outcome (Action.ask (.read s.length) >>= Action.ofSource) start = _
    rw [outcome_bind, outcome_ask, hperform]
    rfl
  rw [Action.literal, outcome_position_bind, outcome_bind, hfound] at h
  dsimp only at h
  split at h
  · next htext =>
    cases h
    change d.position = _
    rw [hd.position, hshows.position, htext, Text.byteLength_append, Nat.add_assoc]
  · cases h

/-- A literal that is not empty consumes input. -/
theorem consumes_literal {α : Type} (g : Grammar Empty α) (fuel : Nat) {s : String}
    (hs : s.toList ≠ []) (text : List Char) (limit : Nat) :
    ((Parser.literal s).run g fuel).Consumes text limit := by
  intro start v t hstart _ _ hout
  cases fuel with
  | zero => cases hout
  | succ fuel =>
    cases recorded_of_outcome hout with
    | @matched _ u hmatched =>
      change outcome (Action.literal s >>= fun _ => pure _) (start.entered _ _) = _ at hmatched
      rw [outcome_bind] at hmatched
      split at hmatched
      · cases hmatched
      · cases hmatched
      · next hliteral =>
        cases hmatched
        have hentered : (start.entered (Parser.literal s : Parser Empty α).label
            (Parser.literal s : Parser Empty α).shape.anchor).cursor.StandsIn 0 text := hstart
        have hposition := position_of_outcome_literal hentered hliteral
        have hpos : 0 < Text.byteLength s.toList :=
          Nat.pos_of_ne_zero fun hzero => hs (Text.eq_nil_of_byteLength_eq_zero hzero)
        exact Nat.lt_of_lt_of_eq (Nat.lt_add_of_pos_right hpos) hposition.symm

/-- Letters before a semicolon, or else the same with a plus after it. -/
def leftSum : Parser Empty Unit :=
  .choice [.both (.many1 (.literal "a")) (.literal ";"), .both (.rule 0) (.literal "+")]

/-- The grammar in which the sum begins with itself. -/
def leftSums : Grammar Empty Unit where
  rules _ := .defined leftSum
  procedures := Empty.elim

/-- All that the sum comes to run. -/
def leftSumParsers : List (Parser Empty Unit) :=
  [leftSum, .both (.many1 (.literal "a")) (.literal ";"), .both (.rule 0) (.literal "+"),
    .many1 (.literal "a"), .literal "a", .literal ";", .rule 0, .literal "+"]

theorem runs_leftSum {q : Parser Empty Unit} (h : leftSums.Runs leftSum q) :
    q ∈ leftSumParsers := by
  have hclosed : ∀ r ∈ leftSumParsers, r.matcher.parts ⊆ leftSumParsers := by
    simp [leftSumParsers, leftSum, Parser.choice, Parser.both, Parser.many1, Parser.literal,
      Parser.rule, Matcher.toParser, Parser.matcher, Matcher.parts]
  induction h with
  | self => exact List.mem_cons_self
  | part _ hr ih => exact hclosed _ ih hr
  | rule _ _ hr _ =>
    cases hr
    exact List.mem_cons_self

theorem productive_leftSum (text : List Char) (limit : Nat) :
    leftSums.Productive leftSum text limit := by
  -- The letters make the only loop.
  have hloops : ∀ q ∈ leftSumParsers,
      (∀ r, q.matcher = .many r ∨ q.matcher = .many1 r → r = .literal "a") ∧
      ∀ r r', ¬(q.matcher = .sepBy r r' ∨ q.matcher = .sepBy1 r r') := by
    simp [leftSumParsers, leftSum, Parser.choice, Parser.both, Parser.many1, Parser.literal,
      Parser.rule, Matcher.toParser, Parser.matcher]
  constructor
  · intro q item hq hmany fuel
    rw [(hloops q (runs_leftSum hq)).1 item hmany]
    exact consumes_literal leftSums fuel (by decide) text limit
  · intro q item separator hq hsepBy fuel
    exact absurd hsepBy ((hloops q (runs_leftSum hq)).2 item separator)

/-- Under a limit of 4, letters before a semicolon match. Where the semicolon is missing the sum
begins with itself until it is too deep. More fuel changes neither. -/
theorem productive_parse_terminates_leftSum :
    (∃ v d, ∀ fuel, 7 < fuel →
      (leftSum.parse leftSums fuel { maxDepth := 4 }).run (Cursor.ofText "aa;") = .ok (.ok v, d)) ∧
    ∃ d, ∀ fuel, 7 < fuel →
      (leftSum.parse leftSums fuel { maxDepth := 4 }).run (Cursor.ofText "aa+") =
        .ok (.error (.tooDeep 5 4), d) := by
  have hmatches : passes (fun end₁ => passes (fun _ => true) end₁.1)
      ((leftSum.parse leftSums 8 { maxDepth := 4 }).run (Cursor.ofText "aa;")) = true := by
    decide +kernel
  have hanswers : passes (fun end₁ => !passes (fun _ => true) end₁.1)
      ((leftSum.parse leftSums 8 { maxDepth := 4 }).run (Cursor.ofText "aa+")) = true := by
    decide +kernel
  have hreports : diagnosis?
      ((leftSum.parse leftSums 8 { maxDepth := 4 }).run (Cursor.ofText "aa+")) = none := by
    decide +kernel
  refine ⟨?_, ?_⟩
  · obtain ⟨r, hsame, -⟩ := productive_parse_terminates leftSums leftSum { maxDepth := 4 }
      (by decide) "aa;".toList (Cursor.ofText "aa;") (Cursor.shows_ofText "aa;").standsIn
      (productive_leftSum _ _)
    rw [hsame 8 (by decide)] at hmatches
    obtain ⟨⟨told, d⟩, rfl, htold⟩ := exists_of_passes hmatches
    obtain ⟨v, rfl, -⟩ := exists_of_passes htold
    exact ⟨v, d, hsame⟩
  · obtain ⟨r, hsame, hends⟩ := productive_parse_terminates leftSums leftSum { maxDepth := 4 }
      (by decide) "aa+".toList (Cursor.ofText "aa+") (Cursor.shows_ofText "aa+").standsIn
      (productive_leftSum _ _)
    rw [hsame 8 (by decide)] at hanswers hreports
    -- Of the ends that there are, only this one is neither a value nor a report.
    cases hends with
    | matched v d => cases hanswers
    | failed diag d => cases hreports
    | tooDeep d => exact ⟨d, hsame⟩
    | fault _ => cases hanswers

/-! ### A repetition that asks for too much -/

/-- A letter as many times as can be counted. -/
def countless : Parser Empty Unit :=
  .times (offsetLimit - 1) (.literal "a")

theorem runs_countless {q : Parser Empty Unit} (h : ruleless.Runs countless q) :
    q = countless ∨ q = .literal "a" := by
  induction h with
  | self => exact .inl rfl
  | part _ hr ih =>
    rcases ih with rfl | rfl
    · exact .inr (List.mem_singleton.mp hr)
    · cases hr
  | rule _ hkey _ ih => rcases ih with rfl | rfl <;> cases hkey

/-- It has no loops that could go on without consuming input: how often it repeats is told
beforehand. -/
theorem productive_countless (text : List Char) (limit : Nat) :
    ruleless.Productive countless text limit := by
  constructor
  · intro q item hq hmany fuel
    rcases runs_countless hq with rfl | rfl <;> rcases hmany with hm | hm <;> cases hm
  · intro q item separator hq hsepBy fuel
    rcases runs_countless hq with rfl | rfl <;> rcases hsepBy with hm | hm <;> cases hm

/-- Such a parse need not give an answer. No list is long enough for the letters that are asked for,
so that the parse halts before it looks for the first, under a limit of 5 and with all fuel beyond
it and the text. -/
theorem countless_repetition_halts :
    ruleless.Productive countless "a".toList 5 ∧
      ∀ fuel, 5 + Text.byteLength "a".toList < fuel →
        (countless.parse ruleless fuel { maxDepth := 5 }).run (Cursor.ofText "a") =
          .error (.fault .limitExceeded) := by
  refine ⟨productive_countless _ _, fun fuel hfuel => ?_⟩
  have hhalts : (countless.parse ruleless 7 { maxDepth := 5 }).run (Cursor.ofText "a") =
      .error (.fault .limitExceeded) := by
    rfl
  have hseven : 7 ≤ fuel := hfuel
  rw [parse_refuelled ruleless hseven countless _ _ (by rw [hhalts]; nofun), hhalts]

end ParseTrail
