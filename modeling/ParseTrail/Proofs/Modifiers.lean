import ParseTrail.Proofs.Meaning.Session
import ParseTrail.Proofs.Meaning.Similar

/-!
# Labels and shapes are cosmetic

Two parsers are redressed if they are put together in the same way, except that each may have been
given labels and shapes of its own, on the outside or on any of its parts. A label on a list of
alternatives does more than to name it, as `or` no longer takes the list apart; yet it makes no
difference to how a run ends.

- `Parser.Redressed.similar`: redressed parsers are similar, however their alternatives are grouped;
- `redressed_parsers_end_alike`: if one of them ends, so does the other, and they end alike.
-/

namespace ParseTrail

variable {κ α : Type}

namespace Parser

/-- Parsers that are put together in the same way out of the catalog, but for their labels and
shapes. -/
inductive Redressed : Parser κ α → Parser κ α → Prop
  /- Labels and shapes, on either side. -/
  | labelled_left (label : String) {p q : Parser κ α} :
    Redressed p q → Redressed (p.withLabel label) q
  | labelled_right (label : String) {p q : Parser κ α} :
    Redressed p q → Redressed p (q.withLabel label)
  | reshaped_left (f : Shape → Shape) {p q : Parser κ α} :
    Redressed p q → Redressed (p.reshape f) q
  | reshaped_right (f : Shape → Shape) {p q : Parser κ α} :
    Redressed p q → Redressed p (q.reshape f)
  /- Characters. -/
  | literal (s : String) : Redressed (literal s) (literal s)
  | charWhere (label : String) (condition : Char → Bool) :
    Redressed (charWhere label condition) (charWhere label condition)
  | ending : Redressed ending ending
  | succeed (v : Value α) : Redressed (succeed v) (succeed v)
  | refuse (label : String) : Redressed (refuse label) (refuse label)
  /- Repetition. -/
  | many {p q : Parser κ α} : Redressed p q → Redressed p.many q.many
  | many1 {p q : Parser κ α} : Redressed p q → Redressed p.many1 q.many1
  | times (n : Nat) {p q : Parser κ α} : Redressed p q → Redressed (p.times n) (q.times n)
  | optional {p q : Parser κ α} : Redressed p q → Redressed p.optional q.optional
  | sepBy {p q separator separator' : Parser κ α} :
    Redressed p q → Redressed separator separator' →
      Redressed (p.sepBy separator) (q.sepBy separator')
  | sepBy1 {p q separator separator' : Parser κ α} :
    Redressed p q → Redressed separator separator' →
      Redressed (p.sepBy1 separator) (q.sepBy1 separator')
  /- Alternatives. -/
  | choice {ps qs : List (Parser κ α)} :
    ps.length = qs.length → (∀ p q, (p, q) ∈ ps.zip qs → Redressed p q) →
      Redressed (choice ps) (choice qs)
  | or {p p' q q' : Parser κ α} :
    Redressed p p' → Redressed q q' → Redressed (p.or q) (p'.or q')
  | cut {p q : Parser κ α} : Redressed p q → Redressed p.cut q.cut
  /- Sequence and lookahead. -/
  | andThen {p p' q q' : Parser κ α} :
    Redressed p p' → Redressed q q' → Redressed (p.andThen q) (p'.andThen q')
  | before {p p' q q' : Parser κ α} :
    Redressed p p' → Redressed q q' → Redressed (p.before q) (p'.before q')
  | both {p p' q q' : Parser κ α} :
    Redressed p p' → Redressed q q' → Redressed (p.both q) (p'.both q')
  | between {opening opening' closing closing' p q : Parser κ α} :
    Redressed opening opening' → Redressed closing closing' → Redressed p q →
      Redressed (between opening closing p) (between opening' closing' q)
  | lookahead {p q : Parser κ α} : Redressed p q → Redressed p.lookahead q.lookahead
  | butNot {p q excluded excluded' : Parser κ α} :
    Redressed p q → Redressed excluded excluded' →
      Redressed (p.butNot excluded) (q.butNot excluded')
  /- Values. -/
  | map (f : Value α → Value α) {p q : Parser κ α} : Redressed p q → Redressed (p.map f) (q.map f)
  | tryMap (f : Value α → Except String (Value α)) {p q : Parser κ α} :
    Redressed p q → Redressed (p.tryMap f) (q.tryMap f)
  /- Rules. What they stand for is a matter of the grammar. -/
  | rule (key : Nat) : Redressed (rule key) (rule key)
  | self (key : Nat) : Redressed (self key) (self key)
  | recursive (key : Nat) (body body' : Parser κ α) :
    Redressed (recursive key body) (recursive key body')

/-- Blanks around redressed parsers. They take their label from the parser. -/
theorem Redressed.spaced {p q : Parser κ α} (h : p.Redressed q) : p.spaced.Redressed q.spaced := by
  have hblanks : (whitespace : Parser κ α).Redressed whitespace := by
    unfold whitespace asLeaf join charOf
    exact .reshaped_left _ (.reshaped_right _
      (.labelled_left _ (.labelled_right _ (.map _ (.many (.charWhere _ _))))))
  exact .labelled_left _ (.labelled_right _ (.between hblanks hblanks h))

/-- Redressed parsers are similar. -/
theorem Redressed.similar {p q : Parser κ α} (h : p.Redressed q) :
    p.matcher.Similar q.matcher := by
  induction h with
  | labelled_left label _ ih =>
    rw [matcher_withLabel]
    exact ih
  | labelled_right label _ ih =>
    rw [matcher_withLabel]
    exact ih
  | reshaped_left f _ ih =>
    rw [matcher_reshape]
    exact ih
  | reshaped_right f _ ih =>
    rw [matcher_reshape]
    exact ih
  | literal s => exact .literal s
  | charWhere label condition => exact .satisfy label condition
  | ending => exact .ending
  | succeed v => exact .succeed v
  | refuse label => exact .refuse label
  | many _ ih => exact .many ih
  | many1 _ ih => exact .many1 ih
  | times n _ ih => exact .times n ih
  | optional _ ih => exact .optional ih
  | sepBy _ _ ih ihseparator => exact .sepBy ih ihseparator
  | sepBy1 _ _ ih ihseparator => exact .sepBy1 ih ihseparator
  | choice hlength _ ih =>
    have harms : SimilarArms _ _ := List.forall₂_iff_zip.2 ⟨hlength, ih _ _⟩
    exact Matcher.Similar.choice_iff.2 harms.spread
  | or _ _ ihp ihq =>
    -- However much of either side was taken apart, it spreads out to the same alternatives.
    refine Matcher.Similar.choice_iff.2 ?_
    simp only [spread_append, spread_arms]
    exact List.rel_append ihp.alternatives ihq.alternatives
  | cut _ ih => exact .cut ih
  | andThen _ _ ihp ihq => exact .andThen ihp ihq
  | before _ _ ihp ihq => exact .before ihp ihq
  | both _ _ ihp ihq => exact .both ihp ihq
  | between _ _ _ ihopening ihclosing ih => exact .between ihopening ihclosing ih
  | lookahead _ ih => exact .lookahead ih
  | butNot _ _ ih ihexcluded => exact .butNot ih ihexcluded
  | map f _ ih => exact .map f ih
  | tryMap f _ ih => exact .tryMap f ih
  | rule key => exact .rule key
  | self key => exact .rule key
  | recursive key body body' => exact .rule key

end Parser

/-- Rules that stand for redressed parsers, or for none. -/
inductive Rule.Redressed : Rule κ α → Rule κ α → Prop
  | defined {p q : Parser κ α} : p.Redressed q → Redressed (.defined p) (.defined q)
  | pending : Redressed .pending .pending
  | dropped : Redressed .dropped .dropped

theorem Rule.Redressed.similar {r r' : Rule κ α} (h : r.Redressed r') : r.Similar r' := by
  cases h with
  | defined hp => exact .defined hp.similar
  | pending => exact .pending
  | dropped => exact .dropped

/-- Grammars whose rules are redressed. -/
def Grammar.Redressed (g g' : Grammar κ α) : Prop :=
  ∀ key, (g.rules key).Redressed (g'.rules key)

/-- Runs end alike, each with a result and the session it leaves: both with the same value at the
same offset, or both with a failure of the same kind that stands at the same offset. -/
inductive EndAlike {β : Type} :
    Except Failure β × Session → Except Failure β × Session → Prop
  | matched {v : β} {s t : Session} :
    s.cursor.position = t.cursor.position → EndAlike (.ok v, s) (.ok v, t)
  | expected {e e' : Expectation} {s t : Session} :
    e.offset = e'.offset → EndAlike (.error (.expected e), s) (.error (.expected e'), t)
  | committed {e e' : Expectation} {s t : Session} :
    e.offset = e'.offset → EndAlike (.error (.committed e), s) (.error (.committed e'), t)

theorem Stands.unique {base : Nat} {text place : List Char} {offset offset' : Nat}
    (h : Stands base text offset place) (h' : Stands base text offset' place) :
    offset = offset' := by
  obtain ⟨before, hwhole, rfl⟩ := h
  obtain ⟨before', hwhole', rfl⟩ := h'
  rw [List.append_cancel_right (hwhole.symm.trans hwhole')]

/-- Runs that tally with the same verdict end alike. -/
theorem Tallies.endAlike {β : Type} {base : Nat} {text : List Char} {o : Verdict β}
    {r r' : Except Failure β} {t t' : Session} (h : Tallies base text o r t.cursor.position)
    (h' : Tallies base text o r' t'.cursor.position) : EndAlike (r, t) (r', t') := by
  cases h with
  | matched hstop =>
    cases h' with
    | matched hstop' => exact .matched (hstop.unique hstop')
  | refused hf =>
    cases h' with
    | refused hf' =>
      cases hf with
      | expected hat =>
        cases hf' with
        | expected hat' => exact .expected (hat.unique hat')
      | committed hat =>
        cases hf' with
        | committed hat' => exact .committed (hat.unique hat')

/-- Redressed parsers mean the same under redressed grammars. -/
theorem Grammar.Redressed.means_iff {g g' : Grammar κ α} (hg : g.Redressed g')
    {p q : Parser κ α} (hpq : p.Redressed q) {input : List Char} {o : Verdict (Value α)} :
    Means g.rules p.matcher input o ↔ Means g'.rules q.matcher input o :=
  ⟨fun h => h.of_similar (fun key => (hg key).similar) hpq.similar,
    fun h => h.of_similar (fun key => (hg key).similar.symm) hpq.similar.symm⟩

/-- Two parsers that differ in labels and shapes only are run, in sessions that have the same text
before and after their cursors but may differ in everything else. If there is fuel with which one
run ends with a value or a failure, so there is for the other, and whenever both end they end alike.
-/
theorem redressed_parsers_end_alike {g g' : Grammar Empty α} (hg : g.Redressed g')
    {p q : Parser Empty α} (hpq : p.Redressed q) {s s' : Session} {base : Nat}
    {before input : List Char} (hshows : s.cursor.Shows base before input)
    (hshows' : s'.cursor.Shows base before input) (hdepth : s.maxDepth = 0)
    (hdepth' : s'.maxDepth = 0) :
    ((∃ fuel end₁, outcome (p.run g fuel) s = .ok end₁) ↔
      ∃ fuel end₂, outcome (q.run g' fuel) s' = .ok end₂) ∧
    ∀ fuel fuel' end₁ end₂, outcome (p.run g fuel) s = .ok end₁ →
      outcome (q.run g' fuel') s' = .ok end₂ → EndAlike end₁ end₂ := by
  refine ⟨?_, ?_⟩
  · rw [Parser.exists_run_iff hshows hdepth, Parser.exists_run_iff hshows' hdepth']
    exact exists_congr fun o => hg.means_iff hpq
  · rintro fuel fuel' ⟨r, t⟩ ⟨r', t'⟩ hrun hrun'
    obtain ⟨o, ho, htally⟩ := Parser.means_of_run hshows hdepth hrun
    obtain ⟨o', ho', htally'⟩ := Parser.means_of_run hshows' hdepth' hrun'
    obtain rfl : o = o' := ((hg.means_iff hpq).1 ho).unique ho'
    exact htally.endAlike htally'

/-- Letters, or the same in brackets. -/
def letters : Parser Empty Unit :=
  ((Parser.literal "a").or (.literal "b")).or
    (.between (.literal "(") (.literal ")") (.spaced (.rule 0)))

/-- The same with labels and shapes. The first two alternatives stay by themselves. -/
def dressedLetters : Parser Empty Unit :=
  .or (((Parser.literal "a").or (.literal "b")).withLabel "letter")
    (.dissolvingOuter (.between (.anchored (.literal "(")) (.asLeaf (.literal ")"))
      (.dissolved (.spaced (.withLabel "more" (.rule 0))))))

/-- A grammar of one rule. -/
def ruledBy (p : Parser Empty Unit) : Grammar Empty Unit where
  rules _ := .defined p
  procedures := Empty.elim

/-- Whether the alternatives are three, or two of which one is a list again, the runs end alike. -/
theorem redressed_parsers_end_alike_letters :
    letters.arms?.map List.length = some 3 ∧ dressedLetters.arms?.map List.length = some 2 ∧
    (ruledBy letters).Redressed (ruledBy dressedLetters) ∧ letters.Redressed dressedLetters ∧
    ∃ s : Session, s.cursor.Shows 0 ['x'] ['(', ' ', 'b', ')', 'y'] ∧ s.maxDepth = 0 ∧
      ∃ v t end₂, outcome (letters.run (ruledBy letters) 7) s = .ok (.ok v, t) ∧
        t.cursor.position = 5 ∧
        outcome (dressedLetters.run (ruledBy dressedLetters) 7) s = .ok end₂ ∧
        EndAlike (.ok v, t) end₂ := by
  have hletter : ((Parser.literal "a").or (.literal "b")).Redressed
      (((Parser.literal "a").or (.literal "b")).withLabel "letter" : Parser Empty Unit) :=
    .labelled_right _ (.or (.literal _) (.literal _))
  have hspaced : (Parser.rule 0).spaced.Redressed
      (.dissolved (.spaced (.withLabel "more" (.rule 0))) : Parser Empty Unit) :=
    .reshaped_right _ (.spaced (.labelled_right _ (.rule 0)))
  have hletters : letters.Redressed dressedLetters :=
    .or hletter (.reshaped_right _
      (.between (.reshaped_right _ (.literal _)) (.reshaped_right _ (.literal _)) hspaced))
  have hgrammar : (ruledBy letters).Redressed (ruledBy dressedLetters) :=
    fun _ => .defined hletters
  let c : Cursor := { text := ['x', '(', ' ', 'b', ')', 'y'], index := 1 }
  have hshows : c.Shows 0 ['x'] ['(', ' ', 'b', ')', 'y'] :=
    Cursor.shows_between ['x'] ['(', ' ', 'b', ')', 'y']
  refine ⟨by decide, by decide, hgrammar, hletters, Session.start c {}, hshows, rfl, ?_⟩
  have hplain : passes (fun end₁ => passes (fun _ => decide (end₁.2.cursor.position = 5)) end₁.1)
      (outcome (letters.run (ruledBy letters) 7) (Session.start c {})) = true := by
    decide +kernel
  have hdressed : passes (fun _ => true) (outcome
      (dressedLetters.run (ruledBy dressedLetters) 7) (Session.start c {})) = true := by
    decide +kernel
  -- That both runs have an answer is computed. That the answers are alike is not.
  obtain ⟨⟨r, t⟩, hrun, hplace⟩ := exists_of_passes hplain
  obtain ⟨v, rfl, hposition⟩ := exists_of_passes hplace
  obtain ⟨end₂, hrun', -⟩ := exists_of_passes hdressed
  exact ⟨v, t, end₂, hrun, of_decide_eq_true hposition, hrun',
    (redressed_parsers_end_alike hgrammar hletters hshows hshows rfl rfl).2 7 7 _ _ hrun hrun'⟩

end ParseTrail
