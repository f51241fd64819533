import Mathlib.Data.List.Forall2
import ParseTrail.Proofs.Meaning.Alternatives

/-!
# Similar matchers

Two matchers are similar if they are made in the same way out of similar ones. Labels and shapes do
not count, and alternatives count as they are spread out, however they are grouped. Similar matchers
mean the same under rules that are similar too.
-/

namespace ParseTrail

open Verdict

variable {κ α : Type}

/-- Matchers that are made in the same way. -/
inductive Matcher.Similar : Matcher κ α → Matcher κ α → Prop
  | literal (s : String) : Similar (.literal s) (.literal s)
  | satisfy (label : String) (condition : Char → Bool) :
    Similar (.satisfy label condition) (.satisfy label condition)
  | ending : Similar .ending .ending
  | succeed (v : Value α) : Similar (.succeed v) (.succeed v)
  | refuse (label : String) : Similar (.refuse label) (.refuse label)
  | many {p q : Parser κ α} : Similar p.matcher q.matcher → Similar (.many p) (.many q)
  | many1 {p q : Parser κ α} : Similar p.matcher q.matcher → Similar (.many1 p) (.many1 q)
  | times (n : Nat) {p q : Parser κ α} :
    Similar p.matcher q.matcher → Similar (.times n p) (.times n q)
  | optional {p q : Parser κ α} : Similar p.matcher q.matcher → Similar (.optional p) (.optional q)
  | sepBy {p q separator separator' : Parser κ α} :
    Similar p.matcher q.matcher → Similar separator.matcher separator'.matcher →
      Similar (.sepBy p separator) (.sepBy q separator')
  | sepBy1 {p q separator separator' : Parser κ α} :
    Similar p.matcher q.matcher → Similar separator.matcher separator'.matcher →
      Similar (.sepBy1 p separator) (.sepBy1 q separator')
  | choice {ps qs : List (Parser κ α)} :
    (spread ps).length = (spread qs).length →
      (∀ p q, (p, q) ∈ (spread ps).zip (spread qs) → Similar p.matcher q.matcher) →
        Similar (.choice ps) (.choice qs)
  | cut {p q : Parser κ α} : Similar p.matcher q.matcher → Similar (.cut p) (.cut q)
  | between {opening opening' closing closing' p q : Parser κ α} :
    Similar opening.matcher opening'.matcher → Similar closing.matcher closing'.matcher →
      Similar p.matcher q.matcher →
        Similar (.between opening closing p) (.between opening' closing' q)
  | lookahead {p q : Parser κ α} :
    Similar p.matcher q.matcher → Similar (.lookahead p) (.lookahead q)
  | butNot {p q excluded excluded' : Parser κ α} :
    Similar p.matcher q.matcher → Similar excluded.matcher excluded'.matcher →
      Similar (.butNot p excluded) (.butNot q excluded')
  | andThen {p p' q q' : Parser κ α} :
    Similar p.matcher p'.matcher → Similar q.matcher q'.matcher →
      Similar (.andThen p q) (.andThen p' q')
  | before {p p' q q' : Parser κ α} :
    Similar p.matcher p'.matcher → Similar q.matcher q'.matcher →
      Similar (.before p q) (.before p' q')
  | both {p p' q q' : Parser κ α} :
    Similar p.matcher p'.matcher → Similar q.matcher q'.matcher →
      Similar (.both p q) (.both p' q')
  | map (f : Value α → Value α) {p q : Parser κ α} :
    Similar p.matcher q.matcher → Similar (.map f p) (.map f q)
  | tryMap (f : Value α → Except String (Value α)) {p q : Parser κ α} :
    Similar p.matcher q.matcher → Similar (.tryMap f p) (.tryMap f q)
  | rule (key : Nat) : Similar (.rule key) (.rule key)

/-- Rules that stand for similar parsers, or for none. -/
inductive Rule.Similar : Rule κ α → Rule κ α → Prop
  | defined {p q : Parser κ α} :
    p.matcher.Similar q.matcher → Similar (.defined p) (.defined q)
  | pending : Similar .pending .pending
  | dropped : Similar .dropped .dropped

theorem Rule.Similar.of_defined {r r' : Rule κ α} {p : Parser κ α} (h : r.Similar r')
    (hr : r = .defined p) : ∃ q, r' = .defined q ∧ p.matcher.Similar q.matcher := by
  subst hr
  cases h with
  | defined hp => exact ⟨_, rfl, hp⟩

/-- Parsers one by one similar. -/
abbrev SimilarArms : List (Parser κ α) → List (Parser κ α) → Prop :=
  List.Forall₂ fun p q => p.matcher.Similar q.matcher

namespace Matcher.Similar

variable {m : Matcher κ α} {p q : Parser κ α} {ps qs : List (Parser κ α)}

theorem choice_iff :
    (Matcher.choice ps).Similar (.choice qs) ↔ SimilarArms (spread ps) (spread qs) := by
  constructor
  · intro h
    cases h with
    | choice hlength harms => exact List.forall₂_iff_zip.2 ⟨hlength, harms _ _⟩
  · intro h
    obtain ⟨hlength, harms⟩ := List.forall₂_iff_zip.1 h
    exact .choice hlength fun _ _ => harms

theorem symm {m' : Matcher κ α} (h : m.Similar m') : m'.Similar m := by
  induction h with
  | choice hlength _ ih => exact choice_iff.2 (List.forall₂_iff_zip.2 ⟨hlength, ih _ _⟩).flip
  | _ => constructor <;> assumption

/-- Similar parsers have similar alternatives. -/
theorem alternatives (h : p.matcher.Similar q.matcher) :
    SimilarArms p.alternatives q.alternatives := by
  rcases p.single_or_choice with hp | ⟨label, named, shape, arms, rfl⟩
  · have hq : q.Single := by
      rintro label named shape arms rfl
      obtain ⟨label', named', shape', m⟩ := p
      cases h
      exact hp _ _ _ _ rfl
    rw [hp.alternatives_eq, hq.alternatives_eq]
    exact .cons h .nil
  · obtain ⟨label', named', shape', m⟩ := q
    cases h with
    | choice hlength harms =>
      rw [Parser.alternatives, Parser.alternatives]
      exact choice_iff.1 (.choice hlength harms)

/-- A list that is similar to the alternatives of a parser belongs to a similar parser. -/
theorem of_alternatives (h : SimilarArms p.alternatives qs) (hqs : ∀ q ∈ qs, q.Single) :
    ∃ q : Parser κ α, p.matcher.Similar q.matcher ∧ q.alternatives = qs := by
  rcases p.single_or_choice with hp | ⟨label, named, shape, arms, rfl⟩
  · rw [hp.alternatives_eq, SimilarArms, List.forall₂_cons_left_iff] at h
    obtain ⟨q, rest, hpq, hrest, rfl⟩ := h
    rw [List.forall₂_nil_left_iff.1 hrest] at hqs ⊢
    exact ⟨q, hpq, (hqs q List.mem_cons_self).alternatives_eq⟩
  · rw [Parser.alternatives, ← spread_eq_self hqs] at h
    refine ⟨(Matcher.choice qs).toParser, choice_iff.2 h, ?_⟩
    rw [Matcher.toParser, Parser.alternatives, spread_eq_self hqs]

/-- The first of several alternatives is found again in a similar list. -/
theorem uncons (h : (Matcher.choice (p :: ps)).Similar m) :
    ∃ qs q rest, m = .choice qs ∧ spread qs = spread (q :: rest) ∧
      p.matcher.Similar q.matcher ∧ (Matcher.choice ps).Similar (.choice rest) := by
  obtain ⟨qs, rfl⟩ : ∃ qs, m = .choice qs := by
    cases h
    exact ⟨_, rfl⟩
  rw [choice_iff, spread_cons] at h
  -- The similar list is cut where the alternatives of the first parser end.
  obtain ⟨firsts, rest, hcut, hfirsts, hrest⟩ : ∃ firsts rest, spread qs = firsts ++ rest ∧
      SimilarArms p.alternatives firsts ∧ SimilarArms (spread ps) rest :=
    ⟨_, _, (List.take_append_drop p.alternatives.length _).symm,
      (List.forall₂_take_append _ _ _ h.flip).flip, (List.forall₂_drop_append _ _ _ h.flip).flip⟩
  have hsingle (q : Parser κ α) (hq : q ∈ firsts ++ rest) : q.Single :=
    single_of_mem_spread qs q (hcut ▸ hq)
  obtain ⟨q, hpq, hq⟩ :=
    of_alternatives hfirsts fun q hq => hsingle q (List.mem_append_left _ hq)
  have hspread : spread rest = rest :=
    spread_eq_self fun q hq => hsingle q (List.mem_append_right _ hq)
  refine ⟨qs, q, rest, rfl, ?_, hpq, choice_iff.2 (hspread.symm ▸ hrest)⟩
  rw [hcut, spread_cons, hq, hspread]

end Matcher.Similar

theorem Rule.Similar.symm {r r' : Rule κ α} (h : r.Similar r') : r'.Similar r := by
  cases h with
  | defined hp => exact .defined hp.symm
  | pending => exact .pending
  | dropped => exact .dropped

/-- Lists of similar parsers spread out to lists of similar parsers. -/
theorem SimilarArms.spread {ps qs : List (Parser κ α)} (h : SimilarArms ps qs) :
    SimilarArms (spread ps) (spread qs) := by
  induction h with
  | nil =>
    rw [spread_nil]
    exact .nil
  | cons hpq _ ih =>
    rw [spread_cons, spread_cons]
    exact List.rel_append hpq.alternatives ih

/-- Similar matchers mean the same under rules that are similar. -/
theorem Means.of_similar {rules rules' : Nat → Rule κ α}
    (hrules : ∀ key, (rules key).Similar (rules' key)) {m m' : Matcher κ α} {input : List Char}
    {o : Verdict (Value α)} (h : Means rules m input o) (hm : m.Similar m') :
    Means rules' m' input o := by
  -- By induction on the rules. A rule applies to the similar matcher just as it did, except that
  -- the first of several alternatives may stand elsewhere in its list.
  induction h generalizing m' with
  | literal => cases hm; exact .literal
  | literal_refused hinput => cases hm; exact .literal_refused hinput
  | satisfy hc => cases hm; exact .satisfy hc
  | satisfy_refused hc => cases hm; exact .satisfy_refused hc
  | satisfy_end => cases hm; exact .satisfy_end
  | ending => cases hm; exact .ending
  | ending_refused => cases hm; exact .ending_refused
  | succeed => cases hm; exact .succeed
  | refuse => cases hm; exact .refuse
  | many_end => cases hm; exact .many_end
  | many_stop hinput _ ihp => cases hm with | many hp => exact .many_stop hinput (ihp hp)
  | many_committed hinput _ ihp => cases hm with | many hp => exact .many_committed hinput (ihp hp)
  | many_next hinput _ _ ihp ih =>
    cases hm with | many hp => exact .many_next hinput (ihp hp) (ih (.many hp))
  | many1 _ _ ihp ih => cases hm with | many1 hp => exact .many1 (ihp hp) (ih (.many hp))
  | many1_refused _ ihp => cases hm with | many1 hp => exact .many1_refused (ihp hp)
  | times_zero => cases hm; exact .times_zero
  | times_next hn _ _ ihp ih =>
    cases hm with | times n hp => exact .times_next hn (ihp hp) (ih (.times _ hp))
  | times_refused hn _ ihp => cases hm with | times n hp => exact .times_refused hn (ihp hp)
  | optional _ ihp => cases hm with | optional hp => exact .optional (ihp hp)
  | optional_absent _ ihp => cases hm with | optional hp => exact .optional_absent (ihp hp)
  | optional_committed _ ihp => cases hm with | optional hp => exact .optional_committed (ihp hp)
  | sepBy_end => cases hm; exact .sepBy_end
  | sepBy_none hinput _ ihp =>
    cases hm with | sepBy hp _ => exact .sepBy_none hinput (ihp hp)
  | sepBy_committed hinput _ ihp =>
    cases hm with | sepBy hp _ => exact .sepBy_committed hinput (ihp hp)
  | sepBy_some hinput _ _ ihp ih =>
    cases hm with
    | sepBy hp hseparator =>
      exact .sepBy_some hinput (ihp hp) (ih (.many (.andThen hseparator hp)))
  | sepBy1 _ _ ihp ih =>
    cases hm with
    | sepBy1 hp hseparator => exact .sepBy1 (ihp hp) (ih (.many (.andThen hseparator hp)))
  | sepBy1_refused _ ihp => cases hm with | sepBy1 hp _ => exact .sepBy1_refused (ihp hp)
  | choice_nil =>
    cases hm with
    | @choice _ qs hlength _ =>
      rw [spread_nil] at hlength
      rw [← means_choice_spread, List.length_eq_zero_iff.1 hlength.symm]
      exact .choice_nil
  | choice_first _ ih =>
    obtain ⟨qs, q, rest, rfl, hspread, hq, -⟩ := hm.uncons
    exact (means_choice_congr hspread).2 (.choice_first (ih hq))
  | choice_committed _ ih =>
    obtain ⟨qs, q, rest, rfl, hspread, hq, -⟩ := hm.uncons
    exact (means_choice_congr hspread).2 (.choice_committed (ih hq))
  | choice_next _ _ ih ihrest =>
    obtain ⟨qs, q, rest, rfl, hspread, hq, hrest⟩ := hm.uncons
    exact (means_choice_congr hspread).2 (.choice_next (ih hq) (ihrest hrest))
  | cut _ ihp => cases hm with | cut hp => exact .cut (ihp hp)
  | cut_refused _ ihp => cases hm with | cut hp => exact .cut_refused (ihp hp)
  | lookahead _ ihp => cases hm with | lookahead hp => exact .lookahead (ihp hp)
  | lookahead_refused _ ihp =>
    cases hm with | lookahead hp => exact .lookahead_refused (ihp hp)
  | butNot _ _ ihexcluded ihp =>
    cases hm with | butNot hp hexcluded => exact .butNot (ihexcluded hexcluded) (ihp hp)
  | butNot_excluded _ ihexcluded =>
    cases hm with | butNot _ hexcluded => exact .butNot_excluded (ihexcluded hexcluded)
  | butNot_committed _ ihexcluded =>
    cases hm with | butNot _ hexcluded => exact .butNot_committed (ihexcluded hexcluded)
  | andThen _ _ ihp ihq => cases hm with | andThen hp hq => exact .andThen (ihp hp) (ihq hq)
  | andThen_refused _ ihp => cases hm with | andThen hp _ => exact .andThen_refused (ihp hp)
  | before _ _ ihp ihq => cases hm with | before hp hq => exact .before (ihp hp) (ihq hq)
  | before_refused _ ihp => cases hm with | before hp _ => exact .before_refused (ihp hp)
  | both _ _ ihp ihq => cases hm with | both hp hq => exact .both (ihp hp) (ihq hq)
  | both_refused _ ihp => cases hm with | both hp _ => exact .both_refused (ihp hp)
  | between _ _ ihopening ih =>
    cases hm with
    | between hopening hclosing hp => exact .between (ihopening hopening) (ih (.before hp hclosing))
  | between_refused _ ihopening =>
    cases hm with | between hopening _ _ => exact .between_refused (ihopening hopening)
  | map _ ihp => cases hm with | map f hp => exact .map (ihp hp)
  | tryMap _ hf ihp => cases hm with | tryMap f hp => exact .tryMap (ihp hp) hf
  | tryMap_rejected _ hf ihp => cases hm with | tryMap f hp => exact .tryMap_rejected (ihp hp) hf
  | tryMap_refused _ ihp => cases hm with | tryMap f hp => exact .tryMap_refused (ihp hp)
  | rule hkey _ ihp =>
    cases hm with
    | rule =>
      obtain ⟨q, hkey', hq⟩ := (hrules _).of_defined hkey
      exact .rule hkey' (ihp hq)

end ParseTrail
