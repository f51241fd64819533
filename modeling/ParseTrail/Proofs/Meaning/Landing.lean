import ParseTrail.Proofs.Meaning.Session
import ParseTrail.Proofs.Session.Nesting

/-!
# Where runs leave the cursor

A run stays in the text that the cursor shows. After a match the cursor stands behind what was
matched, and after a refusal where it was before. All this is told by what the parser means, in
every session that leaves room for it:

- `Parser.run_matches_of_means`: runs of a parser that means a match;
- `Parser.run_fails_of_means`: runs of a parser that means a recoverable refusal.
-/

namespace ParseTrail

variable {α : Type} {g : Grammar Empty α} {p : Parser Empty α} {s t : Session} {base n : Nat}
  {before taken input rest : List Char} {v : Value α} {fuel : Nat} {r : Except Failure (Value α)}

/-- A cursor that shows a text shows what stands at its position. -/
theorem Cursor.Shows.of_position {c : Cursor} {pre post : List Char} (h : c.Shows base pre post)
    (htext : before ++ rest = pre ++ post)
    (hposition : c.position = base + Text.byteLength before) : c.Shows base before rest := by
  have hlength : Text.byteLength before = Text.byteLength pre := by
    rw [h.position] at hposition
    omega
  obtain ⟨rfl, rfl⟩ := Text.append_inj_of_byteLength_eq htext hlength
  exact h

/-- The cursor stays in the text. -/
theorem Parser.exists_shows_of_run (hshows : s.cursor.Shows base before input)
    (hdepth : s.maxDepth = 0) (hrun : outcome (p.run g fuel) s = .ok (r, t)) :
    ∃ pre post, before ++ input = pre ++ post ∧ t.cursor.Shows base pre post := by
  have hagree := alike_matchList g fuel p _ s input (hshows.reads hdepth)
  rw [hrun] at hagree
  generalize outcome (matchList g.rules fuel p) input = q at hagree
  cases hagree with
  | done _ hreads =>
    obtain ⟨pre, hwhole, hin⟩ := hreads.shows
    exact ⟨pre, _, hwhole, hin⟩

/-- A parser that means a match gives it, and leaves the cursor behind it. -/
theorem Parser.run_matches_of_means (hshows : s.cursor.Shows base before (taken ++ rest))
    (hp : p.Nests n) (hroom : s.HasRoom n)
    (ho : Means g.rules p.matcher (taken ++ rest) (.matched v rest)) :
    ∃ enough, ∀ fuel, enough ≤ fuel → ∃ t, outcome (p.run g fuel) s = .ok (.ok v, t) ∧
      t.cursor.Shows base (before ++ taken) rest := by
  have hfree : (s.withLimit 0).cursor.Shows base before (taken ++ rest) := hshows
  obtain ⟨enough, hruns⟩ := Parser.run_of_means hfree rfl ho
  refine ⟨enough, fun fuel hfuel => ?_⟩
  obtain ⟨r, t', hrun, htally⟩ := hruns fuel hfuel
  obtain ⟨pre, post, htext, hin⟩ := Parser.exists_shows_of_run hfree rfl hrun
  cases htally with
  | matched hstands =>
    obtain ⟨pre', hwhole, hposition⟩ := hstands
    obtain ⟨t, ht, hcursor⟩ := exists_outcome_of_hasRoom hp hroom hrun
    -- What remains is the same text, so that what was passed over is the same as well.
    rw [← List.append_assoc] at hwhole htext
    obtain rfl := List.append_cancel_right hwhole
    exact ⟨t, ht, hcursor ▸ hin.of_position htext hposition⟩

/-- A parser that means a recoverable refusal fails recoverably, and the cursor is where it was. -/
theorem Parser.run_fails_of_means {place : List Char} (hshows : s.cursor.Shows base before input)
    (hp : p.Nests n) (hroom : s.HasRoom n)
    (ho : Means g.rules p.matcher input (.refused false place)) :
    ∃ enough, ∀ fuel, enough ≤ fuel → ∃ e t,
      outcome (p.run g fuel) s = .ok (.error (.expected e), t) ∧
        t.cursor.Shows base before input := by
  have hfree : (s.withLimit 0).cursor.Shows base before input := hshows
  obtain ⟨enough, hruns⟩ := Parser.run_of_means hfree rfl ho
  refine ⟨enough, fun fuel hfuel => ?_⟩
  obtain ⟨r, t', hrun, htally⟩ := hruns fuel hfuel
  obtain ⟨pre, post, htext, hin⟩ := Parser.exists_shows_of_run hfree rfl hrun
  cases htally with
  | refused hfails =>
    cases hfails with
    | @expected e _ _ =>
      obtain ⟨t, ht, hcursor⟩ := exists_outcome_of_hasRoom hp hroom hrun
      have hposition : t'.cursor.position = base + Text.byteLength before := by
        cases fuel with
        | zero => cases hrun
        | succ fuel => exact (position_of_recorded hrun).trans hshows.position
      exact ⟨e, t, ht, hcursor ▸ hin.of_position htext hposition⟩

end ParseTrail
