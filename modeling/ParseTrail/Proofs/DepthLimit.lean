import ParseTrail.Proofs.Session.Limit
import ParseTrail.Proofs.Unrecoverable

/-!
# The depth limit is transparent

A limit of depth either ends a parse with an error that says so, or it might as well not be there.
Nothing that absorbs an ordinary failure absorbs this one, so that no parse takes another way
because of its limit.

- `parse_of_underLimit`: a parse looks at the limit only through its session;
- `depth_limit_transparent`: a limit that is not exceeded gives what every looser one gives.
-/

namespace ParseTrail

/-- A configuration whose limit of depth is no stricter. -/
def Config.Relaxes (config' config : Config) : Prop :=
  config'.maxDepth = 0 ∨ config.maxDepth ≤ config'.maxDepth

section

variable {α β : Type}

/-- No moment of a run is deeper than the limit. -/
theorem Parser.depth_le_of_mem_moments {g : Grammar Empty α} {fuel : Nat} {p : Parser Empty α}
    {c : Cursor} {config : Config} (hlimit : 0 < config.maxDepth) {s : Session}
    (hs : s ∈ p.moments g fuel c config) : s.depth ≤ config.maxDepth := by
  have hstart : (shallow config.maxDepth).ready 0 (Session.start c config) := ⟨rfl, Nat.zero_le _⟩
  obtain ⟨_, hready⟩ := ((strict_shallow hlimit).heeds_run g fuel p 0).ready_of_mem hstart hs
  exact hready.2

/-- A parse is the same under another limit if its session is. -/
theorem parse_of_underLimit {config config' : Config} {x : Action β} {c : Cursor}
    (h : outcome x (Session.start c.openScope config') =
      underLimit config'.maxDepth (outcome x (Session.start c.openScope config))) :
    Reading.parse config' x c = Reading.parse config x c := by
  have hinvoke : Reading.invoke config' x c = Reading.invoke config x c := by
    rw [invoke_eq, invoke_eq, h]
    rcases outcome x (Session.start c.openScope config) with halt | ⟨f | v, t⟩
    · rfl
    · rfl
    · rfl
  rw [parse_eq, parse_eq, hinvoke]

/-- A limit that a run exceeds is told of. -/
theorem exists_tooDeep_of_exceeds {g : Grammar Empty α} {fuel : Nat} {p : Parser Empty α}
    {config : Config} {c : Cursor} {limit : Nat} (hc : c.InBounds)
    (h : Exceeds limit (outcome (p.run g fuel) (Session.start c.openScope config))) :
    ∃ d, (p.parse g fuel config).run c = .ok (.error (.tooDeep (limit + 1) limit), d) := by
  obtain ⟨t, hout⟩ := h
  have hsurfaces := surfaces_parse g fuel p hc hout rfl
  generalize (p.parse g fuel config).run c = o at hsurfaces
  cases hsurfaces
  exact ⟨_, rfl⟩

end

/-- Under a limit, a parse ends with the error that tells of nesting one deeper than that, or with
what it ends with under every looser limit, and under none: the same value or the same error, with
its report and trail, and the same cursor. At no moment does it nest deeper than the limit. A parse
that a looser limit ends is ended by the stricter one as well. -/
theorem depth_limit_transparent {α : Type} (g : Grammar Empty α) (fuel : Nat) (p : Parser Empty α)
    (config : Config) (hlimit : 0 < config.maxDepth) (c : Cursor) (hc : c.InBounds) :
    ((∃ d, (p.parse g fuel config).run c =
        .ok (.error (.tooDeep (config.maxDepth + 1) config.maxDepth), d)) ∨
      ∀ config' : Config, config'.Relaxes config →
        (p.parse g fuel config').run c = (p.parse g fuel config).run c) ∧
    ((p.chronicle g fuel).action = p.run g fuel ∧
      ∀ s ∈ p.moments g fuel c.openScope config, s.depth ≤ config.maxDepth) ∧
    ∀ config' : Config, config'.Relaxes config → ∀ depth limit d,
      (p.parse g fuel config').run c = .ok (.error (.tooDeep depth limit), d) →
        ∃ depth limit d,
          (p.parse g fuel config).run c = .ok (.error (.tooDeep depth limit), d) := by
  have hready := level_start hc config
  have hlow : (shallow config.maxDepth).ready 0 (Session.start c.openScope config) :=
    ⟨rfl, Nat.zero_le _⟩
  have hends : (∃ d, (p.parse g fuel config).run c =
        .ok (.error (.tooDeep (config.maxDepth + 1) config.maxDepth), d)) ∨
      ∀ config' : Config, config'.Relaxes config →
        (p.parse g fuel config').run c = (p.parse g fuel config).run c := by
    -- The run may come upon the limit, and that is all it can make of it.
    by_cases hexceeds :
        Exceeds config.maxDepth (outcome (p.run g fuel) (Session.start c.openScope config))
    · exact .inl (exists_tooDeep_of_exceeds hc hexceeds)
    · refine .inr fun config' hrelaxes => parse_of_underLimit ?_
      exact ((Action.transparent_run hlimit hrelaxes g fuel p).same _ hready hlow).resolve_left
        hexceeds
  refine ⟨hends, ⟨p.chronicle_action g fuel, fun s hs => Parser.depth_le_of_mem_moments hlimit hs⟩,
    fun config' hrelaxes depth limit d herror => ?_⟩
  rcases hends with ⟨d', hdeep⟩ | hsame
  · exact ⟨_, _, d', hdeep⟩
  · exact ⟨depth, limit, d, (hsame config' hrelaxes).symm.trans herror⟩

/-- Brackets that may hold the same, or else a letter. -/
def forgiving : Parser Empty Unit :=
  .choice [.between (.literal "(") (.literal ")") (.optional (.rule 0)), .literal "a"]

/-- The grammar of such brackets. -/
def forgivingGrammar : Grammar Empty Unit where
  rules _ := .defined forgiving
  procedures := Empty.elim

/-- A limit of 4 surfaces from within brackets that might be missing and might be a letter. A
limit of 12 is not exceeded, so that there might as well be none. -/
theorem depth_limit_transparent_forgiving :
    (Cursor.ofText "(())").InBounds ∧
    (∃ d, (forgiving.parse forgivingGrammar 12 { maxDepth := 4 }).run (Cursor.ofText "(())") =
      .ok (.error (.tooDeep 5 4), d)) ∧
    ∃ v d, (forgiving.parse forgivingGrammar 12 { maxDepth := 12 }).run (Cursor.ofText "(())") =
        .ok (.ok v, d) ∧
      d.position = 4 ∧
      (forgiving.parse forgivingGrammar 12 {}).run (Cursor.ofText "(())") = .ok (.ok v, d) := by
  have hc := Cursor.inBounds_ofText "(())"
  have hexceeded : passes (fun end₁ => passes (fun _ => true) end₁.1)
      ((forgiving.parse forgivingGrammar 12 { maxDepth := 4 }).run (Cursor.ofText "(())")) =
      false := by
    decide +kernel
  have hmatched : passes (fun end₁ => passes (fun _ => decide (end₁.2.position = 4)) end₁.1)
      ((forgiving.parse forgivingGrammar 12 { maxDepth := 12 }).run (Cursor.ofText "(())")) =
      true := by
    decide +kernel
  obtain ⟨⟨r, d⟩, hparse, hplace⟩ := exists_of_passes hmatched
  obtain ⟨v, rfl, hposition⟩ := exists_of_passes hplace
  have hfree : (forgiving.parse forgivingGrammar 12 {}).run (Cursor.ofText "(())") =
      .ok (.ok v, d) := by
    obtain ⟨⟨d', hdeep⟩ | hsame, -⟩ :=
      depth_limit_transparent forgivingGrammar 12 forgiving { maxDepth := 12 } (by decide) _ hc
    · rw [hparse] at hdeep
      cases hdeep
    · exact (hsame {} (.inl rfl)).trans hparse
  -- If the smaller limit were not exceeded either, the parse would match under it as well.
  refine ⟨hc, ?_, v, d, hparse, of_decide_eq_true hposition, hfree⟩
  obtain ⟨hdeep | hsame, -⟩ :=
    depth_limit_transparent forgivingGrammar 12 forgiving { maxDepth := 4 } (by decide) _ hc
  · exact hdeep
  · rw [← hsame {} (.inl rfl), hfree] at hexceeded
    cases hexceeded

end ParseTrail
