import ParseTrail.Proofs.Blame
import ParseTrail.Proofs.Cursor.Replay
import ParseTrail.Proofs.Session.Course

/-!
# What a parse pulls

A parse pulls from the source just what it looks at: to test for the end, to peek, to try an
alternative or to decode a character takes no more bytes than the characters in question have. So a
parse that succeeds does the same over every source that begins with the bytes it pulled.

- `Action.Replays`: over another source that begins with what it pulled, an action does the same;
- `simulation_replays`: so do all actions that parsers are made of;
- `successful_parse_depends_on_pulled_bytes`: and so does a parse that succeeds.
-/

namespace ParseTrail

/-- If an action does not fail with an error of the source, it does the same over every source that
hands out first what it pulled. -/
def Action.Replays {β : Type} (x : Action β) : Prop :=
  ∀ s r t, outcome x s = .ok (r, t) → (∀ e, r ≠ .error (.source e)) →
    s.cursor.Replays t.cursor fun c d =>
      outcome x { s with cursor := c } = .ok (r, { t with cursor := d })

namespace Action.Replays

variable {β γ : Type} {x : Action β}

/-- A value needs nothing of the source. -/
theorem pure (v : β) : Replays (Pure.pure v : Action β) := by
  intro s r t ht _
  cases ht
  exact .of_source_eq rfl rfl fun _ => rfl

/-- Neither does a failure. -/
theorem throw (f : Failure) : Replays (throw f : Action β) := by
  intro s r t ht _
  cases ht
  exact .of_source_eq rfl rfl fun _ => rfl

/-- What halts has no way to go again. -/
theorem halt (h : Halt) : Replays (throwThe Halt h : Action β) := by
  intro s r t ht
  cases ht

/-- A sequence goes one way after the other. -/
theorem bind {f : β → Action γ} (hx : Replays x) (hf : ∀ v, Replays (f v)) :
    Replays (x >>= f) := by
  intro s r u hu hr
  rw [outcome_bind] at hu
  split at hu
  · cases hu
  · next e t ht =>
    cases hu
    have hfailed := hx s (.error e) u ht fun e' he' => hr e' (by rw [Except.error.inj he'])
    refine hfailed.mono fun src rest hagain => ?_
    rw [outcome_bind, hagain]
  · next v t ht =>
    have hfirst := hx s (.ok v) t ht (by rintro _ ⟨⟩)
    refine hfirst.trans (hf v t r u hu hr) fun src mid rest hagain hagain' => ?_
    rw [outcome_bind, hagain]
    exact hagain'

/-- An operation on the cursor whose answer is passed on. -/
theorem ofSource {request : Cursor.Request} {reply : request.Reply → Except SourceError β}
    (h : ∀ (c d : Cursor) told v, c.perform request = .ok (told, d) → reply told = .ok v →
      c.Replays d fun c d => c.perform request = .ok (told, d)) :
    Replays (Action.ask request >>= fun told => Action.ofSource (reply told)) := by
  intro s r t ht hr
  rw [outcome_bind, outcome_ask] at ht
  rcases hperform : s.cursor.perform request with cause | ⟨told, d⟩
  · rw [hperform] at ht
    cases ht
  · rw [hperform] at ht
    dsimp only at ht
    rw [outcome_ofSource] at ht
    rcases hreply : reply told with e | v
    · -- An error of the source becomes a failure, of which nothing is said.
      rw [hreply] at ht
      cases ht
      exact absurd rfl (hr e)
    · rw [hreply] at ht
      cases ht
      refine (h s.cursor d told v hperform hreply).mono fun src rest hagain => ?_
      rw [outcome_bind, outcome_ask, hagain]
      dsimp only
      rw [outcome_ofSource, hreply]

/-- Going back needs nothing of the source. -/
theorem returnTo (offset : Nat) : Replays (Action.returnTo offset) := by
  intro s r t ht _
  rw [outcome_returnTo] at ht
  split at ht
  · cases ht
  · next d hd =>
    cases ht
    refine (Cursor.replays_returnTo hd).mono fun src rest hagain => ?_
    rw [outcome_returnTo, hagain]

/-- Neither does an attempt that fails at once. -/
theorem reject (offset : Nat) (label : String) : Replays (Action.reject offset label) := by
  intro s r t ht _
  rw [outcome_reject] at ht
  cases ht
  exact .of_source_eq rfl rfl fun src => rfl

/-! ### Failures as values -/

/-- To absorb a failure goes the same way. -/
theorem recover (hx : Replays x) : Replays (Action.recover x) := by
  intro s r t ht hr
  rw [outcome_recover] at ht
  split at ht
  · cases ht
  · next v u hu =>
    cases ht
    refine (hx s (.ok v) t hu (by rintro _ ⟨⟩)).mono fun src rest hagain => ?_
    rw [outcome_recover, hagain]
  · next f u hu =>
    by_cases hf : f.isRecoverable = true
    · -- What is absorbed is no error of the source.
      rw [if_pos hf] at ht
      cases ht
      have hsource (e : SourceError) : (.error f : Except Failure β) ≠ .error (.source e) := by
        rintro ⟨⟩
        cases hf
      refine (hx s (.error f) t hu hsource).mono fun src rest hagain => ?_
      rw [outcome_recover, hagain]
      exact if_pos hf
    · rw [if_neg hf] at ht
      cases ht
      have hsource (e : SourceError) : (.error f : Except Failure β) ≠ .error (.source e) :=
        fun he => hr e (by rw [Except.error.inj he])
      refine (hx s (.error f) t hu hsource).mono fun src rest hagain => ?_
      rw [outcome_recover, hagain]
      exact if_neg hf

/-- So does it to commit one. -/
theorem cut (hx : Replays x) : Replays (Action.cut x) := by
  intro s r t ht hr
  rw [outcome_cut] at ht
  split at ht
  · cases ht
  · next v u hu =>
    cases ht
    refine (hx s (.ok v) t hu (by rintro _ ⟨⟩)).mono fun src rest hagain => ?_
    rw [outcome_cut, hagain]
  · next f u hu =>
    cases ht
    -- To commit an error of the source leaves it one.
    have hsource (e : SourceError) : (.error f : Except Failure β) ≠ .error (.source e) := by
      rintro ⟨⟩
      exact hr e rfl
    refine (hx s (.error f) t hu hsource).mono fun src rest hagain => ?_
    rw [outcome_cut, hagain]

/-- A look ahead goes its way, and then back. -/
theorem lookahead (hx : Replays x) : Replays (Action.lookahead x) := by
  intro s r u hu hr
  rw [outcome_lookahead_eq] at hu
  rcases hout : outcome x s with halt | ⟨r', t⟩
  · rw [hout] at hu
    cases hu
  · rw [hout] at hu
    dsimp only at hu
    split at hu
    · cases hu
    · next d hd =>
      cases hu
      refine (hx s r t hout hr).trans (Cursor.replays_returnTo hd) fun src mid rest hx' hd' => ?_
      have hposition : ({ s with cursor := s.cursor.withSource src } : Session).cursor.position =
          s.cursor.position := rfl
      rw [outcome_lookahead_eq, hx']
      dsimp only
      rw [hposition, hd']

/-- An attempt is opened and closed the same way over any source. -/
theorem recorded (label : String) (shape : Shape) (hx : Replays x) :
    Replays (Action.recorded label shape x) := by
  intro s r u hu hr
  by_cases hdeep : s.maxDepth ≠ 0 ∧ s.depth ≥ s.maxDepth
  · rw [outcome_recorded, if_pos hdeep] at hu
    cases hu
    refine .of_source_eq rfl rfl fun src => ?_
    rw [outcome_recorded, if_pos hdeep]
  · cases recorded_of_outcome hu with
    | tooDeep hdeep' => exact absurd hdeep' hdeep
    | @matched v t ht =>
      have hinner := hx (s.entered label shape.anchor) (.ok v) t ht (by rintro _ ⟨⟩)
      refine hinner.mono fun src rest hagain => ?_
      have hagain : outcome x (Session.entered { s with cursor := s.cursor.withSource src } label
          shape.anchor) = .ok (.ok v, { t with cursor := t.cursor.withSource rest }) := hagain
      change outcome (Action.recorded label shape x)
        { s with cursor := s.cursor.withSource src } = _
      rw [outcome_recorded, if_neg hdeep, hagain]
      rfl
    | @failed f t d ht hreturn =>
      -- The way back is the same, too, as it is within the text that was kept.
      have hinner := hx (s.entered label shape.anchor) (.error f) t ht fun e he =>
        hr e (by rw [Except.error.inj he])
      refine hinner.trans (Cursor.replays_returnTo hreturn) fun src mid rest hagain hback => ?_
      have hagain : outcome x (Session.entered { s with cursor := s.cursor.withSource src } label
          shape.anchor) = .ok (.error f, { t with cursor := t.cursor.withSource mid }) := hagain
      have hposition : ({ s with cursor := s.cursor.withSource src } : Session).cursor.position =
          s.cursor.position := rfl
      change outcome (Action.recorded label shape x)
        { s with cursor := s.cursor.withSource src } = _
      rw [outcome_recorded, if_neg hdeep, hagain]
      dsimp only
      rw [hposition, hback]
      rfl

end Action.Replays

/-- All actions that parsers are made of do the same over another source. -/
theorem simulation_replays :
    Engine.Simulation sessionEngine sessionEngine (fun (_ : Unit) m n => m = n)
      (fun _ _ x _ => x.Replays) where
  pure := Action.Replays.pure
  bind := Action.Replays.bind
  map f h := h.bind fun v => .pure (f v)
  here := by
    intro _ β f _ hf s r t ht hr
    exact hf () s.cursor.position _ rfl s r t ht hr
  returnTo _ := .returnTo _
  read n := Action.Replays.ofSource fun c d told v hd hv => by
    subst hv
    exact Cursor.replays_read hd
  readChar := Action.Replays.ofSource fun c d told v hd hv => by
    subst hv
    exact Cursor.replays_readChar hd
  peek n := Action.Replays.ofSource fun c d told v hd hv => by
    subst hv
    exact Cursor.replays_peek hd
  atEnd := Action.Replays.ofSource fun c d told v hd hv => by
    subst hv
    have hanswer : c.atEnd = (.ok v, d) := Except.ok.inj hd
    exact (Cursor.replays_atEnd hanswer).mono fun _ _ => congrArg Except.ok
  expected _ _ := .throw _
  expectedFound _ _ _ := .throw _
  reject _ _ := Action.Replays.bind (.reject _ _) fun f => .throw f
  outOfFuel := .halt _
  limitExceeded := .halt _
  rulePending := .halt _
  ruleDropped := .halt _
  recover := Action.Replays.recover
  cut := Action.Replays.cut
  lookahead h := (h ()).lookahead

section

variable {α : Type}

/-- A parser does the same over every source that hands out first what it pulled. -/
theorem Parser.replays_run (g : Grammar Empty α) (fuel : Nat) (p : Parser Empty α) :
    (p.run g fuel).Replays := by
  rw [← run_sessionEngine]
  exact simulation_replays.run_alone (fun label shape _ hx _ => .recorded label shape (hx ()))
    (fun _ _ key => key.elim) fuel p ()

/-- So does a parse that succeeds. Its scope and what is released at the end do not depend on the
source. -/
theorem Parser.replays_parse (g : Grammar Empty α) (fuel : Nat) (config : Config)
    (p : Parser Empty α) {c d : Cursor} {v : Value α}
    (h : (p.parse g fuel config).run c = .ok (.ok v, d)) :
    c.Replays d fun c d => (p.parse g fuel config).run c = .ok (.ok v, d) := by
  obtain ⟨e, hinvoke, rfl⟩ := exists_invoke_of_parse h
  cases invoked_of_invoke hinvoke with
  | @matched _ t hout =>
    have hrun := p.replays_run g fuel _ _ t hout (by rintro _ ⟨⟩)
    -- Opening a scope, closing it and releasing text pull nothing.
    have hopen : c.Replays c.openScope fun c d => d = c.openScope :=
      .of_source_eq rfl rfl fun _ => rfl
    have hclose : t.cursor.Replays t.cursor.closeScope fun c d => d = c.closeScope :=
      .of_source_eq rfl rfl fun _ => rfl
    have hend : t.cursor.Replays t.cursor.closeScope.release fun c d =>
        d = c.closeScope.release :=
      hclose.trans (Cursor.replays_release _) fun _ _ _ hclosed hreleased => by
        rw [hreleased, hclosed]
    have hscoped : c.Replays t.cursor fun c d =>
        outcome (p.run g fuel) (Session.start c.openScope config) =
          .ok (.ok v, { t with cursor := d }) :=
      hopen.trans hrun fun _ _ _ hopened hagain => by
        rw [← hopened]
        exact hagain
    refine hscoped.trans hend fun src mid rest hagain hreleased => ?_
    change Reading.parse config (p.run g fuel) (c.withSource src) = _
    rw [parse_eq, invoke_eq, hagain, hreleased]

/-- A parse that succeeds depends only on the bytes it pulled. Let a parse at a cursor succeed
without coming upon the end of the source, and let `k` be the number of bytes by which the input has
been pulled further. The source handed out at least `k` bytes before anything else happened, apart
from interruptions. If another source hands out the same `k` bytes first, in pieces of any size,
then whatever it does afterwards, the same parse over it succeeds with the same value, leaves the
cursor at the same offset with the same text kept, and pulls just these bytes. -/
theorem successful_parse_depends_on_pulled_bytes (g : Grammar Empty α) (fuel : Nat)
    (config : Config) (p : Parser Empty α) (c d : Cursor) (src src' : Source) (v : Value α)
    (k : Nat)
    (hsrc : c.source = some src) (hparse : (p.parse g fuel config).run c = .ok (.ok v, d))
    (hsource : d.source.isSome = true) (hk : d.origin + d.buffered = c.origin + c.buffered + k)
    (hsame : src'.ahead.take k = src.ahead.take k) :
    k ≤ src.ahead.length ∧
      ∃ d', (p.parse g fuel config).run (c.withSource src') = .ok (.ok v, d') ∧
        d'.position = d.position ∧ d'.origin = d.origin ∧ d'.buffered = d.buffered ∧
        d'.text = d.text ∧ ∃ rest, d'.source = some rest ∧ rest.ahead = src'.ahead.drop k := by
  obtain ⟨rest, hrest⟩ := Option.isSome_iff_exists.mp hsource
  obtain ⟨_, bytes, hsrc', hbytes, hpulled, hagain⟩ :=
    p.replays_parse g fuel config hparse rest hrest
  cases hsrc.symm.trans hsrc'
  -- The bytes pulled are the first `k` of both sources.
  have hlength : bytes.length = k := by
    simp only [Cursor.pulled] at hpulled
    omega
  have htake : src.ahead.take k = bytes := by rw [hbytes, ← hlength, List.take_left]
  rw [htake] at hsame
  obtain ⟨rest', hrest', hparse'⟩ := hagain src' (hsame ▸ List.take_prefix k _)
  refine ⟨?_, d.withSource rest', hparse', rfl, rfl, rfl, rfl, rest', rfl, ?_⟩
  · rw [hbytes, ← hlength, List.length_append]
    exact Nat.le_add_right _ _
  · rw [hrest', ← hlength, List.drop_left]

/-- The letters `a` that come next. -/
def leadingLetters : Parser Empty Unit :=
  (Parser.literal "a").many

/-- Two letters, then another one of two bytes, and more. -/
def calm : Source :=
  [.data [0x61, 0x61, 0xc3, 0xa9, 0x62]]

/-- The same letters, cut inside a character and interrupted, and then bytes that encode none. -/
def wild : Source :=
  [.data [0x61], .error ⟨.interrupted, "try again"⟩, .data [0x61, 0xc3], .data [],
    .data [0xa9, 0xff], .error ⟨.brokenPipe, "gone"⟩]

/-- The parse looks at the first three characters, and what comes after them makes no difference. -/
theorem successful_parse_depends_on_pulled_bytes_letters :
    ∃ v d d', (leadingLetters.parse ruleless 4 {}).run (Cursor.ofSource calm 0) = .ok (.ok v, d) ∧
      d.source.isSome = true ∧ d.origin + d.buffered = 4 ∧
      (leadingLetters.parse ruleless 4 {}).run (Cursor.ofSource wild 0) = .ok (.ok v, d') ∧
      d'.position = d.position ∧ d'.origin = d.origin ∧ d'.buffered = d.buffered := by
  have hran : passes (fun out => passes (fun _ => true) out.1 &&
      decide (out.2.source.isSome = true ∧ out.2.origin + out.2.buffered = 4))
      ((leadingLetters.parse ruleless 4 {}).run (Cursor.ofSource calm 0)) = true := by
    decide +kernel
  obtain ⟨⟨r, d⟩, hparse, htested⟩ := exists_of_passes hran
  obtain ⟨hmatched, hpulled⟩ := Bool.and_eq_true_iff.mp htested
  obtain ⟨v, rfl, -⟩ := exists_of_passes hmatched
  obtain ⟨hsource, hk⟩ := of_decide_eq_true hpulled
  obtain ⟨-, d', hparse', hposition, horigin, hbuffered, -⟩ :=
    successful_parse_depends_on_pulled_bytes ruleless 4 {} leadingLetters (Cursor.ofSource calm 0) d
      calm wild v 4 rfl hparse hsource hk (by decide)
  exact ⟨v, d, d', hparse, hsource, hk, hparse', hposition, horigin, hbuffered⟩

end

end ParseTrail
