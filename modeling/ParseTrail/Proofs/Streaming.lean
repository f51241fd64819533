import ParseTrail.Proofs.Backtracking
import ParseTrail.Proofs.Session.SameText

/-!
# Streaming

A text may be parsed as a whole or as it comes from a byte source, in pieces of any size that are
cut anywhere, even inside a character. Nobody can tell the difference: the two cursors keep
different amounts of text at every moment, and yet a sequence of invocations sees the same at both.

- `Invocation.observe`: what a sequence of invocations sees;
- `Invocation.observe_eq_of_abreast`: it is the same at cursors that stand abreast;
- `streaming_unobservable`: so it is for a text and for a source that delivers it.
-/

namespace ParseTrail

/-- An invocation of a parser at a cursor by someone who is not parsing. -/
inductive Invocation : Type 1 where
  /-- Parse, consuming what matches. -/
  | parse {α : Type} (g : Grammar Empty α) (fuel : Nat) (config : Config) (p : Parser Empty α)
  /-- Parse, consuming nothing. -/
  | parseAhead {α : Type} (g : Grammar Empty α) (fuel : Nat) (p : Parser Empty α)
  /-- Ask whether a parser matches. -/
  | matchesAt {α : Type} (g : Grammar Empty α) (fuel : Nat) (p : Parser Empty α)

/-- What is seen of an invocation: its result, and where it leaves the cursor and the text kept. -/
structure Observation (β : Type) where
  /-- The value or the error, with its report and its trail. -/
  result : Except ParseError β
  /-- The offset of the cursor. -/
  position : Nat
  /-- The offset of the first byte kept. -/
  origin : Nat

/-- What is seen of a cursor once an invocation has ended with a result. -/
def Cursor.observed {β : Type} (c : Cursor) (result : Except ParseError β) : Observation β :=
  { result, position := c.position, origin := c.origin }

/-- Two cursors that nobody can tell apart: they stand abreast, keep text from the same offset on,
and have as many scopes open. -/
structure Cursor.Indistinguishable (base : Nat) (text : List Char) (c d : Cursor) : Prop where
  abreast : Cursor.Abreast base text c d
  origin : c.origin = d.origin
  scopes : c.scopes = d.scopes

variable {c d c' d' : Cursor} {base : Nat} {text : List Char}

/-- An invocation that releases nothing leaves cursors as indistinguishable as they were. -/
theorem StayAbreast.indistinguishable (hstay : StayAbreast base text c d c' d')
    (h : Cursor.Indistinguishable base text c d) : Cursor.Indistinguishable base text c' d' where
  abreast := hstay.abreast
  origin := by rw [hstay.first.origin, hstay.second.origin, h.origin]
  scopes := by rw [hstay.first.scopes, hstay.second.scopes, h.scopes]

namespace Invocation

/-- The type of the values that an invocation gives. -/
def Answer : Invocation → Type
  | @parse α _ _ _ _ => Value α
  | @parseAhead α _ _ _ => Value α
  | @matchesAt _ _ _ _ => Bool

/-- What an invocation does at a cursor. -/
def run : (i : Invocation) → Reading (Except ParseError i.Answer)
  | parse g fuel config p => p.parse g fuel config
  | parseAhead g fuel p => p.parseAhead g fuel
  | matchesAt g fuel p => p.matchesAt g fuel

/-- What is seen of invocations one after the other at a cursor. It ends where one halts, with the
reason for that. -/
def observe : List Invocation → Cursor → List (Σ i : Invocation, Observation i.Answer) × Option Halt
  | [], _ => ([], none)
  | i :: rest, c =>
    match i.run c with
    | .error h => ([], some h)
    | .ok (result, d) => (⟨i, d.observed result⟩ :: (observe rest d).1, (observe rest d).2)

/-- An invocation gives the same result at cursors that stand abreast, and they do so afterwards.
Where nobody could tell the cursors apart, nobody can then. -/
theorem agree_run_of_abreast (i : Invocation) (h : Cursor.Abreast base text c d) :
    Agree (fun _ => True) Eq
      (fun c' d' => Cursor.Abreast base text c' d' ∧
        (Cursor.Indistinguishable base text c d → Cursor.Indistinguishable base text c' d'))
      (i.run c) (i.run d) := by
  cases i with
  | parse g fuel config p =>
    -- A parse releases text, from the same offset on at both cursors if they kept text from the same.
    apply (agree_parse_of_abreast config (alike_run_of_sameText g fuel p) h).mono
    · intro _ _ hresult
      exact hresult
    · rintro c' d' ⟨habreast, hscopes, hscopes', horigin⟩
      exact ⟨habreast, fun hsame => ⟨habreast, horigin hsame.origin hsame.scopes,
        by rw [hscopes, hscopes', hsame.scopes]⟩⟩
  | parseAhead g fuel p =>
    -- Looking ahead releases nothing.
    apply (agree_parseAhead_of_abreast (alike_run_of_sameText g fuel p) h).mono
    · intro _ _ hresult
      exact hresult
    · intro _ _ hstay
      exact ⟨hstay.abreast, hstay.indistinguishable⟩
  | matchesAt g fuel p =>
    -- What `matchesAt` tells depends on the result of looking ahead alone.
    have hahead : AgreeAbreast base text c d ((p.parseAhead g fuel).run c)
        ((p.parseAhead g fuel).run d) :=
      agree_parseAhead_of_abreast (alike_run_of_sameText g fuel p) h
    show Agree _ _ _ ((p.matchesAt g fuel).run c) ((p.matchesAt g fuel).run d)
    rw [matchesAt_run, matchesAt_run]
    generalize (p.parseAhead g fuel).run c = o, (p.parseAhead g fuel).run d = q at hahead ⊢
    rcases hahead with _ | @⟨r, _, c', d', rfl, hstay⟩
    · exact .halt trivial
    · have hafter := And.intro hstay.abreast hstay.indistinguishable
      rcases r with (_ | _ | _) | _
      · exact .done rfl hafter
      · exact .done rfl hafter
      · exact .done rfl hafter
      · exact .done rfl hafter

/-- An invocation gives the same result at indistinguishable cursors, and they stay so. -/
theorem agree_run (i : Invocation) (h : Cursor.Indistinguishable base text c d) :
    Agree (fun _ => True) Eq (Cursor.Indistinguishable base text) (i.run c) (i.run d) :=
  (i.agree_run_of_abreast h.abreast).mono (fun _ _ hresult => hresult) fun _ _ hafter => hafter.2 h

/-- Sequences of invocations see the same at indistinguishable cursors. -/
theorem observe_eq_of_indistinguishable (is : List Invocation)
    (h : Cursor.Indistinguishable base text c d) : observe is c = observe is d := by
  induction is generalizing c d with
  | nil => rfl
  | cons i rest ih =>
    have hagree := agree_run i h
    rw [observe, observe]
    generalize i.run c = o, i.run d = q at hagree ⊢
    rcases hagree with _ | @⟨r, _, c', d', rfl, hsame⟩
    · rfl
    · -- Nothing that is seen of the cursors differs, and the rest sees the same of them.
      have hobserved : c'.observed r = d'.observed r := by
        simp only [Cursor.observed, hsame.abreast.position_eq, hsame.origin]
      simp only [hobserved, ih hsame]

end Invocation

/-- Cursors at the start of a text and of a source that delivers it. -/
theorem indistinguishable_ofText_ofSource {text : String} {src : Source}
    (hsrc : src.Delivers text.toList) :
    Cursor.Indistinguishable 0 text.toList (Cursor.ofSource src 0) (Cursor.ofText text) where
  abreast := ⟨[], text.toList, rfl, Cursor.shows_ofSource hsrc, Cursor.shows_ofText text⟩
  origin := rfl
  scopes := rfl

/-- Whether a text is parsed as a whole or from a source that delivers it cannot be observed. Every
sequence of invocations of parsers without procedures, whatever their grammars and configurations,
sees the same values and the same errors, with their reports and trails, and leaves both cursors
at the same offset with text kept from the same offset on. So a parse of the source answers like a
parse of the text, if it does not ask the source for more bytes at a time than there can be. -/
theorem streaming_unobservable (text : String) (src : Source) (hsrc : src.Delivers text.toList) :
    (∀ capacity c, Cursor.ofReader capacity src = .ok c →
      ∀ is, Invocation.observe is c = Invocation.observe is (Cursor.ofText text)) ∧
    ∀ {α : Type} (g : Grammar Empty α) (fuel : Nat) (config : Config) (p : Parser Empty α),
      config.readCapacity ≤ bufferLimit →
        p.parseSource g fuel config src = p.parseText g fuel config text := by
  have hstart := indistinguishable_ofText_ofSource hsrc
  constructor
  · intro capacity c hc is
    -- A reader begins with nothing read, whatever its capacity.
    have hcursor : c = Cursor.ofSource src 0 := by
      rw [Cursor.ofReader] at hc
      split at hc
      · cases hc
      · cases hc
        rfl
    rw [hcursor]
    exact Invocation.observe_eq_of_indistinguishable is hstart
  · intro α g fuel config p hcapacity
    have hreader : Cursor.ofReader config.readCapacity src = .ok (Cursor.ofSource src 0) := by
      rw [Cursor.ofReader, if_neg (Nat.not_lt.mpr hcapacity)]
    -- The capacity says how many bytes a read asks for. The cursor does not depend on it.
    have hagree := agree_parse_of_abreast config (alike_run_of_sameText g fuel p) hstart.abreast
    show (do let c ← Halt.check (Cursor.ofReader config.readCapacity src)
             (p.parse g fuel config).run' c) = (p.parse g fuel config).run' (Cursor.ofText text)
    rw [hreader]
    show (Reading.parse config (p.run g fuel) (Cursor.ofSource src 0)).map Prod.fst =
      (Reading.parse config (p.run g fuel) (Cursor.ofText text)).map Prod.fst
    generalize Reading.parse config (p.run g fuel) (Cursor.ofSource src 0) = o,
      Reading.parse config (p.run g fuel) (Cursor.ofText text) = q at hagree ⊢
    rcases hagree with _ | ⟨rfl, -⟩
    · rfl
    · rfl

/-- A source that is cut inside a character, interrupted there, and empty at times. -/
def torn : Source :=
  [.data [0xC3], .error ⟨.interrupted, "again"⟩, .data [0xA9, 0x0A], .data [], .data [0x62]]

/-- A torn source is parsed like the text that it delivers. -/
theorem streaming_unobservable_torn :
    torn.Delivers "é\nb".toList ∧ Cursor.ofReader 1 torn = .ok (Cursor.ofSource torn 0) ∧
      (∀ is, Invocation.observe is (Cursor.ofSource torn 0) =
        Invocation.observe is (Cursor.ofText "é\nb")) ∧
      (Matcher.literal "é\nb").toParser.parseSource (⟨fun _ => .dropped, Empty.elim⟩ : Grammar Empty Unit)
        1 { readCapacity := 1 } torn = .ok (.ok (.text "é\nb")) := by
  have hsrc : torn.Delivers "é\nb".toList := by
    constructor
    · intro event hevent
      simp only [torn, List.mem_cons, List.not_mem_nil, or_false] at hevent
      rcases hevent with rfl | rfl | rfl | rfl | rfl
      · trivial
      · rfl
      · trivial
      · trivial
      · trivial
    · rfl
  have hsame := streaming_unobservable "é\nb" torn hsrc
  refine ⟨hsrc, rfl, hsame.1 1 _ rfl, ?_⟩
  rw [hsame.2 _ _ _ _ (by decide)]
  rfl

end ParseTrail
