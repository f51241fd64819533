import ParseTrail.Proofs.Backtracking
import ParseTrail.Proofs.Blame
import ParseTrail.Proofs.Cursor.Passage
import ParseTrail.Proofs.Session.SameText

/-!
# Texts as they stand in the input

Some parsers yield the very text that they consume: those of one character, of a given text, of
lists of these joined into one, and what alternatives, exclusions, cuts, labels and shapes make of
them. What fails on the way may have read on, but it goes back, and so it neither shows up in the
value nor is missing from it.

- `Action.Takes`: how the characters moved over go with the value, one rule per way of matching;
- `Parser.Verbatim`: the parsers that copy, told from what they are made of;
- `value_is_input_consumed`: such a parser gives the text between where it starts and where it ends.
-/

namespace ParseTrail

variable {β γ : Type} {P : β → List Char → Prop} {Q : γ → List Char → Prop} {s t : Session}

/-! ### Taking characters -/

namespace Action

/-- Wherever an action starts between two characters and gives a value, `P` relates the value to the
characters that were moved over. -/
def Takes (P : β → List Char → Prop) (x : Action β) : Prop :=
  ∀ s v t, s.cursor.AtBoundary → 0 < s.cursor.scopes → outcome x s = .ok (.ok v, t) →
    ∃ cs, P v cs ∧ s.cursor.MovesOver cs t.cursor

/-- Wherever an action starts between two characters and fails, it goes back to where it started. -/
def Returns (x : Action β) : Prop :=
  ∀ s f t, s.cursor.AtBoundary → 0 < s.cursor.scopes → outcome x s = .ok (.error f, t) →
    s.cursor.MovesOver [] t.cursor

variable {x : Action β} {y : Action γ}

namespace Takes

/-- A value that is given takes nothing, so it has to spell nothing. -/
theorem pure {v : β} (h : P v []) : Takes P (pure v : Action β) := by
  intro s v' t hs _ ht
  cases ht
  exact ⟨[], h, Cursor.movesOver_nil hs (.refl hs.inBounds) rfl⟩

/-- A failure takes nothing, and no value has to be spelled. -/
theorem throw (f : Failure) : Takes P (throw f : Action β) :=
  fun _ _ _ _ _ ht => nomatch ht

/-- Neither has one where the run halts. -/
theorem halt (h : Halt) : Takes P (throwThe Halt h : Action β) :=
  fun _ _ _ _ _ ht => nomatch ht

/-- What is taken may be described in weaker words. -/
theorem mono {P' : β → List Char → Prop} (hx : Takes P x) (h : ∀ v cs, P v cs → P' v cs) :
    Takes P' x := by
  intro s v t hs hscope ht
  obtain ⟨cs, hv, hmoved⟩ := hx s v t hs hscope ht
  exact ⟨cs, h v cs hv, hmoved⟩

/-- What comes next takes the characters after those taken so far. -/
theorem bind {f : β → Action γ} (hx : Takes P x)
    (hf : ∀ v cs, P v cs → Takes (fun w ds => Q w (cs ++ ds)) (f v)) : Takes Q (x >>= f) := by
  intro s w u hs hscope hu
  rw [outcome_bind] at hu
  split at hu
  · cases hu
  · cases hu
  · next v t ht =>
    obtain ⟨cs, hv, hst⟩ := hx s v t hs hscope ht
    have hscope' : 0 < t.cursor.scopes := hst.extended.scopes ▸ hscope
    obtain ⟨ds, hw, htu⟩ := hf v cs hv t w u hst.atBoundary hscope' hu
    exact ⟨cs ++ ds, hw, hst.trans htu⟩

/-- A value may be replaced if the new one spells the same. -/
theorem map {f : β → γ} (hx : Takes P x) (h : ∀ v cs, P v cs → Q (f v) cs) :
    Takes Q (f <$> x) := by
  refine hx.bind fun v cs hv => .pure ?_
  rw [List.append_nil]
  exact h v cs hv

/-- To ask where the cursor stands takes nothing. -/
theorem here {k : Nat → Action γ} (hk : ∀ n, Takes Q (k n)) : Takes Q (Action.position >>= k) :=
  fun s w u hs hscope hu => hk s.cursor.position s w u hs hscope hu

/-- A question to the source. -/
theorem ask {request : Cursor.Request} {reply : request.Reply → Except SourceError β}
    (h : ∀ (c d : Cursor) (told : request.Reply) (v : β), c.AtBoundary →
      c.perform request = .ok (told, d) → reply told = .ok v → ∃ cs, P v cs ∧ c.MovesOver cs d) :
    Takes P (Action.ask request >>= fun told => Action.ofSource (reply told)) := by
  intro s v t hs _ ht
  rw [outcome_bind, outcome_ask] at ht
  cases hperform : s.cursor.perform request with
  | error cause =>
    rw [hperform] at ht
    cases ht
  | ok told =>
    obtain ⟨told, d⟩ := told
    rw [hperform] at ht
    dsimp only at ht
    rw [outcome_ofSource] at ht
    cases hreply : reply told with
    | error e =>
      rw [hreply] at ht
      cases ht
    | ok w =>
      rw [hreply] at ht
      cases ht
      exact h _ _ _ _ hs hperform hreply

/-- The characters read are those that are moved over. -/
theorem read (n : Nat) : Takes Eq (Action.read n) :=
  ask fun _ _ _ v hc hperform hreply =>
    ⟨v, rfl, Cursor.movesOver_of_read hc (hreply ▸ hperform)⟩

/-- So it is with one character, if there was one. -/
theorem readChar : Takes (fun found cs => cs = found.toList) Action.readChar :=
  ask fun _ _ _ _ hc hperform hreply =>
    ⟨_, rfl, Cursor.movesOver_of_readChar hc (hreply ▸ hperform)⟩

/-- To ask for the end of input moves over nothing. -/
theorem atEnd : Takes (fun _ cs => cs = []) Action.atEnd :=
  ask fun _ _ _ _ hc hperform hreply =>
    ⟨_, rfl, Cursor.movesOver_of_atEnd hc (Except.ok.inj (hreply ▸ hperform))⟩

/-- What is absorbed takes nothing. -/
theorem recover (hx : Takes P x) (hback : Returns x) :
    Takes (fun found cs => match found with | some v => P v cs | none => cs = [])
      (Action.recover x) := by
  intro s found t hs hscope ht
  cases found with
  | some v => exact hx s v t hs hscope (outcome_of_recover_eq_some ht)
  | none =>
    obtain ⟨f, hf, -⟩ := exists_outcome_of_recover_eq_none ht
    exact ⟨[], rfl, hback s f t hs hscope hf⟩

/-- A cut changes failures only. -/
theorem cut (hx : Takes P x) : Takes P (Action.cut x) := by
  intro s v t hs hscope ht
  rw [outcome_cut] at ht
  split at ht
  · cases ht
  · next w u hu =>
    cases ht
    exact hx s _ _ hs hscope hu
  · cases ht

/-- The trail has no part in it. -/
theorem recorded (label : String) (shape : Shape) (hx : Takes P x) :
    Takes P (Action.recorded label shape x) := by
  intro s v u hs hscope hu
  cases recorded_of_outcome hu with
  | matched ht =>
    obtain ⟨cs, hv, hmoved⟩ := hx (s.entered label shape.anchor) v _ hs hscope ht
    exact ⟨cs, hv, hmoved⟩

/-! ### The ways of matching -/

/-- A text moves over itself. -/
theorem literal (text : String) : Takes (fun _ cs => cs = text.toList) (Action.literal text) := by
  refine .here fun start => (read _).bind fun found cs hcs => ?_
  subst hcs
  by_cases h : found = text.toList
  · rw [if_pos h]
    exact .pure (by rw [List.append_nil, h])
  · rw [if_neg h]
    exact .throw _

/-- A character that satisfies a condition is moved over alone. -/
theorem satisfy (label : String) (condition : Char → Bool) :
    Takes (fun c cs => cs = [c]) (Action.satisfy label condition) := by
  refine .here fun start => readChar.bind fun found cs hcs => ?_
  subst hcs
  rcases found with _ | c
  · exact .throw _
  · by_cases h : condition c
    · simp only [if_pos h]
      exact .pure rfl
    · simp only [if_neg h]
      exact .throw _

end Takes

/-- The values of a list go with the parts of what was moved over. -/
inductive Each (P : β → List Char → Prop) : List β → List Char → Prop
  | nil : Each P [] []
  | cons {v : β} {vs : List β} {cs ds : List Char} : P v cs → Each P vs ds →
    Each P (v :: vs) (cs ++ ds)

/-- After the values in `done`, there are more, and they go with what was moved over. -/
def Adds (P : β → List Char → Prop) (done vs : List β) (cs : List Char) : Prop :=
  ∃ items, vs = done.reverse ++ items ∧ Each P items cs

/-- A loop that ends before its first turn adds nothing to what it has. -/
theorem adds_nil (done : List β) : Adds P done done.reverse [] :=
  ⟨[], (List.append_nil _).symm, .nil⟩

/-- One more value, and then those after it. -/
theorem Adds.cons {done vs : List β} {v : β} {cs ds : List Char} (h : Adds P (v :: done) vs ds)
    (hv : P v cs) : Adds P done vs (cs ++ ds) := by
  obtain ⟨items, rfl, hitems⟩ := h
  refine ⟨v :: items, ?_, .cons hv hitems⟩
  rw [List.reverse_cons, List.append_assoc, List.singleton_append]

namespace Takes

/-- A repetition takes what its items take, one after the other. The turn that fails gives back what
it took. -/
theorem many (hx : Takes P x) (hback : Returns x) (fuel : Nat) (done : List β) :
    Takes (Adds P done) (Action.many x fuel done) := by
  -- By induction on the turns left. The loop ends with what a failed turn gives back.
  induction fuel generalizing done with
  | zero => exact .halt _
  | succ fuel ih =>
    refine atEnd.bind fun finished cs hcs => ?_
    subst hcs
    cases finished with
    | true => exact .pure (adds_nil done)
    | false =>
      refine (hx.recover hback).bind fun found cs hcs => ?_
      cases found with
      | none =>
        subst hcs
        exact .pure (adds_nil done)
      | some v => exact (ih (v :: done)).mono fun vs ds hvs => hvs.cons hcs

/-- A counted repetition does so, too, and has no turn that fails. -/
theorem timesAfter (hx : Takes P x) (n : Nat) (done : List β) :
    Takes (Adds P done) (Action.timesAfter x n done) := by
  induction n generalizing done with
  | zero => exact .pure (adds_nil done)
  | succ n ih => exact hx.bind fun v cs hv => (ih (v :: done)).mono fun vs ds hvs => hvs.cons hv

/-- It begins with no values. -/
theorem times (hx : Takes P x) (n : Nat) : Takes (Adds P []) (Action.times x n) := by
  rw [Action.times]
  split
  · exact hx.timesAfter n []
  · exact .halt _

/-- Alternatives that fail give back what they took, so that the one which matches is all there is.
-/
theorem firstOf (label : String) {arms : List (Action β)}
    (harms : ∀ arm ∈ arms, Takes P arm ∧ Returns arm) : Takes P (Action.firstOf label arms) := by
  induction arms with
  | nil => exact .here fun start => .throw _
  | cons arm arms ih =>
    obtain ⟨harm, hback⟩ := harms arm List.mem_cons_self
    refine (harm.recover hback).bind fun found cs hcs => ?_
    cases found with
    | none =>
      -- The next alternative starts where this one went back to.
      subst hcs
      exact ih fun other hother => harms other (List.mem_cons_of_mem _ hother)
    | some v => exact .pure (by rwa [List.append_nil])

/-- Nothing is taken of what is excluded. -/
theorem butNot (label : String) (hx : Takes P x) (hy : Returns y) :
    Takes P (Action.butNot label x y) := by
  intro s v u hs hscope hu
  rw [Action.butNot, outcome_position_bind, outcome_bind] at hu
  rcases hfound : outcome (Action.recover y) s with halt | ⟨f | found, t⟩
  · rw [hfound] at hu
    cases hu
  · rw [hfound] at hu
    cases hu
  · rw [hfound] at hu
    cases found with
    | none =>
      -- What is excluded has failed and gone back, so the action starts where the whole one does.
      obtain ⟨f, hf, -⟩ := exists_outcome_of_recover_eq_none hfound
      have hst := hy s f t hs hscope hf
      obtain ⟨cs, hv, htu⟩ := hx t v u hst.atBoundary (hst.extended.scopes ▸ hscope) hu
      exact ⟨cs, hv, hst.trans htu⟩
    | some w =>
      -- Where the excluded action matches, the whole one fails.
      simp only [outcome_bind, outcome_returnTo] at hu
      split at hu
      · cases hu
      · cases hu
      · cases hu

end Takes

end Action

/-! ### Values and the texts they spell -/

/-- What a parser that copies yields. -/
inductive Copy where
  /-- A character. -/
  | char
  /-- A text. -/
  | text
  /-- A list of characters or texts. -/
  | list
  /-- Two texts. -/
  | pair

variable {κ α : Type}

/-- The characters that a value of this kind stands for. -/
def Copy.Spells : Copy → Value α → List Char → Prop
  | .char, v, cs => ∃ c, v = .char c ∧ cs = [c]
  | .text, v, cs => ∃ s, v = .text s ∧ cs = s.toList
  | .list, v, cs => ∃ items, v = .list items ∧ cs = (String.join (items.map Value.fragment)).toList
  | .pair, v, cs => ∃ a b, v = .pair (.text a) (.text b) ∧ cs = a.toList ++ b.toList

/-- Characters and texts. -/
def Copy.IsPiece (k : Copy) : Prop :=
  k = .char ∨ k = .text

/-- The fragment of a piece is the text that it spells. -/
theorem Copy.IsPiece.fragment {k : Copy} (hk : k.IsPiece) {v : Value α} {cs : List Char}
    (h : k.Spells v cs) : v.fragment.toList = cs := by
  rcases hk with rfl | rfl
  · obtain ⟨c, rfl, rfl⟩ := h
    exact String.toList_singleton c
  · obtain ⟨s, rfl, rfl⟩ := h
    rfl

/-- A list of pieces spells them one after the other. -/
theorem spells_list {k : Copy} (hk : k.IsPiece) {items : List (Value α)} {cs : List Char}
    (h : Action.Each k.Spells items cs) : Copy.list.Spells (.list items) cs := by
  refine ⟨items, rfl, ?_⟩
  induction h with
  | nil => rfl
  | cons hv _ ih =>
    rw [List.map_cons, String.join_cons, String.toList_append, hk.fragment hv, ← ih]

/-- A list joined into one text. -/
theorem spells_joined {v : Value α} {cs : List Char} (h : Copy.list.Spells v cs) :
    Copy.text.Spells v.joined cs := by
  obtain ⟨items, rfl, rfl⟩ := h
  exact ⟨_, rfl, rfl⟩

/-- Two texts as one. -/
theorem spells_concatenated {v : Value α} {cs : List Char} (h : Copy.pair.Spells v cs) :
    Copy.text.Spells v.concatenated cs := by
  obtain ⟨a, b, rfl, rfl⟩ := h
  exact ⟨_, rfl, String.toList_append.symm⟩

/-! ### Parsers that copy -/

namespace Parser

/-- A parser that yields what it consumes, whatever its label and shape and those of its parts: one
of characters, of texts, of lists of these, or of pairs of texts. What it excludes, and what its
alternatives are tried for, may be anything. -/
inductive Verbatim : Copy → Parser κ α → Prop
  | satisfy {l : String} {n : Bool} {shape : Shape} (name : String) (condition : Char → Bool) :
    Verbatim .char (.mk l n shape (.satisfy name condition))
  | literal {l : String} {n : Bool} {shape : Shape} (text : String) :
    Verbatim .text (.mk l n shape (.literal text))
  | choice {l : String} {n : Bool} {shape : Shape} {k : Copy} {arms : List (Parser κ α)} :
    (∀ arm ∈ arms, Verbatim k arm) → Verbatim k (.mk l n shape (.choice arms))
  | butNot {l : String} {n : Bool} {shape : Shape} {k : Copy} {p : Parser κ α}
    (excluded : Parser κ α) : Verbatim k p → Verbatim k (.mk l n shape (.butNot p excluded))
  | cut {l : String} {n : Bool} {shape : Shape} {k : Copy} {p : Parser κ α} :
    Verbatim k p → Verbatim k (.mk l n shape (.cut p))
  | many {l : String} {n : Bool} {shape : Shape} {k : Copy} {p : Parser κ α} :
    k.IsPiece → Verbatim k p → Verbatim .list (.mk l n shape (.many p))
  | many1 {l : String} {n : Bool} {shape : Shape} {k : Copy} {p : Parser κ α} :
    k.IsPiece → Verbatim k p → Verbatim .list (.mk l n shape (.many1 p))
  | times {l : String} {n : Bool} {shape : Shape} {k : Copy} {p : Parser κ α} (count : Nat) :
    k.IsPiece → Verbatim k p → Verbatim .list (.mk l n shape (.times count p))
  | joined {l : String} {n : Bool} {shape : Shape} {p : Parser κ α} :
    Verbatim .list p → Verbatim .text (.mk l n shape (.map Value.joined p))
  | both {l : String} {n : Bool} {shape : Shape} {p q : Parser κ α} :
    Verbatim .text p → Verbatim .text q → Verbatim .pair (.mk l n shape (.both p q))
  | concatenated {l : String} {n : Bool} {shape : Shape} {p : Parser κ α} :
    Verbatim .pair p → Verbatim .text (.mk l n shape (.map Value.concatenated p))

namespace Verbatim

variable {k : Copy} {p q : Parser κ α}

/-- Whether a parser copies is told from its matcher alone. -/
theorem of_matcher (h : p.Verbatim k) (hq : q.matcher = p.matcher) : q.Verbatim k := by
  obtain ⟨l, n, shape, m⟩ := q
  cases hq
  cases h with
  | satisfy name condition => exact .satisfy name condition
  | literal text => exact .literal text
  | choice harms => exact .choice harms
  | butNot excluded hp => exact .butNot excluded hp
  | cut hp => exact .cut hp
  | many hk hp => exact .many hk hp
  | many1 hk hp => exact .many1 hk hp
  | times count hk hp => exact .times count hk hp
  | joined hp => exact .joined hp
  | both hp hq => exact .both hp hq
  | concatenated hp => exact .concatenated hp

/-- A label has no part in what a parser consumes. -/
theorem withLabel (h : p.Verbatim k) (label : String) : (p.withLabel label).Verbatim k :=
  h.of_matcher (matcher_withLabel label p)

/-- Neither has the shape of its attempts. -/
theorem reshape (h : p.Verbatim k) (f : Shape → Shape) : (p.reshape f).Verbatim k :=
  h.of_matcher (matcher_reshape f p)

/-- The alternatives of a mere list of them copy. -/
theorem of_mem_arms (h : p.Verbatim k) : ∀ arm ∈ p.arms?.getD [p], arm.Verbatim k := by
  intro arm harm
  unfold arms? at harm
  split at harm
  · cases h with
    | choice harms => exact harms arm harm
  · rw [List.mem_singleton.mp harm]
    exact h

/-- Alternatives of the same kind are of that kind, however they are nested. -/
theorem or (hp : p.Verbatim k) (hq : q.Verbatim k) : (p.or q).Verbatim k := by
  refine .choice fun arm harm => ?_
  rcases List.mem_append.mp harm with h | h
  · exact hp.of_mem_arms arm h
  · exact hq.of_mem_arms arm h

/-- One character that a pattern matches. -/
theorem charMatching {pattern : String} (h : charMatching? pattern = some p) :
    p.Verbatim .char := by
  obtain ⟨_, -, rfl⟩ := Option.map_eq_some_iff.mp h
  exact .satisfy _ _

/-- One character of a class in the notation of patterns. -/
theorem charClass {pattern : String} (h : charClass? pattern = some p) : p.Verbatim .char := by
  rw [charClass?] at h
  split at h
  · cases h
    exact .satisfy _ _
  · obtain ⟨_, -, rfl⟩ := Option.map_eq_some_iff.mp h
    exact .satisfy _ _

/-- Runs of digits are read as they stand. -/
theorem digits : (Parser.digits : Parser κ α).Verbatim .text :=
  .joined (.many1 (.inl rfl) (.satisfy _ _))

/-- So are blanks, if there are any. -/
theorem whitespace : (Parser.whitespace : Parser κ α).Verbatim .text :=
  .joined (.many (.inl rfl) (.satisfy _ _))

/-- And so are blanks where one is asked for. -/
theorem whitespace1 : (Parser.whitespace1 : Parser κ α).Verbatim .text :=
  .joined (.many1 (.inl rfl) (.satisfy _ _))

/-- Two texts in sequence are one text. -/
theorem concat (hp : p.Verbatim .text) (hq : q.Verbatim .text) : (p.concat q).Verbatim .text :=
  .concatenated (.both hp hq)

end Verbatim

/-! ### Running parsers that copy -/

section

variable {g : Grammar κ α} (hg : ∀ key, (g.procedures key).RaisesNoReturn)

include hg

/-- Whatever fails goes back. -/
theorem returns_run (fuel : Nat) (p : Parser κ α) : Action.Returns (p.run g fuel) := by
  intro s f t hs hscope ht
  have hagree := alike_run hg fuel p ⟨s.cursor, hs.inBounds, hscope⟩ s _ ⟨rfl, .refl hs.inBounds⟩
  rw [ht] at hagree
  rcases hagree with _ | ⟨-, -, hext⟩
  cases fuel with
  | zero => cases ht
  | succ fuel =>
    -- Nothing is released underneath, so the same position is the same place in the text kept.
    have hposition := position_of_recorded ht
    rw [Cursor.position, Cursor.position, hext.origin] at hposition
    exact Cursor.movesOver_nil hs hext (Nat.add_left_cancel hposition)

/-- What a parser that copies yields spells what it moves over. -/
theorem takes_run (fuel : Nat) {k : Copy} {p : Parser κ α} (hp : p.Verbatim k) :
    Action.Takes k.Spells (p.run g fuel) := by
  -- By induction on fuel. What the parts move over comes together as their values do.
  induction fuel generalizing k p with
  | zero => exact .halt _
  | succ fuel ih =>
    have hback (q : Parser κ α) := returns_run hg fuel q
    rw [Parser.run]
    refine .recorded _ _ ?_
    cases hp with
    | satisfy name condition =>
      exact (Action.Takes.satisfy name condition).map fun c cs hcs => ⟨c, rfl, hcs⟩
    | literal text =>
      refine (Action.Takes.literal text).bind fun _ cs hcs => .pure ⟨text, rfl, ?_⟩
      rw [List.append_nil, hcs]
    | choice harms =>
      refine .firstOf _ fun arm harm => ?_
      obtain ⟨q, hq, rfl⟩ := List.mem_map.mp harm
      exact ⟨ih (harms q hq), hback q⟩
    | butNot excluded hp => exact .butNot _ (ih hp) (hback excluded)
    | cut hp => exact .cut (ih hp)
    | @many _ _ _ _ p hk hp =>
      refine (Action.Takes.many (ih hp) (hback p) fuel []).map fun vs cs hvs => ?_
      obtain ⟨items, rfl, hitems⟩ := hvs
      exact spells_list hk hitems
    | @many1 _ _ _ _ p hk hp =>
      refine (ih hp).bind fun first cs hfirst => ?_
      refine (Action.Takes.many (ih hp) (hback p) fuel [first]).map fun vs ds hvs => ?_
      obtain ⟨items, rfl, hitems⟩ := hvs
      exact spells_list hk (.cons hfirst hitems)
    | times count hk hp =>
      refine (Action.Takes.times (ih hp) count).map fun vs cs hvs => ?_
      obtain ⟨items, rfl, hitems⟩ := hvs
      exact spells_list hk hitems
    | joined hp => exact (ih hp).map fun v cs hv => spells_joined hv
    | both hp hq =>
      refine (ih hp).bind fun v cs hv => (ih hq).bind fun w ds hw => .pure ?_
      obtain ⟨a, rfl, rfl⟩ := hv
      obtain ⟨b, rfl, rfl⟩ := hw
      exact ⟨a, b, rfl, by rw [List.append_nil]⟩
    | concatenated hp => exact (ih hp).map fun v cs hv => spells_concatenated hv

end

end Parser

/-- What a parser of texts yields is the input that it consumes. Wherever such a parser starts
between two characters and matches, it gives the text from there to where it ends. And where it
parses at a cursor in a text, whether read from a source or not, its text and what is left of the
input then are what was left before. -/
theorem value_is_input_consumed {α : Type} (g : Grammar Empty α) (fuel : Nat) (p : Parser Empty α)
    (hp : p.Verbatim .text) :
    (∀ (s : Session) (v : Value α) (t : Session), s.cursor.AtBoundary → 0 < s.cursor.scopes →
      outcome (p.run g fuel) s = .ok (.ok v, t) →
        ∃ text, v = .text text ∧ t.cursor.origin = s.cursor.origin ∧
          Text.slice? t.cursor.text s.cursor.index t.cursor.index = some text.toList) ∧
    ∀ (base : Nat) (before rest : List Char) (c : Cursor), c.Shows base before rest →
      ∀ (config : Config) (v : Value α) (d : Cursor),
        (p.parse g fuel config).run c = .ok (.ok v, d) →
          ∃ text rest', v = .text text ∧ rest = text.toList ++ rest' ∧
            d.Shows base (before ++ text.toList) rest' := by
  have htakes := Parser.takes_run (g := g) (fun key => key.elim) fuel hp
  constructor
  · intro s v t hs hscope ht
    obtain ⟨cs, ⟨text, rfl, rfl⟩, hmoved⟩ := htakes s v t hs hscope ht
    exact ⟨text, rfl, hmoved.extended.origin, hmoved.slice⟩
  · intro base before rest c hc config v d hparse
    obtain ⟨e, hinvoke, rfl⟩ := exists_invoke_of_parse hparse
    -- The parser runs in a scope of its own, and what is released after it moves nothing.
    cases invoked_of_invoke hinvoke with
    | @matched _ t hout =>
      obtain ⟨cs, ⟨text, rfl, rfl⟩, hmoved⟩ := htakes _ _ t hc.atBoundary c.inScope_openScope hout
      have hagree := alike_run_of_sameText g fuel p _ _ _ (together_start hc hc config)
      rw [hout] at hagree
      obtain _ | ⟨-, hend⟩ := hagree
      obtain ⟨before', rest', htext, ht, -⟩ := hend.abreast
      obtain ⟨rfl, hrest⟩ := hmoved.shows (hc.withScopes _) ht htext.symm
      exact ⟨text, rest', rfl, hrest, (ht.withScopes _).release⟩

/-- A word up to an exclamation mark, tried after another that begins alike. -/
def exclaimed : Parser Empty Unit :=
  ((Parser.literal "nx").or
    ((Parser.literal "n").concat (Parser.anyChar.butNot (.literal "!")).many.join.asLeaf)).cut

/-- The example is made of such parsers only. -/
theorem verbatim_exclaimed : exclaimed.Verbatim .text := by
  refine .cut (.or (.literal _) (.concat (.literal _) (.reshape ?_ _)))
  exact .joined (.many (.inl rfl) (.butNot _ (.satisfy _ _)))

/-- The text that a parse yields, if it yields one. -/
def yieldedText? {α : Type} : Except Halt (Except ParseError (Value α) × Cursor) → Option String
  | .ok (.ok (.text text), _) => some text
  | _ => none

/-- Only a parse that matched with a text yields one. -/
theorem exists_of_yieldedText? {α : Type} {o : Except Halt (Except ParseError (Value α) × Cursor)}
    {text : String} (h : yieldedText? o = some text) : ∃ d, o = .ok (.ok (.text text), d) := by
  rw [yieldedText?.eq_def] at h
  split at h
  · cases h
    exact ⟨_, rfl⟩
  · cases h

/-- It reads on where the first word does not match, and looks at the exclamation mark. What it
yields is the word, and the mark is left. -/
theorem value_is_input_consumed_exclaimed :
    ∃ c d : Cursor, c.Shows 0 ['x'] "né!".toList ∧
      (exclaimed.parse ruleless 9 {}).run c = .ok (.ok (.text "né"), d) ∧
      d.Shows 0 "xné".toList ['!'] := by
  have hchecked : yieldedText? ((exclaimed.parse ruleless 9 {}).run
      { text := ['x'] ++ "né!".toList, index := Text.byteLength ['x'] }) = some "né" := by
    decide +kernel
  obtain ⟨d, hparse⟩ := exists_of_yieldedText? hchecked
  have hc := Cursor.shows_between ['x'] "né!".toList
  obtain ⟨-, hparses⟩ := value_is_input_consumed ruleless 9 exclaimed verbatim_exclaimed
  obtain ⟨text, rest, hvalue, hrest, hd⟩ := hparses 0 ['x'] _ _ hc {} _ d hparse
  cases hvalue
  have hsplit : "né!".toList = "né".toList ++ ['!'] := by decide
  have hleft : rest = ['!'] := List.append_cancel_left (hrest.symm.trans hsplit)
  exact ⟨_, d, hc, hparse, hleft ▸ hd⟩

end ParseTrail
