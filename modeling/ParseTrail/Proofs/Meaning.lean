import ParseTrail.Grammar
import ParseTrail.Limits
import ParseTrail.Parser.Catalog

/-!
# The meaning of parsers

What a parser means, said of the list of characters that remain and of nothing else. There is no
cursor in it and nothing to return to, no label and no trail: `Means rules m input o` says that in
front of `input` the matcher `m` comes to the outcome `o`, by rules that follow the syntax of
matchers.

A parser that goes on for ever, or that comes to a rule without a definition, has no meaning.
Neither have hand-written procedures, which see more than the remaining characters.
-/

namespace ParseTrail

/-- What matching comes to. -/
inductive Verdict (β : Type) where
  /-- A value, and what remains after what was matched. -/
  | matched (v : β) (rest : List Char)
  /-- No match. The failure stands where `place` remained; if it is committed, nothing else may be
  tried. -/
  | refused (committed : Bool) (place : List Char)

namespace Verdict

variable {β γ : Type}

/-- The same verdict on another value. -/
def map (f : β → γ) : Verdict β → Verdict γ
  | matched v rest => matched (f v) rest
  | refused committed place => refused committed place

@[simp]
theorem map_matched (f : β → γ) (v : β) (rest : List Char) :
    (matched v rest).map f = matched (f v) rest := rfl

@[simp]
theorem map_refused (f : β → γ) (committed : Bool) (place : List Char) :
    (refused committed place).map f = refused committed place := rfl

end Verdict

/-- A list with a value before its items. -/
def Value.prepend {α : Type} (v : Value α) : Value α → Value α
  | list vs => list (v :: vs)
  | w => w

open Verdict

/-- What matchers come to in front of an input. -/
inductive Means {κ α : Type} (rules : Nat → Rule κ α) :
    Matcher κ α → List Char → Verdict (Value α) → Prop
  /- Characters. -/
  | literal {s : String} {rest : List Char} :
    Means rules (.literal s) (s.toList ++ rest) (matched (.text s) rest)
  | literal_refused {s : String} {input : List Char} :
    ¬s.toList <+: input → Means rules (.literal s) input (refused false input)
  | satisfy {label : String} {condition : Char → Bool} {c : Char} {rest : List Char} :
    condition c → Means rules (.satisfy label condition) (c :: rest) (matched (.char c) rest)
  | satisfy_refused {label : String} {condition : Char → Bool} {c : Char} {rest : List Char} :
    ¬condition c →
      Means rules (.satisfy label condition) (c :: rest) (refused false (c :: rest))
  | satisfy_end {label : String} {condition : Char → Bool} :
    Means rules (.satisfy label condition) [] (refused false [])
  | ending : Means rules .ending [] (matched .unit [])
  | ending_refused {c : Char} {rest : List Char} :
    Means rules .ending (c :: rest) (refused false (c :: rest))
  | succeed {v : Value α} {input : List Char} : Means rules (.succeed v) input (matched v input)
  | refuse {label : String} {input : List Char} :
    Means rules (.refuse label) input (refused false input)
  /- Repetition. It stops where nothing remains, and where the next item is refused. -/
  | many_end {p : Parser κ α} : Means rules (.many p) [] (matched (.list []) [])
  | many_stop {p : Parser κ α} {input place : List Char} :
    input ≠ [] → Means rules p.matcher input (refused false place) →
      Means rules (.many p) input (matched (.list []) input)
  | many_committed {p : Parser κ α} {input place : List Char} :
    input ≠ [] → Means rules p.matcher input (refused true place) →
      Means rules (.many p) input (refused true place)
  | many_next {p : Parser κ α} {input rest : List Char} {v : Value α} {o : Verdict (Value α)} :
    input ≠ [] → Means rules p.matcher input (matched v rest) → Means rules (.many p) rest o →
      Means rules (.many p) input (o.map v.prepend)
  | many1 {p : Parser κ α} {input rest : List Char} {v : Value α} {o : Verdict (Value α)} :
    Means rules p.matcher input (matched v rest) → Means rules (.many p) rest o →
      Means rules (.many1 p) input (o.map v.prepend)
  | many1_refused {p : Parser κ α} {input place : List Char} {committed : Bool} :
    Means rules p.matcher input (refused committed place) →
      Means rules (.many1 p) input (refused committed place)
  | times_zero {p : Parser κ α} {input : List Char} :
    Means rules (.times 0 p) input (matched (.list []) input)
  | times_next {p : Parser κ α} {n : Nat} {input rest : List Char} {v : Value α}
      {o : Verdict (Value α)} :
    n + 1 < listLimit → Means rules p.matcher input (matched v rest) →
      Means rules (.times n p) rest o → Means rules (.times (n + 1) p) input (o.map v.prepend)
  | times_refused {p : Parser κ α} {n : Nat} {input place : List Char} {committed : Bool} :
    n + 1 < listLimit → Means rules p.matcher input (refused committed place) →
      Means rules (.times (n + 1) p) input (refused committed place)
  | optional {p : Parser κ α} {input rest : List Char} {v : Value α} :
    Means rules p.matcher input (matched v rest) →
      Means rules (.optional p) input (matched (.present v) rest)
  | optional_absent {p : Parser κ α} {input place : List Char} :
    Means rules p.matcher input (refused false place) →
      Means rules (.optional p) input (matched .absent input)
  | optional_committed {p : Parser κ α} {input place : List Char} :
    Means rules p.matcher input (refused true place) →
      Means rules (.optional p) input (refused true place)
  /- Items with separators. After an item comes, as often as it goes, a separator with an item. -/
  | sepBy_end {p separator : Parser κ α} : Means rules (.sepBy p separator) [] (matched (.list []) [])
  | sepBy_none {p separator : Parser κ α} {input place : List Char} :
    input ≠ [] → Means rules p.matcher input (refused false place) →
      Means rules (.sepBy p separator) input (matched (.list []) input)
  | sepBy_committed {p separator : Parser κ α} {input place : List Char} :
    input ≠ [] → Means rules p.matcher input (refused true place) →
      Means rules (.sepBy p separator) input (refused true place)
  | sepBy_some {p separator : Parser κ α} {input rest : List Char} {v : Value α}
      {o : Verdict (Value α)} :
    input ≠ [] → Means rules p.matcher input (matched v rest) →
      Means rules (.many (separator.andThen p)) rest o →
        Means rules (.sepBy p separator) input (o.map v.prepend)
  | sepBy1 {p separator : Parser κ α} {input rest : List Char} {v : Value α}
      {o : Verdict (Value α)} :
    Means rules p.matcher input (matched v rest) →
      Means rules (.many (separator.andThen p)) rest o →
        Means rules (.sepBy1 p separator) input (o.map v.prepend)
  | sepBy1_refused {p separator : Parser κ α} {input place : List Char} {committed : Bool} :
    Means rules p.matcher input (refused committed place) →
      Means rules (.sepBy1 p separator) input (refused committed place)
  /- Alternatives and lookahead. -/
  | choice_nil {input : List Char} : Means rules (.choice []) input (refused false input)
  | choice_first {arm : Parser κ α} {arms : List (Parser κ α)} {input rest : List Char}
      {v : Value α} :
    Means rules arm.matcher input (matched v rest) →
      Means rules (.choice (arm :: arms)) input (matched v rest)
  | choice_committed {arm : Parser κ α} {arms : List (Parser κ α)} {input place : List Char} :
    Means rules arm.matcher input (refused true place) →
      Means rules (.choice (arm :: arms)) input (refused true place)
  | choice_next {arm : Parser κ α} {arms : List (Parser κ α)} {input place : List Char}
      {o : Verdict (Value α)} :
    Means rules arm.matcher input (refused false place) → Means rules (.choice arms) input o →
      Means rules (.choice (arm :: arms)) input o
  | cut {p : Parser κ α} {input rest : List Char} {v : Value α} :
    Means rules p.matcher input (matched v rest) → Means rules (.cut p) input (matched v rest)
  | cut_refused {p : Parser κ α} {input place : List Char} {committed : Bool} :
    Means rules p.matcher input (refused committed place) →
      Means rules (.cut p) input (refused true place)
  | lookahead {p : Parser κ α} {input rest : List Char} {v : Value α} :
    Means rules p.matcher input (matched v rest) →
      Means rules (.lookahead p) input (matched v input)
  | lookahead_refused {p : Parser κ α} {input place : List Char} {committed : Bool} :
    Means rules p.matcher input (refused committed place) →
      Means rules (.lookahead p) input (refused committed place)
  | butNot {p excluded : Parser κ α} {input place : List Char} {o : Verdict (Value α)} :
    Means rules excluded.matcher input (refused false place) → Means rules p.matcher input o →
      Means rules (.butNot p excluded) input o
  | butNot_excluded {p excluded : Parser κ α} {input rest : List Char} {v : Value α} :
    Means rules excluded.matcher input (matched v rest) →
      Means rules (.butNot p excluded) input (refused false input)
  | butNot_committed {p excluded : Parser κ α} {input place : List Char} :
    Means rules excluded.matcher input (refused true place) →
      Means rules (.butNot p excluded) input (refused true place)
  /- Sequences. -/
  | andThen {p q : Parser κ α} {input rest : List Char} {v : Value α} {o : Verdict (Value α)} :
    Means rules p.matcher input (matched v rest) → Means rules q.matcher rest o →
      Means rules (.andThen p q) input o
  | andThen_refused {p q : Parser κ α} {input place : List Char} {committed : Bool} :
    Means rules p.matcher input (refused committed place) →
      Means rules (.andThen p q) input (refused committed place)
  | before {p q : Parser κ α} {input rest : List Char} {v : Value α} {o : Verdict (Value α)} :
    Means rules p.matcher input (matched v rest) → Means rules q.matcher rest o →
      Means rules (.before p q) input (o.map fun _ => v)
  | before_refused {p q : Parser κ α} {input place : List Char} {committed : Bool} :
    Means rules p.matcher input (refused committed place) →
      Means rules (.before p q) input (refused committed place)
  | both {p q : Parser κ α} {input rest : List Char} {v : Value α} {o : Verdict (Value α)} :
    Means rules p.matcher input (matched v rest) → Means rules q.matcher rest o →
      Means rules (.both p q) input (o.map (.pair v))
  | both_refused {p q : Parser κ α} {input place : List Char} {committed : Bool} :
    Means rules p.matcher input (refused committed place) →
      Means rules (.both p q) input (refused committed place)
  | between {opening closing p : Parser κ α} {input rest : List Char} {v : Value α}
      {o : Verdict (Value α)} :
    Means rules opening.matcher input (matched v rest) → Means rules (.before p closing) rest o →
      Means rules (.between opening closing p) input o
  | between_refused {opening closing p : Parser κ α} {input place : List Char}
      {committed : Bool} :
    Means rules opening.matcher input (refused committed place) →
      Means rules (.between opening closing p) input (refused committed place)
  /- Values. A rejection stands where the rejected text began. -/
  | map {f : Value α → Value α} {p : Parser κ α} {input : List Char} {o : Verdict (Value α)} :
    Means rules p.matcher input o → Means rules (.map f p) input (o.map f)
  | tryMap {f : Value α → Except String (Value α)} {p : Parser κ α} {input rest : List Char}
      {v w : Value α} :
    Means rules p.matcher input (matched v rest) → f v = .ok w →
      Means rules (.tryMap f p) input (matched w rest)
  | tryMap_rejected {f : Value α → Except String (Value α)} {p : Parser κ α}
      {input rest : List Char} {v : Value α} {reason : String} :
    Means rules p.matcher input (matched v rest) → f v = .error reason →
      Means rules (.tryMap f p) input (refused false input)
  | tryMap_refused {f : Value α → Except String (Value α)} {p : Parser κ α}
      {input place : List Char} {committed : Bool} :
    Means rules p.matcher input (refused committed place) →
      Means rules (.tryMap f p) input (refused committed place)
  /- Rules unfold to their definition. -/
  | rule {key : Nat} {p : Parser κ α} {input : List Char} {o : Verdict (Value α)} :
    rules key = .defined p → Means rules p.matcher input o → Means rules (.rule key) input o

end ParseTrail
