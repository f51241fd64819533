import ParseTrail.Proofs.Outcome
import ParseTrail.Proofs.Text.Counted
import ParseTrail.Reading

/-!
# Bookmarks in a plain text

A bookmark is a place in a text that is there as a whole, told by the number of characters before
it. It answers what a cursor answers, from the characters alone: there is no source to pull from and
nothing is dropped. It only remembers where the text kept would begin, and how many scopes are open.

- `Bookmark.answer`: what an operation answers, and the bookmark after it;
- `Bookmark.Script`: operations one after the other, with speculation around some of them;
- `Bookmark.Script.told`: what a script tells at a bookmark.
-/

namespace ParseTrail

/-- A place in a text. -/
structure Bookmark where
  /-- The whole text. -/
  text : List Char
  /-- The number of characters before the place. -/
  index : Nat := 0
  /-- The number of characters before the text that counts as kept. -/
  first : Nat := 0
  /-- The number of open scopes. -/
  scopes : Nat := 0
  deriving DecidableEq, Repr

namespace Bookmark

/-- The start of a text. -/
def start (text : String) : Bookmark :=
  { text := text.toList }

/-- The number of bytes before the place after `n` characters. -/
def offsetOf (m : Bookmark) (n : Nat) : Nat :=
  Text.byteLength (m.text.take n)

/-- The offset of the bookmark. -/
def position (m : Bookmark) : Nat :=
  m.offsetOf m.index

/-- The offset where the text kept begins. -/
def origin (m : Bookmark) : Nat :=
  m.offsetOf m.first

/-- The line that holds the place after `n` characters. -/
def lineOf (m : Bookmark) (n : Nat) : Line :=
  let begin := Text.lineStart m.text n
  let line := Text.firstLine (m.text.drop begin)
  { number := (m.text.take n).count '\n' + 1
    span := ⟨m.offsetOf begin, m.offsetOf begin + Text.byteLength line⟩
    text := String.ofList line }

def openScope (m : Bookmark) : Bookmark :=
  { m with scopes := m.scopes + 1 }

def closeScope (m : Bookmark) : Bookmark :=
  { m with scopes := m.scopes - 1 }

/-- The bookmark after a speculation that began at `m` and got to `inner`. -/
def leave (m : Bookmark) (accepted : Bool) (inner : Bookmark) : Bookmark :=
  (if accepted then inner else { inner with index := m.index }).closeScope

/-! ### Operations -/

/-- An operation. -/
inductive Query where
  | read (n : Nat)
  | readChar
  | peek (n : Nat)
  | atEnd
  | restore (n : Nat)
  | restoreTo (offset : Nat)
  | release
  | lineNumber
  | column
  | currentLine
  | lineAt (offset : Nat)

/-- What an operation answers. -/
inductive Answer where
  | chars (cs : List Char)
  | char (c : Option Char)
  | ended (atEnd : Bool)
  /-- There is nothing to tell. -/
  | done
  | number (n : Nat)
  | line (line : Line)
  /-- The source failed. A bookmark has none and never answers so. -/
  | failed (e : SourceError)
  deriving DecidableEq, Repr

/-- What an operation answers at a bookmark, and the bookmark after it. -/
def answer (m : Bookmark) : Query → Except Fault (Answer × Bookmark)
  | .read n => .ok (.chars ((m.text.drop m.index).take n),
      { m with index := min (m.index + n) m.text.length })
  | .readChar => .ok (.char m.text[m.index]?,
      { m with index := min (m.index + 1) m.text.length })
  | .peek n => .ok (.chars ((m.text.drop m.index).take n), m)
  | .atEnd => .ok (.ended (m.index == m.text.length), m)
  | .restore n =>
    if n ≤ m.index - m.first then .ok (.done, { m with index := m.index - n })
    else .error (.restorePastStart m.origin)
  | .restoreTo offset => .ok (.done, { m with index := Text.charsWithin m.text offset })
  | .release =>
    if m.scopes = 0 then .ok (.done, { m with first := Text.lineStart m.text m.index })
    else .ok (.done, m)
  | .lineNumber => .ok (.number ((m.text.take m.index).count '\n' + 1), m)
  | .column => .ok (.number (m.index - Text.lineStart m.text m.index + 1), m)
  | .currentLine => .ok (.line (m.lineOf m.index), m)
  | .lineAt offset => .ok (.line (m.lineOf (Text.charsWithin m.text offset)), m)

/-- Whether an operation is used as it is meant to be. One goes back to an offset where one was
before, unless that was dropped, and asks for the lines up to the present one. -/
def allows (m : Bookmark) (past : List Nat) : Query → Bool
  | .restoreTo offset => decide (offset ∈ past ∧ m.origin ≤ offset)
  | .lineAt offset => decide (m.origin ≤ offset ∧ offset ≤ m.position)
  | _ => true

/-! ### Scripts -/

/-- Operations one after the other. A speculation is a script within a scope of its own; it is
accepted, or one goes back to where it began. -/
inductive Script where
  | done
  | ask (query : Query) (rest : Script)
  | speculate (accepted : Bool) (body rest : Script)

/-- A moment of a script: an answer, and the state after it. -/
abbrev Moment (σ : Type) :=
  Answer × σ

namespace Script

/-- What a script tells at a bookmark: all its moments, and the bookmark after it. -/
def told : Script → Bookmark → Except Fault (List (Moment Bookmark) × Bookmark)
  | done, m => return ([], m)
  | ask query rest, m => do
    let (a, next) ← m.answer query
    let (log, last) ← rest.told next
    return ((a, next) :: log, last)
  | speculate accepted body rest, m => do
    let (inside, inner) ← body.told m.openScope
    let (log, last) ← rest.told (m.leave accepted inner)
    return (inside ++ (.done, m.leave accepted inner) :: log, last)

/-- Whether all operations of a script are used as they are meant to be, where `past` holds the
offsets that the bookmark had before. -/
def fair : Script → List Nat → Bookmark → Bool
  | done, _, _ => true
  | ask query rest, past, m =>
    m.allows (m.position :: past) query &&
      match m.answer query with
      | .ok (_, next) => rest.fair (m.position :: past) next
      | .error _ => true
  | speculate accepted body rest, past, m =>
    body.fair (m.position :: past) m.openScope &&
      match body.told m.openScope with
      | .ok (inside, inner) =>
        rest.fair (inside.map (·.2.position) ++ m.position :: past) (m.leave accepted inner)
      | .error _ => true

end Script

variable {m next last inner : Bookmark} {query : Query} {a : Answer} {body rest : Script}
  {inside : List (Moment Bookmark)} {cause : Fault} {accepted : Bool}

namespace Script

/-- A query that has an answer is told before the rest. -/
theorem told_ask (h : m.answer query = .ok (a, next)) :
    (ask query rest).told m =
      (rest.told next).map fun toldRest => ((a, next) :: toldRest.1, toldRest.2) := by
  rw [told, h]
  rfl

/-- A query that faults is the end. -/
theorem told_ask_error (h : m.answer query = .error cause) :
    (ask query rest).told m = .error cause := by
  rw [told, h]
  rfl

/-- A speculation is told from inside, then where it leaves the bookmark, and then the rest. -/
theorem told_speculate (h : body.told m.openScope = .ok (inside, inner)) :
    (speculate accepted body rest).told m =
      (rest.told (m.leave accepted inner)).map fun toldRest =>
        (inside ++ (.done, m.leave accepted inner) :: toldRest.1, toldRest.2) := by
  rw [told, h]
  rfl

/-- So is a fault inside a speculation. -/
theorem told_speculate_error (h : body.told m.openScope = .error cause) :
    (speculate accepted body rest).told m = .error cause := by
  rw [told, h]
  rfl

end Script

/-! ### What scripts keep -/

/-- What stays the same from a bookmark to one after it. Text is dropped outside all scopes only. -/
structure Precedes (m next : Bookmark) : Prop where
  text : next.text = m.text
  scopes : next.scopes = m.scopes
  first : 0 < m.scopes → next.first = m.first

namespace Precedes

/-- A bookmark precedes itself. -/
theorem refl (m : Bookmark) : m.Precedes m :=
  ⟨rfl, rfl, fun _ => rfl⟩

/-- What precedes a bookmark precedes all that come after it. -/
theorem trans (h : m.Precedes next) (h' : next.Precedes last) : m.Precedes last where
  text := h'.text.trans h.text
  scopes := h'.scopes.trans h.scopes
  first := fun hscope => (h'.first (h.scopes ▸ hscope)).trans (h.first hscope)

/-- To move in the text drops nothing of it. -/
theorem withIndex (m : Bookmark) (k : Nat) : m.Precedes { m with index := k } :=
  ⟨rfl, rfl, fun _ => rfl⟩

/-- To answer a query keeps the text, and inside scopes all that is held on to. -/
theorem answer (h : m.answer query = .ok (a, next)) : m.Precedes next := by
  cases query with
  | restore n =>
    rw [Bookmark.answer] at h
    split at h
    · cases h
      exact withIndex m _
    · cases h
  | release =>
    rw [Bookmark.answer] at h
    split at h
    · next hscopes =>
      cases h
      exact ⟨rfl, rfl, fun hscope => absurd hscopes (Nat.ne_of_gt hscope)⟩
    · cases h
      exact refl m
  | _ =>
    cases h
    exact withIndex m _

/-- What happens in a scope leaves nothing behind but where it ends, if it is accepted. -/
theorem leave (accepted : Bool) (h : m.openScope.Precedes next) :
    m.Precedes (m.leave accepted next) := by
  have hfirst : next.first = m.first := h.first (Nat.succ_pos _)
  have hscopes : next.scopes = m.scopes + 1 := h.scopes
  have hclose {k : Nat} : m.Precedes { next with index := k, scopes := next.scopes - 1 } :=
    ⟨h.text, by simp only [hscopes, Nat.add_sub_cancel], fun _ => hfirst⟩
  cases accepted with
  | true => exact hclose
  | false => exact hclose

end Precedes

end Bookmark

end ParseTrail
