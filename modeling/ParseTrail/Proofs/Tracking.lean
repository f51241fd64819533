import Mathlib.Data.List.Forall2
import ParseTrail.Proofs.Bookmark
import ParseTrail.Proofs.Cursor.Back
import ParseTrail.Proofs.Positions

/-!
# Cursors as bookmarks

A cursor pulls its text from a source, counts in bytes, and drops what it no longer needs. A
bookmark does nothing of this. Whatever is asked of both, and whichever part of it is speculation,
they answer the same, stand at the same offset, and keep text from the same offset on.

- `Marks.answer`: the two answer an operation alike, and correspond again afterwards;
- `Marks.plays`: a script keeps the correspondence, with what was told before in front of the rest;
- `cursor_tracks_bookmark`: so they do at every moment of a script.
-/

namespace ParseTrail

open Bookmark (Query Answer Script Moment)

/-! ### Operations and scripts at a cursor -/

/-- What a source gave, as an answer. -/
def Bookmark.Answer.ofSource {β : Type} (f : β → Answer) : Except SourceError β → Answer
  | .ok b => f b
  | .error e => .failed e

/-- An operation of a cursor. -/
def Bookmark.Query.reading : Query → Reading Answer
  | .read n => .ofSource .chars <$> Reading.ask (.read n)
  | .readChar => .ofSource .char <$> Reading.ask .readChar
  | .peek n => .ofSource .chars <$> Reading.ask (.peek n)
  | .atEnd => .ofSource .ended <$> Reading.ask .atEnd
  | .restore n => (fun _ => .done) <$> Reading.ask (.restore n)
  | .restoreTo offset => (fun _ => .done) <$> Reading.ask (.restoreTo offset)
  | .release => (fun _ => .done) <$> Reading.ask .release
  | .lineNumber => (.number ·.lineNumber) <$> Reading.ask .inspect
  | .column => .number <$> Reading.ask .column
  | .currentLine => do .ofSource .line <$> Reading.ask (.lineAt (← Reading.position))
  | .lineAt offset => .ofSource .line <$> Reading.ask (.lineAt offset)

/-- A script at the cursor of a session, with all its moments. -/
def Bookmark.Script.play : Script → Action (List (Moment Cursor))
  | done => return []
  | ask query rest => do
    let a ← Action.ofReading query.reading
    let s ← get
    let log ← rest.play
    return (a, s.cursor) :: log
  | speculate accepted body rest => do
    let inside ← Action.ofAttempt (← Action.speculate (fun _ => accepted) body.play)
    let s ← get
    let log ← rest.play
    return inside ++ (.done, s.cursor) :: log

section

variable {c d : Cursor} {cause : Fault} {r : Cursor.Request} {reply : r.Reply} {a : Answer}
  {query : Query} {body rest : Script} {s t : Session} {inside log : List (Moment Cursor)}

/-- What an operation tells is passed on through the function. -/
theorem run_map_ask (h : c.perform r = .ok (reply, d)) (f : r.Reply → Answer) :
    (f <$> Reading.ask r).run c = .ok (f reply, d) := by
  change (do let (reply, d) ← Halt.check (c.perform r); _ : Except Halt (Answer × Cursor)) = _
  rw [h]
  rfl

/-- A fault is passed on as it is. -/
theorem run_map_ask_error (h : c.perform r = .error cause) (f : r.Reply → Answer) :
    (f <$> Reading.ask r).run c = .error (.fault cause) := by
  change (do let (reply, d) ← Halt.check (c.perform r); _ : Except Halt (Answer × Cursor)) = _
  rw [h]
  rfl

/-- A query that has an answer is played by noting the answer and going on. -/
theorem outcome_play_ask (h : query.reading.run s.cursor = .ok (a, d)) :
    outcome (Script.ask query rest).play s =
      outcome (((a, d) :: ·) <$> rest.play) { s with cursor := d } := by
  rw [Script.play, outcome_bind, outcome_ofReading, h]
  rfl

/-- A query that faults ends the play. -/
theorem outcome_play_ask_error (h : query.reading.run s.cursor = .error (.fault cause)) :
    outcome (Script.ask query rest).play s = .error (.fault cause) := by
  rw [Script.play, outcome_bind, outcome_ofReading, h]

/-- A script does not fail, so a speculation ends as it says itself. -/
theorem outcome_play_speculate (accepted : Bool)
    (h : outcome body.play { s with cursor := s.cursor.openScope } = .ok (.ok inside, t))
    (hd : if accepted then t.cursor.closeScope = d else
      t.cursor.closeScope.returnTo s.cursor.position = .ok d) :
    outcome (Script.speculate accepted body rest).play s =
      outcome ((fun log => inside ++ (.done, d) :: log) <$> rest.play) { t with cursor := d } := by
  have hspeculate : outcome (Action.speculate (fun _ => accepted) body.play) s =
      .ok (.ok (.ok inside), { t with cursor := d }) := by
    rw [outcome_speculate, h]
    cases accepted with
    | true =>
      rw [← show t.cursor.closeScope = d from hd]
      rfl
    | false =>
      have hreturn : t.cursor.closeScope.returnTo s.cursor.position = .ok d := hd
      simp only [accepts, hreturn]
      rfl
  rw [Script.play, outcome_bind, hspeculate]
  rfl

/-- A fault inside a speculation ends the play, whether or not the speculation was to be accepted.
-/
theorem outcome_play_speculate_error (accepted : Bool)
    (h : outcome body.play { s with cursor := s.cursor.openScope } = .error (.fault cause)) :
    outcome (Script.speculate accepted body rest).play s = .error (.fault cause) := by
  rw [Script.play, outcome_bind, outcome_speculate, h]

end

/-! ### Correspondence -/

/-- The line around an offset of the text, told from the characters. -/
theorem Bookmark.around_eq (m : Bookmark) (offset : Nat) :
    Line.around 0 m.text offset = m.lineOf (Text.charsWithin m.text offset) := by
  obtain ⟨terminator, rest, hon⟩ :=
    Text.exists_onLine_take (Text.charsWithin_le_length m.text offset)
  -- Rounding down is done once more on one side, where it makes no difference.
  have hfloor : Line.around 0 m.text offset =
      Line.around 0 m.text (Text.byteLength (m.text.take (Text.charsWithin m.text offset))) := by
    have hsame := Text.floorBoundary_byteLength_append
      (m.text.take (Text.charsWithin m.text offset)) (m.text.drop (Text.charsWithin m.text offset))
    rw [List.take_append_drop] at hsame
    rw [Line.around, Line.around, Nat.sub_zero, Nat.sub_zero, hsame,
      Text.byteLength_take_charsWithin]
  have hnumber := hon.newlines_startingBefore
  have hbefore := Text.startingBefore_byteLength_append
    (m.text.take (Text.charsWithin m.text offset)) (m.text.drop (Text.charsWithin m.text offset))
  rw [List.take_append_drop] at hbefore
  rw [hbefore] at hnumber
  rw [hfloor, Line.around_eq hon, ← hnumber]
  rfl

/-- A cursor stands where a bookmark does, keeps text from where it says, and is at a boundary
between two characters of the text kept. -/
structure Cursor.Tracks (c : Cursor) (m : Bookmark) : Prop where
  position : c.position = m.position
  origin : c.origin = m.origin
  scopes : c.scopes = m.scopes
  boundary : Text.isBoundary c.text c.index = true

/-- A cursor shows the text of a bookmark from where that stands. -/
structure Cursor.Marks (c : Cursor) (m : Bookmark) : Prop where
  shows : c.Shows 0 (m.text.take m.index) (m.text.drop m.index)
  origin : c.origin = m.origin
  scopes : c.scopes = m.scopes
  first_le : m.first ≤ m.index
  index_le : m.index ≤ m.text.length

/-- The offsets `past` are boundaries of the text, and what lies before them was pulled. -/
def Cursor.Reached (c : Cursor) (m : Bookmark) (past : List Nat) : Prop :=
  ∀ offset ∈ past, ∃ k ≤ m.text.length, offset = m.offsetOf k ∧ offset ≤ c.origin + c.buffered

/-- A cursor at the start of a text: of a text given as a whole, of a reader with some capacity, or
of a source that can seek and stands at its start. -/
inductive Cursor.Begins (text : String) : Cursor → Prop
  | ofText : Begins text (.ofText text)
  | ofReader {capacity : Nat} {src : Source} {c : Cursor} : src.Delivers text.toList →
    Cursor.ofReader capacity src = .ok c → Begins text c
  | ofSource {src : Source} : src.Delivers text.toList → Begins text (.ofSource src 0)

namespace Cursor

variable {c d : Cursor} {m next : Bookmark} {query : Query} {a : Answer} {past more : List Nat}
  {text : String} {k : Nat}

/-- Where the text kept has a boundary, that is a boundary. -/
theorem Shows.isBoundary {base : Nat} {before rest : List Char} (h : c.Shows base before rest) :
    Text.isBoundary c.text c.index = true := by
  obtain ⟨gone, kept, near, far, hparts, -, -⟩ := h
  rw [Text.isBoundary, hparts.text, hparts.index, Text.dropBytes?_byteLength_append]
  rfl

namespace Marks

/-- The cursor stands where the bookmark says. -/
theorem position (h : c.Marks m) : c.position = m.position :=
  h.shows.position.trans (Nat.zero_add _)

/-- Cursor and bookmark agree on all that they tell of themselves. -/
theorem tracks (h : c.Marks m) : c.Tracks m :=
  ⟨h.position, h.origin, h.scopes, h.shows.isBoundary⟩

/-- What the bookmark holds on to is part of its text. -/
theorem first_le_length (h : c.Marks m) : m.first ≤ m.text.length :=
  Nat.le_trans h.first_le h.index_le

/-- Both open a scope. -/
theorem openScope (h : c.Marks m) : c.openScope.Marks m.openScope where
  shows := h.shows.withScopes _
  origin := h.origin
  scopes := congrArg (· + 1) h.scopes
  first_le := h.first_le
  index_le := h.index_le

/-- Both close one. -/
theorem closeScope (h : c.Marks m) : c.closeScope.Marks m.closeScope where
  shows := h.shows.withScopes _
  origin := h.origin
  scopes := congrArg (· - 1) h.scopes
  first_le := h.first_le
  index_le := h.index_le

/-- The cursor may have moved and pulled text, and then shows the same text from another place. -/
theorem withIndex (h : c.Marks m) (hext : c.Extends d)
    (hshows : d.Shows 0 (m.text.take k) (m.text.drop k)) (hfirst : m.first ≤ k)
    (hlast : k ≤ m.text.length) : d.Marks { m with index := k } where
  shows := hshows
  origin := hext.origin.trans h.origin
  scopes := hext.scopes.trans h.scopes
  first_le := hfirst
  index_le := hlast

/-- A place that was not dropped can be moved to. -/
theorem moveTo (h : c.Marks m) (hfirst : m.first ≤ k) (hlast : k ≤ m.text.length)
    (hreached : m.offsetOf k ≤ c.origin + c.buffered) :
    c.origin ≤ m.offsetOf k ∧
      ({ c with index := m.offsetOf k - c.origin } : Cursor).Marks { m with index := k } := by
  have horigin : c.origin ≤ 0 + Text.byteLength (m.text.take k) := by
    rw [h.origin, Nat.zero_add]
    exact Text.byteLength_take_le m.text hfirst
  have hmoved : ({ c with index := 0 + m.offsetOf k - c.origin } : Cursor).Shows 0
      (m.text.take k) (m.text.drop k) :=
    h.shows.moveTo (by rw [List.take_append_drop, List.take_append_drop]) horigin
      (by rw [Nat.zero_add]; exact hreached)
  rw [Nat.zero_add] at horigin hmoved
  exact ⟨horigin, hmoved, h.origin, h.scopes, hfirst, hlast⟩

end Marks

namespace Reached

/-- Offsets passed in a text that stays and grows are passed there still. -/
theorem mono (h : c.Reached m past) (htext : next.text = m.text)
    (hend : c.origin + c.buffered ≤ d.origin + d.buffered) : d.Reached next past := by
  intro offset hoffset
  obtain ⟨k, hk, rfl, hle⟩ := h offset hoffset
  refine ⟨k, htext ▸ hk, ?_, Nat.le_trans hle hend⟩
  rw [Bookmark.offsetOf, Bookmark.offsetOf, htext]

/-- Where the cursor stands counts as passed. -/
theorem cons (h : c.Reached m past) (hm : c.Marks m) : c.Reached m (m.position :: past) := by
  intro offset hoffset
  rcases List.mem_cons.mp hoffset with rfl | hmem
  · have hbounds : c.index ≤ c.buffered := hm.shows.inBounds
    refine ⟨m.index, hm.index_le, rfl, ?_⟩
    rw [← hm.position, Cursor.position]
    omega
  · exact h offset hmem

/-- Offsets passed on two ways are all passed. -/
theorem append (h : c.Reached m past) (h' : c.Reached m more) : c.Reached m (past ++ more) :=
  fun offset hoffset => (List.mem_append.mp hoffset).elim (h offset) (h' offset)

end Reached

/-! ### Operations answer alike -/

/-- The cursor has come to where a bookmark is now, and keeps its text up to where it did. -/
def Arrives (c d : Cursor) (next : Bookmark) : Prop :=
  d.Marks next ∧ c.origin + c.buffered ≤ d.origin + d.buffered

namespace Marks

variable {n offset : Nat}

/-- A cursor that was extended and shows the text on both sides of a place has arrived there. -/
theorem arrives (h : c.Marks m) (hext : c.Extends d)
    (hshows : d.Shows 0 (m.text.take k) (m.text.drop k)) (hfirst : m.first ≤ k)
    (hlast : k ≤ m.text.length) : c.Arrives d { m with index := k } := by
  refine ⟨h.withIndex hext hshows hfirst hlast, ?_⟩
  rw [hext.origin]
  exact Nat.add_le_add_left hext.buffered_le _

/-- If the place is the same, so is the bookmark. -/
theorem stays (h : c.Marks m) (hext : c.Extends d)
    (hshows : d.Shows 0 (m.text.take m.index) (m.text.drop m.index)) : c.Arrives d m :=
  h.arrives hext hshows h.first_le h.index_le

/-- Reading moves over as many characters as there are. -/
theorem arrives_read (h : c.Marks m) (hext : c.Extends d)
    (hshows : d.Shows 0 (m.text.take m.index ++ (m.text.drop m.index).take n)
      ((m.text.drop m.index).drop n)) :
    c.Arrives d { m with index := min (m.index + n) m.text.length } := by
  have hfirst := h.first_le
  have hlast := h.index_le
  refine h.arrives hext ?_ (by omega) (Nat.min_le_right _ _)
  rw [← List.take_add, List.drop_drop] at hshows
  rcases Nat.le_total (m.index + n) m.text.length with hle | hle
  · rw [Nat.min_eq_left hle]
    exact hshows
  · rw [List.take_of_length_le hle, List.drop_of_length_le hle] at hshows
    rw [Nat.min_eq_right hle, List.take_length, List.drop_length]
    exact hshows

/-- Reading moves both on by as many characters as are there. -/
theorem read (h : c.Marks m) (n : Nat) :
    ∃ d, c.perform (.read n) = .ok (.ok ((m.text.drop m.index).take n), d) ∧
      c.Arrives d { m with index := min (m.index + n) m.text.length } := by
  obtain ⟨d, hread, hshows⟩ := h.shows.read n
  have hext := Extends.perform_of_ne h.shows.inBounds (r := .read n) (by simp) hread
  exact ⟨d, hread, h.arrives_read hext hshows⟩

/-- Reading one character moves both over it, if there is one. -/
theorem readChar (h : c.Marks m) :
    ∃ d, c.perform .readChar = .ok (.ok m.text[m.index]?, d) ∧
      c.Arrives d { m with index := min (m.index + 1) m.text.length } := by
  obtain ⟨d, hread, hshows⟩ := h.shows.readChar
  rw [List.head?_drop] at hread
  have hext := Extends.perform_of_ne h.shows.inBounds (r := .readChar) (by simp) hread
  exact ⟨d, hread, h.arrives_read hext hshows⟩

/-- Looking at characters leaves both where they stand. -/
theorem peek (h : c.Marks m) (n : Nat) :
    ∃ d, c.perform (.peek n) = .ok (.ok ((m.text.drop m.index).take n), d) ∧ c.Arrives d m := by
  obtain ⟨d, hpeek, hshows⟩ := h.shows.peek n
  have hext := Extends.perform_of_ne h.shows.inBounds (r := .peek n) (by simp) hpeek
  exact ⟨d, hpeek, h.stays hext hshows⟩

/-- Both tell whether the text ends where they stand. -/
theorem atEnd (h : c.Marks m) :
    ∃ d, c.perform .atEnd = .ok (.ok (m.index == m.text.length), d) ∧ c.Arrives d m := by
  obtain ⟨d, hend, hshows⟩ := h.shows.atEnd
  have hlast := h.index_le
  have hempty : (m.text.drop m.index).isEmpty = (m.index == m.text.length) := by
    rw [Bool.eq_iff_iff, List.isEmpty_iff, List.drop_eq_nil_iff, beq_iff_eq]
    omega
  have hperform : c.perform .atEnd = .ok (.ok (m.index == m.text.length), d) := by
    rw [← hempty]
    exact congrArg Except.ok hend
  have hext := Extends.perform_of_ne h.shows.inBounds (r := .atEnd) (by simp) hperform
  exact ⟨d, hperform, h.stays hext hshows⟩

/-- Both unread characters, as many as are held. -/
theorem restore (h : c.Marks m) (hn : n ≤ m.index - m.first) :
    ∃ d, c.perform (.restore n) = .ok ((), d) ∧ c.Arrives d { m with index := m.index - n } := by
  have hfirst := h.first_le
  have hlast := h.index_le
  have hbounds : c.index ≤ c.buffered := h.shows.inBounds
  have hle : m.offsetOf (m.index - n) ≤ c.origin + c.buffered := by
    refine Nat.le_trans (Text.byteLength_take_le m.text (Nat.sub_le m.index n)) ?_
    change m.position ≤ _
    rw [← h.position, Cursor.position]
    omega
  obtain ⟨horigin, hmoved⟩ := h.moveTo (k := m.index - n) (by omega) (by omega) hle
  -- The characters before the place, cut where the cursor goes back to.
  have hback : m.text.take m.index =
      m.text.take (m.index - n) ++ (m.text.drop (m.index - n)).take n := by
    rw [← List.take_add, Nat.sub_add_cancel (by omega)]
  have hlength : ((m.text.drop (m.index - n)).take n).length = n := by
    rw [List.length_take, List.length_drop]
    omega
  have hshows := h.shows
  rw [hback] at hshows
  have hrestore := hshows.restore (by rw [Nat.zero_add]; exact horigin)
  rw [hlength, Nat.zero_add] at hrestore
  have hext := Extends.restore n h.shows.inBounds hrestore
  refine ⟨_, ?_, h.arrives hext hmoved.shows (by omega) (by omega)⟩
  rw [perform, hrestore]
  rfl

/-- Neither unreads more than that. -/
theorem restore_eq_error (h : c.Marks m) (hn : ¬n ≤ m.index - m.first) :
    c.perform (.restore n) = .error (.restorePastStart m.origin) := by
  have hfirst := h.first_le
  have hback : m.text.take m.index =
      m.text.take m.first ++ (m.text.drop m.first).take (m.index - m.first) := by
    rw [← List.take_add, Nat.add_sub_cancel' hfirst]
  have hshows := h.shows
  rw [hback] at hshows
  have hlength : ((m.text.drop m.first).take (m.index - m.first)).length < n := by
    rw [List.length_take]
    omega
  have herror := hshows.restore_eq_error (h.origin.trans (Nat.zero_add _).symm) hlength
  rw [perform, herror, h.origin]
  rfl

/-- Both go back to an offset that was passed and is still held. -/
theorem restoreTo (h : c.Marks m) (hpast : c.Reached m past) (hmem : offset ∈ past)
    (horigin : m.origin ≤ offset) :
    ∃ d, c.perform (.restoreTo offset) = .ok ((), d) ∧
      c.Arrives d { m with index := Text.charsWithin m.text offset } := by
  obtain ⟨k, hk, rfl, hle⟩ := hpast offset hmem
  have hwithin : Text.charsWithin m.text (m.offsetOf k) = k := by
    have hcount := Text.charsWithin_byteLength_append (m.text.take k) (m.text.drop k)
    rwa [List.take_append_drop, List.length_take_of_le hk] at hcount
  have hfirst : m.first ≤ k := Text.le_of_byteLength_take_le h.first_le_length horigin
  obtain ⟨hstart, hmoved⟩ := h.moveTo hfirst hk hle
  have hrestore : c.restoreTo (m.offsetOf k) =
      .ok { c with index := m.offsetOf k - c.origin } := by
    rw [Cursor.restoreTo, Cursor.moveTo, if_pos ⟨hstart, by omega⟩]
  have hext := Extends.moveTo h.shows.inBounds hrestore
  rw [hwithin]
  refine ⟨_, ?_, h.arrives hext hmoved.shows hfirst hk⟩
  rw [perform, hrestore]
  rfl

/-- The text before the place, up to the line that holds it. -/
theorem exists_line (h : c.Marks m) :
    Text.lineStart m.text m.index ≤ m.index ∧
      c.column = .ok (m.index - Text.lineStart m.text m.index + 1) ∧
      (c.scopes = 0 → c.release.origin = m.offsetOf (Text.lineStart m.text m.index)) := by
  obtain ⟨lines, line, hsplit, hlines, hline, hcolumn, hrelease⟩ := h.shows.exists_line
  have hlength : m.index = (lines ++ line).length := by
    rw [← hsplit, List.length_take_of_le h.index_le]
  have htext : m.text = lines ++ line ++ m.text.drop m.index := by
    rw [← hsplit, List.take_append_drop]
  have hstart : Text.lineStart m.text m.index = lines.length := by
    have heq := Text.lineStart_eq hlines hline (m.text.drop m.index)
    rwa [← htext, ← hlength] at heq
  have htake : m.text.take lines.length = lines := by
    rw [htext, List.append_assoc, List.take_left]
  rw [List.length_append] at hlength
  refine ⟨by omega, ?_, fun hscopes => ?_⟩
  · rw [hcolumn, hstart, hlength, Nat.add_sub_cancel_left]
  · rw [hrelease hscopes, hstart, Bookmark.offsetOf, htake, Nat.zero_add]

/-- Outside all scopes both let go of the lines before their own. -/
theorem release (h : c.Marks m) (hscopes : m.scopes = 0) :
    c.Arrives c.release { m with first := Text.lineStart m.text m.index } := by
  obtain ⟨hle, -, hrelease⟩ := h.exists_line
  exact ⟨⟨h.shows.release, hrelease (h.scopes.trans hscopes), (release_scopes c).trans h.scopes,
    hle, h.index_le⟩, Nat.le_of_eq (release_end _).symm⟩

/-- Both find the line of an offset that they hold and have not passed. -/
theorem lineAt (h : c.Marks m) (hfirst : m.origin ≤ offset)
    (hlast : offset ≤ m.position) :
    ∃ d, c.perform (.lineAt offset) =
        .ok (.ok (m.lineOf (Text.charsWithin m.text offset)), d) ∧ c.Arrives d m := by
  have hbounds : c.index ≤ c.buffered := h.shows.inBounds
  have hreached : offset ≤ c.origin + c.buffered := by
    rw [← h.position, Cursor.position] at hlast
    omega
  obtain ⟨d, hline, hshows⟩ := h.shows.lineAt (h.origin ▸ hfirst) hreached
  rw [List.take_append_drop, Bookmark.around_eq] at hline
  have hperform : c.perform (.lineAt offset) =
      .ok (.ok (m.lineOf (Text.charsWithin m.text offset)), d) := congrArg Except.ok hline
  have hext := Extends.perform_of_ne h.shows.inBounds (r := .lineAt offset) (by simp) hperform
  exact ⟨d, hperform, h.stays hext hshows⟩

/-- An operation is answered alike, and the two correspond afterwards. -/
theorem answer (h : c.Marks m) (hpast : c.Reached m past)
    (hallows : m.allows past query = true) :
    (∀ cause, m.answer query = .error cause → query.reading.run c = .error (.fault cause)) ∧
      ∀ a next, m.answer query = .ok (a, next) →
        ∃ d, query.reading.run c = .ok (a, d) ∧ c.Arrives d next := by
  -- All but one of the operations have an answer.
  have hanswers {a : Answer} {d : Cursor} {next : Bookmark}
      (hanswer : m.answer query = .ok (a, next)) (hrun : query.reading.run c = .ok (a, d))
      (harrives : c.Arrives d next) :
      (∀ cause, m.answer query = .error cause → query.reading.run c = .error (.fault cause)) ∧
        ∀ a next, m.answer query = .ok (a, next) →
          ∃ d, query.reading.run c = .ok (a, d) ∧ c.Arrives d next := by
    rw [hanswer]
    refine ⟨?_, ?_⟩
    · rintro _ ⟨⟩
    · rintro _ _ ⟨⟩
      exact ⟨d, hrun, harrives⟩
  have hstays : c.Arrives c m := ⟨h, Nat.le_refl _⟩
  cases query with
  | read n =>
    obtain ⟨d, hperform, harrives⟩ := h.read n
    exact hanswers rfl (run_map_ask hperform _) harrives
  | readChar =>
    obtain ⟨d, hperform, harrives⟩ := h.readChar
    exact hanswers rfl (run_map_ask hperform _) harrives
  | peek n =>
    obtain ⟨d, hperform, harrives⟩ := h.peek n
    exact hanswers rfl (run_map_ask hperform _) harrives
  | atEnd =>
    obtain ⟨d, hperform, harrives⟩ := h.atEnd
    exact hanswers rfl (run_map_ask hperform _) harrives
  | restore n =>
    by_cases hn : n ≤ m.index - m.first
    · obtain ⟨d, hperform, harrives⟩ := h.restore hn
      exact hanswers (if_pos hn) (run_map_ask hperform _) harrives
    · have hanswer : m.answer (.restore n) = .error (.restorePastStart m.origin) := if_neg hn
      rw [hanswer]
      refine ⟨?_, ?_⟩
      · rintro _ ⟨⟩
        exact run_map_ask_error (h.restore_eq_error hn) _
      · rintro _ _ ⟨⟩
  | restoreTo offset =>
    obtain ⟨hmem, horigin⟩ := of_decide_eq_true hallows
    obtain ⟨d, hperform, harrives⟩ := h.restoreTo hpast hmem horigin
    exact hanswers rfl (run_map_ask hperform _) harrives
  | release =>
    have hperform : c.perform .release = .ok ((), c.release) := rfl
    by_cases hscopes : m.scopes = 0
    · exact hanswers (if_pos hscopes) (run_map_ask hperform _) (h.release hscopes)
    · have hopen : 0 < c.scopes := by
        rw [h.scopes]
        exact Nat.pos_of_ne_zero hscopes
      rw [release_eq_self hopen] at hperform
      exact hanswers (if_neg hscopes) (run_map_ask hperform _) hstays
  | lineNumber =>
    have hnumber : c.lineNumber = (m.text.take m.index).count '\n' + 1 := h.shows.lineNumber
    have hperform : c.perform .inspect = .ok (c, c) := rfl
    have hrun := run_map_ask hperform (.number ·.lineNumber)
    rw [hnumber] at hrun
    exact hanswers rfl hrun hstays
  | column =>
    obtain ⟨-, hcolumn, -⟩ := h.exists_line
    have hperform : c.perform .column =
        .ok (m.index - Text.lineStart m.text m.index + 1, c) := by
      rw [perform, hcolumn]
      rfl
    exact hanswers rfl (run_map_ask hperform _) hstays
  | currentLine =>
    have hwithin : Text.charsWithin m.text m.position = m.index := by
      have hcount := Text.charsWithin_byteLength_append (m.text.take m.index) (m.text.drop m.index)
      rwa [List.take_append_drop, List.length_take_of_le h.index_le] at hcount
    have hfirst : m.origin ≤ m.position := Text.byteLength_take_le m.text h.first_le
    obtain ⟨d, hperform, harrives⟩ := h.lineAt hfirst (Nat.le_refl _)
    rw [hwithin, ← h.position] at hperform
    exact hanswers rfl (run_map_ask hperform (.ofSource .line)) harrives
  | lineAt offset =>
    obtain ⟨hfirst, hlast⟩ := of_decide_eq_true hallows
    obtain ⟨d, hperform, harrives⟩ := h.lineAt hfirst hlast
    exact hanswers rfl (run_map_ask hperform _) harrives

/-- A speculation that is not accepted is gone back from, which is within the text kept since
nothing was dropped meanwhile. -/
theorem leave {inner : Bookmark} (accepted : Bool) (h : c.Marks m)
    (harrives : c.openScope.Arrives d inner) (hinner : m.openScope.Precedes inner) :
    ∃ e, (if accepted then d.closeScope = e else d.closeScope.returnTo c.position = .ok e) ∧
      e.Marks (m.leave accepted inner) ∧ d.origin + d.buffered ≤ e.origin + e.buffered := by
  obtain ⟨hmarks, hend⟩ := harrives
  cases accepted with
  | true => exact ⟨d.closeScope, rfl, hmarks.closeScope, Nat.le_refl _⟩
  | false =>
    have htext : inner.text = m.text := hinner.text
    have hoffset : inner.closeScope.offsetOf m.index = c.position := by
      rw [h.position, Bookmark.position, Bookmark.offsetOf, Bookmark.offsetOf, ← htext]
      rfl
    -- Nothing was dropped inside, so the place to go back to is still there.
    have hfirst : inner.first ≤ m.index := by
      rw [hinner.first (Nat.succ_pos _)]
      exact h.first_le
    have hlast : m.index ≤ inner.text.length := by
      rw [htext]
      exact h.index_le
    have hbounds : c.index ≤ c.buffered := h.shows.inBounds
    have hreached : c.position ≤ d.origin + d.buffered := by
      refine Nat.le_trans ?_ hend
      exact Nat.add_le_add_left hbounds _
    obtain ⟨hstart, hmoved⟩ :=
      hmarks.closeScope.moveTo hfirst hlast (hoffset.symm ▸ hreached)
    rw [hoffset] at hstart hmoved
    refine ⟨_, ?_, hmoved, Nat.le_refl _⟩
    have hin : c.position - d.closeScope.origin ≤ d.closeScope.buffered := by
      change c.position - d.origin ≤ d.buffered
      omega
    show d.closeScope.returnTo c.position = _
    rw [Cursor.returnTo, Cursor.moveTo, if_pos ⟨hstart, hin⟩]

end Marks

/-- At the start of a text the cursor stands where the bookmark is put. -/
theorem Begins.marks (h : Begins text c) : c.Marks (.start text) := by
  have hsource {src : Source} (hsrc : src.Delivers text.toList) :
      (Cursor.ofSource src 0).Marks (.start text) :=
    ⟨shows_ofSource hsrc, rfl, rfl, Nat.le_refl 0, Nat.zero_le _⟩
  cases h with
  | ofText => exact ⟨shows_ofText text, rfl, rfl, Nat.le_refl 0, Nat.zero_le _⟩
  | ofReader hsrc hc =>
    -- The capacity makes no difference to the cursor.
    rw [Cursor.ofReader] at hc
    split at hc
    · cases hc
    · cases hc
      exact hsource hsrc
  | ofSource hsrc => exact hsource hsrc

end Cursor

/-! ### Scripts are told alike -/

/-- The same was answered, and a cursor stands where a bookmark does. -/
def Bookmark.Moment.Tells (x : Moment Cursor) (y : Moment Bookmark) : Prop :=
  x.1 = y.1 ∧ x.2.Tracks y.2

/-- A session plays a script as a bookmark tells it: it has the same fault, or its moments tell the
same and its cursor comes to where the bookmark is then. -/
structure Bookmark.Script.Follows (script : Script) (s : Session) (m : Bookmark) : Prop where
  fault : ∀ cause, script.told m = .error cause → outcome script.play s = .error (.fault cause)
  ok : ∀ log last, script.told m = .ok (log, last) → ∃ moments t,
    outcome script.play s = .ok (.ok moments, t) ∧ s.cursor.Arrives t.cursor last ∧
      m.Precedes last ∧ List.Forall₂ Moment.Tells moments log ∧
      t.cursor.Reached last (log.map (·.2.position))

namespace Bookmark.Script.Follows

variable {script rest : Script} {s t : Session} {m next : Bookmark} {d : Cursor} {a : Answer}
  {within : List (Moment Cursor)} {inside : List (Moment Bookmark)} {cause : Fault}

/-- Where the bookmark tells of a fault, the cursor has to fault as well, and nothing more is
compared. -/
theorem of_eq_error (htold : script.told m = .error cause)
    (hplay : outcome script.play s = .error (.fault cause)) : script.Follows s m where
  fault other hother := by
    rw [htold] at hother
    cases hother
    exact hplay
  ok log last hok := by
    rw [htold] at hok
    cases hok

/-- What was told up to a moment stands in front of what the rest of a script tells. -/
theorem continued (hrest : rest.Follows { t with cursor := d } next)
    (htold : script.told m = (rest.told next).map fun toldRest =>
      (inside ++ (a, next) :: toldRest.1, toldRest.2))
    (hplay : outcome script.play s =
      outcome ((fun log => within ++ (a, d) :: log) <$> rest.play) { t with cursor := d })
    (htells : List.Forall₂ Moment.Tells within inside) (harrives : s.cursor.Arrives d next)
    (hnext : m.Precedes next) (hinside : d.Reached next (inside.map (·.2.position))) :
    script.Follows s m := by
  rw [outcome_map] at hplay
  -- The script has a fault just if the rest of it has one.
  rcases hlater : rest.told next with cause | ⟨log, last⟩
  · rw [hlater] at htold
    rw [hrest.fault cause hlater] at hplay
    exact of_eq_error htold hplay
  · obtain ⟨moments, u, houtcome, hlast, hprecedes, htells', hlog⟩ := hrest.ok log last hlater
    rw [hlater] at htold
    rw [houtcome] at hplay
    refine ⟨fun cause hcause => ?_, fun log' last' hok => ?_⟩
    · rw [htold] at hcause
      cases hcause
    · rw [htold] at hok
      cases hok
      have hreached : u.cursor.Reached last (next.position :: inside.map (·.2.position)) :=
        (hinside.cons harrives.1).mono hprecedes.text hlast.2
      refine ⟨within ++ (a, d) :: moments, u, hplay,
        ⟨hlast.1, Nat.le_trans harrives.2 hlast.2⟩, hnext.trans hprecedes,
        List.rel_append htells (.cons ⟨rfl, harrives.1.tracks⟩ htells'), fun offset hoffset => ?_⟩
      rw [List.map_append, List.map_cons] at hoffset
      rcases List.mem_append.mp hoffset with hmem | hmem
      · exact hreached _ (List.mem_cons_of_mem _ hmem)
      · rcases List.mem_cons.mp hmem with rfl | hmem
        · exact hreached _ List.mem_cons_self
        · exact hlog offset hmem

end Bookmark.Script.Follows

/-- What holds between a cursor and a bookmark is kept by scripts, and so is what was reached. -/
theorem Cursor.Marks.plays {m : Bookmark} {s : Session} {past : List Nat} (script : Script)
    (h : s.cursor.Marks m) (hpast : s.cursor.Reached m past) (hfair : script.fair past m = true) :
    script.Follows s m := by
  -- By induction on the script, wherever it starts. What it may go back to is what has been reached
  -- before, inside speculations as well.
  induction script generalizing s m past with
  | done =>
    refine ⟨?_, ?_⟩
    · rintro _ ⟨⟩
    · rintro _ _ ⟨⟩
      exact ⟨[], s, rfl, ⟨h, Nat.le_refl _⟩, .refl m, .nil,
        fun _ hmem => absurd hmem List.not_mem_nil⟩
  | ask query rest ih =>
    rw [Script.fair, Bool.and_eq_true] at hfair
    obtain ⟨hallows, hrest⟩ := hfair
    obtain ⟨hfault, hok⟩ := h.answer (hpast.cons h) hallows
    rcases hanswer : m.answer query with cause | ⟨a, next⟩
    · exact .of_eq_error (Script.told_ask_error hanswer)
        (outcome_play_ask_error (hfault cause hanswer))
    · obtain ⟨d, hrun, harrives⟩ := hok a next hanswer
      have hnext := Bookmark.Precedes.answer hanswer
      have hreached := (hpast.cons h).mono hnext.text harrives.2
      simp only [hanswer] at hrest
      have hfollows := ih (s := { s with cursor := d }) harrives.1 hreached hrest
      exact hfollows.continued (Script.told_ask hanswer) (outcome_play_ask hrun) .nil harrives
        hnext fun _ hmem => absurd hmem List.not_mem_nil
  | speculate accepted body rest ihbody ih =>
    rw [Script.fair, Bool.and_eq_true] at hfair
    obtain ⟨hbody, hrest⟩ := hfair
    have hwithin := ihbody (s := { s with cursor := s.cursor.openScope }) h.openScope
      ((hpast.cons h).mono rfl (Nat.le_refl _)) hbody
    rcases hinside : body.told m.openScope with cause | ⟨inside, inner⟩
    · exact .of_eq_error (Script.told_speculate_error hinside)
        (outcome_play_speculate_error accepted (hwithin.fault cause hinside))
    · obtain ⟨within, t, houtcome, harrives, hinner, htells, hlog⟩ :=
        hwithin.ok inside inner hinside
      -- The speculation is left, and the cursor goes back just if the bookmark does.
      obtain ⟨d, hd, hmarks, hend⟩ := h.leave accepted harrives hinner
      have hnext := Bookmark.Precedes.leave accepted hinner
      have htext : (m.leave accepted inner).text = inner.text := hnext.text.trans hinner.text.symm
      have hkept : s.cursor.origin + s.cursor.buffered ≤ d.origin + d.buffered :=
        Nat.le_trans harrives.2 hend
      have hreached := (hlog.mono htext hend).append ((hpast.cons h).mono hnext.text hkept)
      simp only [hinside] at hrest
      have hfollows := ih (s := { t with cursor := d }) hmarks hreached hrest
      exact hfollows.continued (Script.told_speculate hinside)
        (outcome_play_speculate accepted houtcome hd) htells ⟨hmarks, hkept⟩ hnext
        (hlog.mono htext hend)

/-- A cursor is a plain text with a place in it. It may have been opened on a text, on a reader of
any capacity or at the start of a source that can seek, and its source may deliver the text in any
pieces. Whatever is asked of it then, with any part of it in speculations that are accepted or not,
it answers at each moment what a bookmark answers, stands at the same offset, keeps text from the
same offset on, and has as many open scopes; and it stands between two characters. It only has a
fault where the bookmark has the same one. -/
theorem cursor_tracks_bookmark (text : String) (c : Cursor) (hc : Cursor.Begins text c)
    (config : Config) (script : Script) (hfair : script.fair [] (Bookmark.start text) = true) :
    (∀ cause, script.told (.start text) = .error cause →
        outcome script.play (Session.start c config) = .error (.fault cause)) ∧
      ∀ log last, script.told (.start text) = .ok (log, last) → ∃ moments t,
        outcome script.play (Session.start c config) = .ok (.ok moments, t) ∧
          List.Forall₂ Moment.Tells moments log ∧ t.cursor.Tracks last := by
  have hmarks : (Session.start c config).cursor.Marks (.start text) := hc.marks
  have hfollows : script.Follows (Session.start c config) (.start text) :=
    hmarks.plays script (fun _ hmem => absurd hmem List.not_mem_nil) hfair
  refine ⟨hfollows.fault, fun log last htold => ?_⟩
  obtain ⟨moments, t, houtcome, harrives, -, htells, -⟩ := hfollows.ok log last htold
  exact ⟨moments, t, houtcome, htells, harrives.1.tracks⟩

/-- Reads into the second line and goes back, drops the first line, and goes back again as far as
that is possible. -/
def tour : Script :=
  .ask (.read 2) <|
  .speculate false
    (.ask (.read 2) <| .ask .release <| .ask (.lineAt 1) <| .ask (.restore 1) .done) <|
  .ask .readChar <| .ask .release <|
  .speculate true (.ask (.peek 9) <| .ask .readChar .done) <|
  .ask .column <| .ask (.restore 1) <| .ask .currentLine <| .ask (.restoreTo 5) <|
  .ask .lineNumber .done

/-- The source is cut inside a character. The first release drops nothing, since a scope is open. -/
theorem cursor_tracks_bookmark_tour :
    Cursor.Begins "é\r\nbc" (Cursor.ofSource twoLines 0) ∧
      tour.fair [] (Bookmark.start "é\r\nbc") = true ∧
      ∃ log last moments t, tour.told (.start "é\r\nbc") = .ok (log, last) ∧
        log.map (·.1) = [.chars ['é', '\r'], .chars ['\n', 'b'], .done, .line ⟨1, ⟨0, 2⟩, "é"⟩,
          .done, .done, .char '\n', .done, .chars ['b', 'c'], .char 'b', .done, .number 2, .done,
          .line ⟨2, ⟨4, 6⟩, "bc"⟩, .done, .number 2] ∧
        last.position = 5 ∧ last.origin = 4 ∧
        outcome tour.play (Session.start (Cursor.ofSource twoLines 0) {}) = .ok (.ok moments, t) ∧
        List.Forall₂ Moment.Tells moments log ∧ t.cursor.Tracks last := by
  have hreader : Cursor.ofReader 1 twoLines = .ok (Cursor.ofSource twoLines 0) := rfl
  have hbegins : Cursor.Begins "é\r\nbc" (Cursor.ofSource twoLines 0) :=
    .ofReader delivers_twoLines hreader
  have hfair : tour.fair [] (Bookmark.start "é\r\nbc") = true := by
    decide +kernel
  have hchecked : passes (fun end₁ => decide (end₁.1.map (·.1) = [.chars ['é', '\r'],
      .chars ['\n', 'b'], .done, .line ⟨1, ⟨0, 2⟩, "é"⟩, .done, .done, .char '\n', .done,
      .chars ['b', 'c'], .char 'b', .done, .number 2, .done, .line ⟨2, ⟨4, 6⟩, "bc"⟩, .done,
      .number 2] ∧ end₁.2.position = 5 ∧ end₁.2.origin = 4))
      (tour.told (.start "é\r\nbc")) = true := by
    decide +kernel
  obtain ⟨⟨log, last⟩, htold, htested⟩ := exists_of_passes hchecked
  obtain ⟨hanswers, hposition, horigin⟩ := of_decide_eq_true htested
  obtain ⟨moments, t, houtcome, htells, htracks⟩ :=
    (cursor_tracks_bookmark "é\r\nbc" _ hbegins {} tour hfair).2 log last htold
  exact ⟨hbegins, hfair, log, last, moments, t, htold, hanswers, hposition, horigin, houtcome,
    htells, htracks⟩

end ParseTrail
