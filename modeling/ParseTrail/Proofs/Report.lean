import ParseTrail.Proofs.Trail.Trim
import ParseTrail.Report

/-!
# What reports name

A report is about the attempts that start furthest and those above them. It names a failed attempt
if there is one among these, and nothing otherwise:

- `mem_entriesOf`: the attempts shown;
- `ofTrail_names_culprit`: which reports show a failed attempt, and whose label they give.
-/

namespace ParseTrail

namespace Trail

variable {t : Trail} {id x j : Nat}

/-- A failed attempt within reach, other than the root, that starts furthest or stands above one
that does. -/
structure Culprit (t : Trail) (x : Nat) : Prop where
  withinReach : x ∈ t.preOrder.tail
  failed : (t.get? x).any (·.failed)
  aboveFurthest : ∃ j ∈ t.atFurthest, x ∈ j :: t.ancestors j

theorem mem_atFurthest :
    j ∈ t.atFurthest ↔ j ∈ t.preOrder.tail ∧ t.startOf j = t.furthestStart := by
  rw [atFurthest, List.mem_filter]
  simp

/-- A failed attempt that starts furthest is a culprit. -/
theorem culprit_of_mem_atFurthest (hj : j ∈ t.atFurthest) (hfailed : (t.get? j).any (·.failed)) :
    t.Culprit j :=
  ⟨(mem_atFurthest.mp hj).1, hfailed, j, hj, List.mem_cons_self⟩

end Trail

namespace Report

variable {t : Trail} {line : Line} {report : Report} {x : Nat}

/-- How an attempt is shown. -/
def entryOf (a : Attempt) : ReportEntry :=
  ⟨a.span, a.label, a.failed⟩

/-- The attempts shown are those that start furthest and those above them, children first. -/
theorem mem_entriesOf (h : t.Linked) (hsize : 0 < t.size) (e : ReportEntry) :
    e ∈ entriesOf t ↔ ∃ x a, x ∈ t.preOrder.tail ∧
      (∃ j ∈ t.atFurthest, x ∈ j :: t.ancestors j) ∧ t.get? x = some a ∧ e = entryOf a := by
  -- The report walks a trimmed copy, which tells what a walk over the trail tells of the attempts
  -- that were kept.
  have hentries : entriesOf t = (t.trimTo t.atFurthest).postOrder.filterMap
      (fun k => ((t.trimTo t.atFurthest).get? k).map entryOf) := rfl
  rw [hentries, Trail.filterMap_postOrder_trimTo h hsize _ entryOf fun _ => rfl,
    List.mem_filterMap]
  refine exists_congr fun x => ?_
  rw [List.mem_filter, List.contains_iff_mem, List.mem_flatMap, h.mem_postOrder hsize,
    ← h.mem_preOrder_tail hsize]
  constructor
  · rintro ⟨⟨hx, hwanted⟩, hentry⟩
    obtain ⟨a, ha, rfl⟩ := Option.map_eq_some_iff.mp hentry
    exact ⟨a, hx, hwanted, ha, rfl⟩
  · rintro ⟨a, hx, hwanted, ha, rfl⟩
    exact ⟨⟨hx, hwanted⟩, by rw [ha, Option.map_some]⟩

/-- The entries of failed attempts are those of the culprits. -/
theorem mem_entriesOf_and_failed (h : t.Linked) (hsize : 0 < t.size) (e : ReportEntry) :
    e ∈ entriesOf t ∧ e.failed = true ↔
      ∃ x a, t.Culprit x ∧ t.get? x = some a ∧ e = entryOf a := by
  rw [mem_entriesOf h hsize]
  constructor
  · rintro ⟨⟨x, a, hx, habove, ha, rfl⟩, hfailed⟩
    refine ⟨x, a, ⟨hx, ?_, habove⟩, ha, rfl⟩
    rw [ha]
    exact hfailed
  · rintro ⟨x, a, hculprit, ha, rfl⟩
    have hfailed := hculprit.failed
    rw [ha] at hfailed
    exact ⟨⟨x, a, hculprit.withinReach, hculprit.aboveFurthest, ha, rfl⟩, hfailed⟩

/-! ### The headline -/

/-- The better of the best attempt so far and another. -/
def preferred (t : Trail) (best? : Option Nat) (id : Nat) : Option Nat :=
  match best? with
  | none => some id
  | some best => if outranks t id best then some id else some best

theorem preferred_eq (t : Trail) (best? : Option Nat) (id : Nat) :
    preferred t best? id = best? ∨ preferred t best? id = some id := by
  rcases best? with _ | best
  · exact .inr rfl
  · by_cases hrank : outranks t id best
    · exact .inr (if_pos hrank)
    · exact .inl (if_neg hrank)

/-- The best of some attempts is one of them. -/
theorem mem_of_foldl_preferred {ids : List Nat} {best? : Option Nat}
    (h : ids.foldl (preferred t) best? = some x) : best? = some x ∨ x ∈ ids := by
  induction ids generalizing best? with
  | nil => exact .inl h
  | cons id ids ih =>
    -- The best of the rest is better than what was best so far, or is just that.
    rcases ih h with hbest | hmem
    · rcases preferred_eq t best? id with heq | heq
      · exact .inl (heq ▸ hbest)
      · rw [heq, Option.some.injEq] at hbest
        exact .inr (hbest ▸ List.mem_cons_self)
    · exact .inr (List.mem_cons_of_mem _ hmem)

/-- The headline is the label of a culprit. -/
theorem exists_culprit_of_headline? {label : String} (hlabel : headline? t = some label) :
    ∃ x a, t.Culprit x ∧ t.get? x = some a ∧ label = a.label := by
  -- The headline is chosen among the failed attempts that start furthest.
  have hbest : headline? t = (((t.atFurthest.filter fun id => (t.get? id).any (·.failed)).foldl
      (preferred t) none).bind t.get?).map (·.label) := rfl
  rw [hbest] at hlabel
  obtain ⟨a, ha, rfl⟩ := Option.map_eq_some_iff.mp hlabel
  obtain ⟨x, hx, ha⟩ := Option.bind_eq_some_iff.mp ha
  rcases mem_of_foldl_preferred hx with hnone | hmem
  · cases hnone
  · rw [List.mem_filter] at hmem
    exact ⟨x, a, Trail.culprit_of_mem_atFurthest hmem.1 hmem.2, ha, rfl⟩

/-- What a report is made of. -/
theorem eq_of_ofTrail (h : ofTrail t line = .ok report) :
    report.entries = entriesOf t ∧ report.expected = (headline? t).getD
      ((((entriesOf t).find? (·.failed)).map (·.label)).getD unknownLabel) := by
  rw [ofTrail] at h
  rcases hcolumn : line.columnOf t.furthestStart with cause | column
  · rw [hcolumn] at h
    cases h
  · rw [hcolumn] at h
    cases h
    exact ⟨rfl, rfl⟩

theorem entries_of_ofTrail (h : ofTrail t line = .ok report) : report.entries = entriesOf t :=
  (eq_of_ofTrail h).1

/-- A report shows a failed attempt just if there is a culprit. Then it is the label of a culprit
that is expected, and otherwise there is no label to give. -/
theorem ofTrail_names_culprit (h : t.Linked) (hsize : 0 < t.size)
    (hreport : ofTrail t line = .ok report) :
    ((∃ e ∈ report.entries, e.failed = true) ↔ ∃ x, t.Culprit x) ∧
    ((∃ x, t.Culprit x) →
      ∃ x a, t.Culprit x ∧ t.get? x = some a ∧ report.expected = a.label) ∧
    ((¬∃ x, t.Culprit x) → report.expected = unknownLabel) := by
  obtain ⟨hentries, hexpected⟩ := eq_of_ofTrail hreport
  have hfailed := mem_entriesOf_and_failed h hsize
  have hiff : (∃ e ∈ report.entries, e.failed = true) ↔ ∃ x, t.Culprit x := by
    rw [hentries]
    constructor
    · rintro ⟨e, he⟩
      obtain ⟨x, -, hx, -⟩ := (hfailed e).mp he
      exact ⟨x, hx⟩
    · rintro ⟨x, hx⟩
      have hany := hx.failed
      cases ha : t.get? x with
      | none =>
        rw [ha] at hany
        cases hany
      | some a => exact ⟨entryOf a, (hfailed _).mpr ⟨x, a, hx, ha, rfl⟩⟩
  refine ⟨hiff, fun hculprit => ?_, fun hnone => ?_⟩
  · cases hheadline : headline? t with
    | some label =>
      obtain ⟨x, a, hx, ha, hlabel⟩ := exists_culprit_of_headline? hheadline
      exact ⟨x, a, hx, ha, by rw [hexpected, hheadline, Option.getD_some, hlabel]⟩
    | none =>
      -- Nothing that starts furthest has failed, so the first failed entry is told.
      obtain ⟨e, he, hfail⟩ := hiff.mpr hculprit
      cases hfind : (entriesOf t).find? (·.failed) with
      | none =>
        rw [List.find?_eq_none] at hfind
        exact absurd hfail (hfind e (hentries ▸ he))
      | some found =>
        obtain ⟨x, a, hx, ha, hentry⟩ := (hfailed found).mp
          ⟨List.mem_of_find?_eq_some hfind, List.find?_some hfind⟩
        refine ⟨x, a, hx, ha, ?_⟩
        rw [hexpected, hheadline, hfind, hentry]
        rfl
  · have hheadline : headline? t = none := by
      rcases hlabel : headline? t with _ | label
      · rfl
      · obtain ⟨x, -, hx, -⟩ := exists_culprit_of_headline? hlabel
        exact absurd ⟨x, hx⟩ hnone
    have hfind : (entriesOf t).find? (·.failed) = none := by
      rw [List.find?_eq_none]
      intro e he hfail
      exact hnone (hiff.mp ⟨e, hentries ▸ he, hfail⟩)
    rw [hexpected, hheadline, hfind]
    rfl

end Report

end ParseTrail
