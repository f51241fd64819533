import ParseTrail.Proofs.Report
import ParseTrail.Proofs.Trail.Copies

/-!
# What trimming keeps

A trail is trimmed to show some of its attempts: they are kept, with all that stands above them, and
nothing else is. A report trims to the attempts that start furthest.

- `Built.trimsTo`: what is left of a trail that is trimmed, link by link;
- `Report.shows_entriesOf`: the attempts that a report lists;
- `trimming_keeps_paths`: both, for every trail that can be built.
-/

namespace ParseTrail

namespace Trail

variable {t u : Trail} {keep : List Nat} {line : Line} {column id : Nat}

/-- What a walk tells of an attempt: what it says of itself, and how far below the root it is. -/
def sight (t : Trail) (id : Nat) : Option Attempt × Nat :=
  (t.bare? id, t.depth id)

/-- A trail is what is left of another one that is cut down to some attempts. -/
structure TrimsTo (t : Trail) (keep : List Nat) (u : Trail) : Prop where
  /-- Its links agree. -/
  linksAgree : u.LinksAgree
  /-- The walks over it end. -/
  walksEnd : u.WalksEnd
  /-- They meet every attempt within reach once. -/
  walksMeetOnce : u.WalksMeetOnce
  /-- All its attempts are within reach. -/
  reaches : ∀ k < u.size, u.Reaches 0 k
  /-- What is kept is the root, the attempts to keep, and those above them. -/
  isKept_iff : ∀ id, t.isKept keep id = true ↔ id = 0 ∨ ∃ j ∈ keep, t.Reaches id j
  /-- Walking it is walking the other trail and passing over what is not kept. -/
  sights : u.preOrder.map u.sight = (t.preOrder.filter (t.isKept keep)).map t.sight
  /-- Every attempt is a copy, below the copy of the parent. -/
  copied : ∃ pairs, Copied t u (t.preOrder.filter (t.isKept keep)) pairs

/-- Copies look like what they are copies of. -/
theorem Copied.sights {ids : List Nat} {pairs : List (Nat × Nat)} (h : Copied t u ids pairs) :
    u.preOrder.map u.sight = ids.map t.sight := by
  rw [← h.copies, ← h.originals, List.map_map, List.map_map]
  refine List.map_congr_left fun pair hmem => ?_
  exact Prod.ext (h.bare? pair.1 pair.2 hmem) (h.depth pair.1 pair.2 hmem)

theorem Built.trimsTo (h : Built t) (keep : List Nat) : t.TrimsTo keep (t.trimTo keep) := by
  obtain ⟨hlinked, hsize⟩ := h.linked
  have hwhole := hlinked.whole_trimTo keep
  obtain ⟨pairs, hcopied⟩ := hlinked.copied_trimTo hsize keep
  exact ⟨hwhole.linked.linksAgree, hwhole.linked.walksEnd hwhole.size,
    hwhole.linked.walksMeetOnce hwhole.size, hwhole.reaches, fun _ => hlinked.isKept_iff,
    hcopied.sights, pairs, hcopied⟩

/-- Some attempts are those within reach, except the root, that start furthest or lead to one that
does, each once and in the order of the walk with children first. -/
structure AroundFurthest (t : Trail) (ids : List Nat) : Prop where
  /-- The walk meets them in this order. -/
  sublist : ids.Sublist t.postOrder
  /-- Each is listed once. -/
  nodup : ids.Nodup
  /-- They are those that start furthest and those above one that does. -/
  mem_iff : ∀ id, id ∈ ids ↔ t.Reaches 0 id ∧ id ≠ 0 ∧
    ∃ j, t.Reaches id j ∧ t.startOf j = t.furthestStart

theorem Linked.aroundFurthest (h : t.Linked) (hsize : 0 < t.size) :
    t.AroundFurthest (t.postOrder.filter
      (t.atFurthest.flatMap fun j => j :: t.ancestors j).contains) where
  sublist := List.filter_sublist
  nodup := by
    have hnodup := (perm_postOrder hsize).nodup_iff.mpr (h.nodup_preOrder hsize)
    exact (List.nodup_cons.mp hnodup).2.filter _
  mem_iff id := by
    rw [List.mem_filter, List.contains_iff_mem, h.mem_wanted, h.mem_postOrder hsize, and_assoc]
    refine and_congr_right fun hreach => and_congr_right fun hne => exists_congr fun j => ?_
    rw [mem_atFurthest, h.mem_preOrder_tail hsize]
    -- What an attempt within reach leads to is within reach, and is not the root.
    constructor
    · rintro ⟨⟨-, hstart⟩, hj⟩
      exact ⟨hj, hstart⟩
    · rintro ⟨hj, hstart⟩
      have hle := hj.le h
      exact ⟨⟨⟨hreach.trans hj, by omega⟩, hstart⟩, hj⟩

end Trail

/-- A function that has a value everywhere on a list. -/
theorem map_some_filterMap {β γ : Type} {f : β → Option γ} {xs : List β}
    (h : ∀ x ∈ xs, (f x).isSome) : (xs.filterMap f).map some = xs.map f := by
  induction xs with
  | nil => rfl
  | cons x xs ih =>
    obtain ⟨hx, hxs⟩ := List.forall_mem_cons.mp h
    obtain ⟨y, hy⟩ := Option.isSome_iff_exists.mp hx
    rw [List.filterMap_cons_some hy, List.map_cons, List.map_cons, ih hxs, hy]

namespace Report

variable {t : Trail} {line : Line} {column : Nat}

/-- Some entries of a report show some attempts of a trail, in the same order. -/
def Shows (t : Trail) (entries : List ReportEntry) (ids : List Nat) : Prop :=
  entries.map some = ids.map fun id => (t.get? id).map entryOf

theorem shows_entriesOf (h : t.Linked) (hsize : 0 < t.size) :
    ∃ ids, t.AroundFurthest ids ∧ Shows t (entriesOf t) ids := by
  have haround := h.aroundFurthest hsize
  refine ⟨_, haround, ?_⟩
  have hentries : entriesOf t = (t.trimTo t.atFurthest).postOrder.filterMap
      (fun k => ((t.trimTo t.atFurthest).get? k).map entryOf) := rfl
  rw [hentries, Trail.filterMap_postOrder_trimTo h hsize _ entryOf fun _ => rfl, Shows]
  refine map_some_filterMap fun id hid => ?_
  have hlt := ((haround.mem_iff id).mp hid).1.lt_size h hsize
  rw [Option.isSome_map, Trail.get?, Array.getElem?_eq_getElem hlt, Option.isSome_some]

/-- There is a report on a trail if the column can be counted, and it lists what the trail has
around the attempts that start furthest. -/
theorem ofTrail_eq_ok (hcolumn : line.columnOf t.furthestStart = .ok column) :
    ∃ report, ofTrail t line = .ok report ∧ report.entries = entriesOf t := by
  rw [ofTrail, hcolumn]
  exact ⟨_, rfl, rfl⟩

end Report

/-- Whatever trail is built, trimming it leaves a tree that holds, in order and with their links,
copies of the root, of the attempts to keep and of those above them. A report on it lists the
attempts within reach that start furthest or lead to one that does, innermost first, each once. -/
theorem trimming_keeps_paths (t : Trail) (h : t.Built) :
    (∀ keep, t.TrimsTo keep (t.trimTo keep)) ∧
    ∀ line column, line.columnOf t.furthestStart = .ok column →
      ∃ report ids, Report.ofTrail t line = .ok report ∧ t.AroundFurthest ids ∧
        Report.Shows t report.entries ids := by
  obtain ⟨hlinked, hsize⟩ := h.linked
  refine ⟨h.trimsTo, fun line column hcolumn => ?_⟩
  obtain ⟨report, hreport, hentries⟩ := Report.ofTrail_eq_ok hcolumn
  obtain ⟨ids, haround, hshows⟩ := Report.shows_entriesOf hlinked hsize
  exact ⟨report, ids, hreport, haround, hentries ▸ hshows⟩

/-- Attempts at two characters: 2 and 4 stand below 1, as 3 is dissolved, and 5 is another attempt
at the start. -/
def attemptsAtTwo : List Trail.Operation :=
  [.push 0 0 "a" false, .push 1 0 "b" false, .close 2 1 false, .push 1 1 "c" false,
    .push 3 1 "d" false, .close 4 1 true, .dissolve 3, .close 1 1 true, .push 0 0 "e" false,
    .close 5 0 true]

/-- The trail of these attempts. -/
def atTwo : Trail :=
  attemptsAtTwo.foldl (fun t o => o.apply t) (Trail.start 0)

/-- It is trimmed to an attempt that is named twice, one above it, and one out of reach; and it is
reported on. -/
theorem trimming_keeps_paths_atTwo :
    atTwo.Built ∧ atTwo.preOrder = [0, 1, 2, 4, 5] ∧
      (atTwo.trimTo [4, 3, 1, 4]).preOrder = [0, 1, 2] ∧
      atTwo.TrimsTo [4, 3, 1, 4] (atTwo.trimTo [4, 3, 1, 4]) ∧
      ∃ report ids, Report.ofTrail atTwo ⟨1, ⟨0, 2⟩, "xy"⟩ = .ok report ∧
        report.entries = [⟨⟨1, 1⟩, "d", true⟩, ⟨⟨0, 1⟩, "a", true⟩] ∧ atTwo.AroundFurthest ids ∧
        Report.Shows atTwo report.entries ids := by
  have hafter : (Trail.start 0).after attemptsAtTwo = some atTwo := rfl
  have hbuilt : atTwo.Built := (Trail.Built.start 0).after hafter
  obtain ⟨htrims, hreports⟩ := trimming_keeps_paths atTwo hbuilt
  obtain ⟨report, ids, hreport, haround, hshows⟩ := hreports ⟨1, ⟨0, 2⟩, "xy"⟩ 2 rfl
  have hentries : (Report.ofTrail atTwo ⟨1, ⟨0, 2⟩, "xy"⟩).map (·.entries) =
      .ok [⟨⟨1, 1⟩, "d", true⟩, ⟨⟨0, 1⟩, "a", true⟩] := by
    rfl
  rw [hreport] at hentries
  exact ⟨hbuilt, by decide, by decide, htrims _, report, ids, hreport,
    Except.ok.inj hentries, haround, hshows⟩

end ParseTrail
