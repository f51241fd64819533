import ParseTrail.Proofs.Trail.Reach
import ParseTrail.Trail.Trim

/-!
# Trimmed trails

A trimmed trail mirrors the wanted part of the trail it is made from: copies stand in the order of
what they are copies of, and say the same about themselves. Walking it is walking the trail and
passing over what is not wanted:

- `grafted_copyWanted`: what copying adds, and what it leaves alone;
- `filterMap_postOrder_trimTo`: what a walk over a trimmed trail tells.
-/

namespace ParseTrail

/-- An attempt without its links. -/
def Attempt.bare (a : Attempt) : Attempt :=
  { a with parent? := none, children := [] }

namespace Trail

variable {t out out' : Trail} {wanted cs ks : List Nat} {target c k j n m lo lo' : Nat}

/-- The attempts `ks` of one trail are copies of the wanted ones among the attempts `cs` of another,
and so on below them. Copies are younger than what they stand below, and not older than `lo`. -/
inductive Mirrors (t out : Trail) (wanted : List Nat) : Nat → List Nat → List Nat → Prop
  | nil {lo : Nat} : Mirrors t out wanted lo [] []
  | skip {lo c : Nat} {cs ks : List Nat} :
    c ∉ wanted → Mirrors t out wanted lo cs ks → Mirrors t out wanted lo (c :: cs) ks
  | copy {lo c k : Nat} {cs ks : List Nat} {a b : Attempt} :
    c ∈ wanted → t.get? c = some a → out.get? k = some b → b.bare = a.bare → lo ≤ k →
      Mirrors t out wanted (k + 1) a.children b.children → Mirrors t out wanted lo cs ks →
        Mirrors t out wanted lo (c :: cs) (k :: ks)

namespace Mirrors

theorem mono (h : Mirrors t out wanted lo cs ks) (hlo : lo' ≤ lo) :
    Mirrors t out wanted lo' cs ks := by
  induction h generalizing lo' with
  | nil => exact .nil
  | skip hc _ ih => exact .skip hc (ih hlo)
  | copy hc ha hb hbare hk hbelow _ _ ih =>
    exact .copy hc ha hb hbare (Nat.le_trans hlo hk) hbelow (ih hlo)

/-- What happens to other attempts does not matter. -/
theorem of_get?_eq (h : Mirrors t out wanted lo cs ks)
    (hout : ∀ j, lo ≤ j → j < out.size → out'.get? j = out.get? j) :
    Mirrors t out' wanted lo cs ks := by
  induction h with
  | nil => exact .nil
  | skip hc _ ih => exact .skip hc (ih hout)
  | @copy lo c k cs ks a b hc ha hb hbare hk _ _ ih ih' =>
    -- A copy is on the trail, and not older than the bound.
    have hsize : k < out.size := by
      rw [← Nat.not_le, ← get?_eq_none_iff, hb]
      exact Option.some_ne_none b
    refine .copy hc ha (hout k hk hsize ▸ hb) hbare hk (ih fun j hj => ?_) (ih' hout)
    exact hout j (by omega)

end Mirrors

/-! ### Copying -/

/-- A copy of an attempt is added below another. -/
def graft (out : Trail) (target : Nat) (a : Attempt) : Trail :=
  let pushed : Trail := ⟨out.attempts.push { a with parent? := some target, children := [] }⟩
  pushed.setChildren target (pushed.children target ++ [out.size])

@[simp]
theorem size_graft (out : Trail) (target : Nat) (a : Attempt) :
    (out.graft target a).size = out.size + 1 := by
  simp [graft, setChildren, update, size]

theorem get?_graft (htarget : target < out.size) (a : Attempt) (j : Nat) :
    (out.graft target a).get? j =
      if j = out.size then some { a with parent? := some target, children := [] }
      else if j = target then
        (out.get? j).map fun b => { b with children := b.children ++ [out.size] }
      else out.get? j := by
  have hpushed (i : Nat) :
      (⟨out.attempts.push { a with parent? := some target, children := [] }⟩ : Trail).get? i =
        if i = out.size then some { a with parent? := some target, children := [] }
        else out.get? i :=
    Array.getElem?_push
  have hchildren :
      (⟨out.attempts.push { a with parent? := some target, children := [] }⟩ : Trail).children
        target = out.children target := by
    rw [children, children, hpushed, if_neg (by omega)]
  -- The new one, the one it is put below, and the others.
  rw [graft, setChildren, get?_update, hpushed, hchildren]
  by_cases hsize : j = out.size
  · rw [if_neg (by omega), if_pos hsize, if_pos hsize]
  · rw [if_neg hsize, if_neg hsize]
    by_cases hj : j = target
    · subst hj
      rw [if_pos rfl, if_pos rfl, children]
      rcases out.get? j with _ | b
      · rfl
      · rfl
    · rw [if_neg hj, if_neg fun h => hj h.symm]

/-- What copying `cs` below `target` comes to: nothing changes but the children of `target`, which
are followed by a mirror of `cs`. -/
structure Grafted (t : Trail) (wanted : List Nat) (target : Nat) (cs : List Nat)
    (out out' : Trail) : Prop where
  size_le : out.size ≤ out'.size
  others : ∀ j, j < out.size → j ≠ target → out'.get? j = out.get? j
  below : ∃ ks, out'.get? target =
      (out.get? target).map (fun b => { b with children := b.children ++ ks }) ∧
    Mirrors t out' wanted out.size cs ks

/-- Nothing is copied. -/
theorem grafted_nil (t : Trail) (wanted : List Nat) (target : Nat) (out : Trail) :
    Grafted t wanted target [] out out where
  size_le := Nat.le_refl _
  others _ _ _ := rfl
  below := by
    refine ⟨[], ?_, .nil⟩
    rcases out.get? target with _ | b
    · rfl
    · rw [Option.map_some, List.append_nil]

theorem Grafted.skip (h : Grafted t wanted target cs out out') (hc : c ∉ wanted) :
    Grafted t wanted target (c :: cs) out out' where
  size_le := h.size_le
  others := h.others
  below := by
    obtain ⟨ks, hks, hmirrors⟩ := h.below
    exact ⟨ks, hks, .skip hc hmirrors⟩

/-- One attempt is copied, then what is below it, and then the others. -/
theorem Grafted.copy {a : Attempt} {mid : Trail} (hc : c ∈ wanted) (ha : t.get? c = some a)
    (htarget : target < out.size)
    (hbelow : Grafted t wanted out.size a.children (out.graft target a) mid)
    (hrest : Grafted t wanted target cs mid out') :
    Grafted t wanted target (c :: cs) out out' := by
  have hsize : out.size + 1 ≤ mid.size := size_graft out target a ▸ hbelow.size_le
  obtain ⟨ks, hks, hmirrors⟩ := hbelow.below
  obtain ⟨ks', hks', hmirrors'⟩ := hrest.below
  refine ⟨?_, fun j hj hne => ?_, out.size :: ks', ?_, ?_⟩
  · have hrestSize := hrest.size_le
    omega
  · rw [hrest.others j (by omega) hne, hbelow.others j (by rw [size_graft]; omega) (by omega),
      get?_graft htarget, if_neg (by omega), if_neg hne]
  · -- The target gets the copy first and then the copies of the others.
    rw [hks', hbelow.others target (by rw [size_graft]; omega) (by omega), get?_graft htarget,
      if_neg (by omega), if_pos rfl, Option.map_map]
    congr 1
    funext b
    simp
  · -- The copy and what is below it stay as they are while the others are copied.
    have hcopy : out'.get? out.size =
        some { a with parent? := some target, children := ks } := by
      rw [hrest.others out.size (by omega) (by omega), hks, get?_graft htarget, if_pos rfl]
      rfl
    refine .copy hc ha hcopy rfl (Nat.le_refl _) ?_ (hmirrors'.mono (by omega))
    rw [size_graft] at hmirrors
    exact hmirrors.of_get?_eq fun j hj hlt => hrest.others j hlt (by omega)

/-- One step of the loop that copies the wanted among some attempts, and what is below them. -/
def copyStep (t : Trail) (wanted : List Nat) (n target : Nat) (out : Trail) (child : Nat) : Trail :=
  match t.get? child with
  | some a =>
    if wanted.contains child then t.copyWanted wanted n child out.size (out.graft target a) else out
  | none => out

theorem copyWanted_succ (t : Trail) (wanted : List Nat) (n id target : Nat) (out : Trail) :
    t.copyWanted wanted (n + 1) id target out =
      (t.children id).foldl (t.copyStep wanted n target) out := rfl

/-- Copying goes down far enough, on a linked trail. -/
theorem grafted_copyWanted (h : t.Linked) (wanted : List Nat) {id : Nat} (hn : t.size ≤ id + n)
    (htarget : target < out.size) :
    Grafted t wanted target (t.children id) out (t.copyWanted wanted n id target out) := by
  induction n generalizing id target out with
  | zero =>
    rw [children_eq_nil (by omega)]
    exact grafted_nil t wanted target out
  | succ n ih =>
    rw [copyWanted_succ]
    have hdeep : ∀ c ∈ t.children id, c < t.size ∧ t.size ≤ c + n := by
      intro c hc
      have hlt := h.parent_lt_of_mem hc
      exact ⟨h.lt_size_of_mem hc, by omega⟩
    -- The loop goes through the children; each step adds one copy with all below it.
    generalize t.children id = cs at hdeep
    induction cs generalizing out with
    | nil => exact grafted_nil t wanted target out
    | cons c cs ihcs =>
      obtain ⟨⟨hsize, hlevel⟩, hdeep'⟩ := List.forall_mem_cons.mp hdeep
      obtain ⟨a, ha⟩ : ∃ a, t.get? c = some a := ⟨_, Array.getElem?_eq_getElem hsize⟩
      have hchildren : t.children c = a.children := by
        rw [children, ha]
        rfl
      rw [List.foldl_cons, copyStep, ha]
      dsimp only
      by_cases hc : c ∈ wanted
      · rw [if_pos (List.contains_iff_mem.mpr hc)]
        have hgraft : out.size < (out.graft target a).size := by
          rw [size_graft]
          omega
        have hbelow := ih hlevel hgraft
        rw [hchildren] at hbelow
        have hmid := hbelow.size_le
        rw [size_graft] at hmid
        exact .copy hc ha htarget hbelow (ihcs (by omega) hdeep')
      · rw [if_neg fun hmem => hc (List.contains_iff_mem.mp hmem)]
        exact (ihcs htarget hdeep').skip hc

/-! ### Walking a mirror -/

/-- Nothing is wanted below what is not wanted. -/
theorem filter_postOrderFrom_eq_nil (h : t.Linked)
    (hclosed : ∀ x j, t.Reaches x j → j ∈ wanted → x ∈ wanted) (hsize : c < t.size)
    (hn : t.size ≤ c + n) (hc : c ∉ wanted) :
    (t.postOrderFrom n c).filter wanted.contains = [] := by
  -- What is wanted below an attempt makes the attempt wanted, as all above it are.
  rw [List.filter_eq_nil_iff]
  intro j hj hwanted
  exact hc (hclosed c j ((h.mem_postOrderFrom hsize hn).mp hj) (List.contains_iff_mem.mp hwanted))

/-- A walk over the copies tells what a walk over the wanted attempts tells. -/
theorem Mirrors.filterMap_postOrderFrom {γ : Type} (h : t.Linked)
    (hclosed : ∀ x j, t.Reaches x j → j ∈ wanted → x ∈ wanted) (tell : Attempt → γ)
    (htell : ∀ a, tell a.bare = tell a) (hmirrors : Mirrors t out wanted lo cs ks)
    (hcs : ∀ c ∈ cs, c < t.size ∧ t.size ≤ c + n) (hks : out.size ≤ lo + m) :
    (ks.flatMap (out.postOrderFrom m)).filterMap (fun k => (out.get? k).map tell) =
      ((cs.flatMap (t.postOrderFrom n)).filter wanted.contains).filterMap
        (fun c => (t.get? c).map tell) := by
  induction hmirrors generalizing n m with
  | nil => rfl
  | skip hc _ ih =>
    -- Nothing is told of an attempt that is passed over, nor of what is below it.
    obtain ⟨⟨hsize, hn⟩, hcs'⟩ := List.forall_mem_cons.mp hcs
    rw [List.flatMap_cons, List.filter_append, filter_postOrderFrom_eq_nil h hclosed hsize hn hc,
      List.nil_append]
    exact ih hcs' hks
  | @copy lo c k cs ks a b hc ha hb hbare hk _ _ ih ih' =>
    obtain ⟨⟨hsize, hn⟩, hcs'⟩ := List.forall_mem_cons.mp hcs
    have hkSize : k < out.size := by
      rw [← Nat.not_le, ← get?_eq_none_iff, hb]
      exact Option.some_ne_none b
    -- Both walks go down one level.
    obtain ⟨n, rfl⟩ : ∃ i, n = i + 1 := ⟨n - 1, by omega⟩
    obtain ⟨m, rfl⟩ : ∃ i, m = i + 1 := ⟨m - 1, by omega⟩
    have hbelow : ∀ x ∈ a.children, x < t.size ∧ t.size ≤ x + n := by
      intro x hx
      have hmem : x ∈ t.children c := by
        rw [children, ha]
        exact hx
      have hlt := h.parent_lt_of_mem hmem
      exact ⟨h.lt_size_of_mem hmem, by omega⟩
    have hchildren : t.children c = a.children := by
      rw [children, ha]
      rfl
    have hchildren' : out.children k = b.children := by
      rw [children, hb]
      rfl
    have hsame : tell b = tell a := by rw [← htell b, hbare, htell]
    have hkeep : [c].filter wanted.contains = [c] := by
      rw [List.filter_cons, if_pos (List.contains_iff_mem.mpr hc), List.filter_nil]
    rw [List.flatMap_cons, List.flatMap_cons, List.filter_append, List.filterMap_append,
      List.filterMap_append, ih' hcs' hks]
    congr 1
    rw [postOrderFrom, postOrderFrom, hchildren, hchildren', List.filterMap_append,
      List.filter_append, List.filterMap_append, ih hbelow (by omega), hkeep]
    simp [ha, hb, hsame]

/-- Those to keep and those above them: with an attempt, what leads to it is among them. -/
theorem Linked.wanted_of_reaches (h : t.Linked) (keep : List Nat) (x j : Nat)
    (hreach : t.Reaches x j) (hj : j ∈ keep.flatMap fun id => id :: t.ancestors id) :
    x ∈ keep.flatMap fun id => id :: t.ancestors id := by
  obtain ⟨q, hq, hmem⟩ := List.mem_flatMap.mp hj
  refine List.mem_flatMap.mpr ⟨q, hq, ?_⟩
  rw [h.mem_self_or_ancestors] at hmem ⊢
  exact hreach.trans hmem

/-- A trimmed trail has the same root, and below it a mirror of what is to be kept. -/
theorem Linked.mirrors_trimTo (h : t.Linked) (hsize : 0 < t.size) (keep : List Nat) :
    0 < (t.trimTo keep).size ∧
      ((t.trimTo keep).get? 0).map Attempt.bare = (t.get? 0).map Attempt.bare ∧
      Mirrors t (t.trimTo keep) (keep.flatMap fun id => id :: t.ancestors id) 1 (t.children 0)
        ((t.trimTo keep).children 0) := by
  -- The copy begins with the root alone.
  have hroot : 0 < (⟨#[{ (t.get? 0).getD default with children := [] }]⟩ : Trail).size :=
    Nat.one_pos
  have hgrafted := grafted_copyWanted h (keep.flatMap fun id => id :: t.ancestors id)
    (show t.size ≤ 0 + t.size by omega) hroot
  obtain ⟨ks, hks, hmirrors⟩ := hgrafted.below
  have hpositive := hgrafted.size_le
  have htrim : t.copyWanted (keep.flatMap fun id => id :: t.ancestors id) t.size 0 0
      ⟨#[{ (t.get? 0).getD default with children := [] }]⟩ = t.trimTo keep := rfl
  rw [htrim] at hks hmirrors hpositive
  have hchildren : (t.trimTo keep).children 0 = ks := by
    rw [children, hks]
    rfl
  obtain ⟨a, ha⟩ : ∃ a, t.get? 0 = some a := ⟨_, Array.getElem?_eq_getElem hsize⟩
  refine ⟨hpositive, ?_, hchildren ▸ hmirrors⟩
  rw [hks, ha]
  rfl

/-- What the trimmed trail tells is what the trail tells of the attempts to keep and of those above
them, in the same order. -/
theorem filterMap_postOrder_trimTo {γ : Type} (h : t.Linked) (hsize : 0 < t.size) (keep : List Nat)
    (tell : Attempt → γ) (htell : ∀ a, tell a.bare = tell a) :
    (t.trimTo keep).postOrder.filterMap (fun k => ((t.trimTo keep).get? k).map tell) =
      (t.postOrder.filter (keep.flatMap fun id => id :: t.ancestors id).contains).filterMap
        (fun c => (t.get? c).map tell) := by
  obtain ⟨hpositive, -, hmirrors⟩ := h.mirrors_trimTo hsize keep
  obtain ⟨n, hn⟩ : ∃ i, t.size = i + 1 := ⟨t.size - 1, by omega⟩
  obtain ⟨m, hm⟩ : ∃ i, (t.trimTo keep).size = i + 1 :=
    ⟨(t.trimTo keep).size - 1, (Nat.succ_pred_eq_of_pos hpositive).symm⟩
  -- The walks leave the roots out and go through what is below them.
  rw [postOrder, postOrder, hm, hn, postOrderFrom, postOrderFrom, List.dropLast_concat,
    List.dropLast_concat]
  refine hmirrors.filterMap_postOrderFrom h (h.wanted_of_reaches keep) tell htell ?_ ?_
  · intro c hc
    have hlt := h.parent_lt_of_mem hc
    exact ⟨h.lt_size_of_mem hc, by omega⟩
  · exact Nat.le_of_eq (by rw [hm, Nat.add_comm])

end Trail

end ParseTrail
