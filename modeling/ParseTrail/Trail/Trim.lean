import ParseTrail.Trail.Walk

/-!
# Trimming a trail

A trail cut down to some attempts and the paths that lead to them. The attempts kept stay in their
order and get new indices.
-/

namespace ParseTrail.Trail

/-- Copies into `out`, below `target`, the wanted attempts below `id`, down to `n` levels. -/
def copyWanted (t : Trail) (wanted : List Nat) : Nat → Nat → Nat → Trail → Trail
  | 0, _, _, out => out
  | n + 1, id, target, out =>
    (t.children id).foldl
      (fun out child =>
        match t.get? child with
        | some a =>
          if wanted.contains child then
            let copy := out.size
            let out : Trail := ⟨out.attempts.push { a with parent? := some target, children := [] }⟩
            let out := out.setChildren target (out.children target ++ [copy])
            t.copyWanted wanted n child copy out
          else out
        | none => out)
      out

/-- The trail that holds, within reach of the root, only some attempts and those above them. -/
def trimTo (t : Trail) (keep : List Nat) : Trail :=
  let wanted := keep.flatMap fun id => id :: t.ancestors id
  let root : Attempt := { (t.get? 0).getD default with children := [] }
  t.copyWanted wanted t.size 0 0 ⟨#[root]⟩

end ParseTrail.Trail
