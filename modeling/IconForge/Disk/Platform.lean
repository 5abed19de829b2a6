import IconForge.Path.Basic

/-!
# What a disk leaves open

In which order a directory is read is not settled by what is in it, nor is how deep a tree can be copied before the program gives up. A
platform settles both. Whatever it settles on, the order of a directory depends on its place and on the names in it alone.
-/

namespace IconForge

/-- Where an entry is: the names from the root down. No path leads to the empty name: a directory of that name stands for a working
directory that has been removed, which is still there for whoever works in it. -/
abbrev Location := List String

/-- The orders in which things are listed, and a limit to copying. -/
structure Platform where
  /-- The order in which the names in a directory are read. -/
  order : Location → List String → List String
  order_perm : ∀ l names, (order l names).Perm names
  /-- It depends on which names there are, and not on how they came to be there. -/
  order_congr : ∀ {l names names'}, names.Perm names' → order l names = order l names'
  /-- The order in which files are listed that have been found in some order. -/
  arrange : List Path → List Path
  arrange_perm : ∀ paths, (arrange paths).Perm paths
  /-- How many directories, one below the other, can be copied. -/
  copyDepth : Nat

namespace Platform

/-- Names in order. -/
def sortNames (names : List String) : List String := names.mergeSort fun a b => a ≤ b

/-- Each name comes before those that follow it. -/
theorem pairwise_sortNames (names : List String) : (sortNames names).Pairwise fun a b => decide (a ≤ b) = true := by
  refine List.pairwise_mergeSort (fun a b c hab hbc => ?_) (fun a b => ?_) names
  · exact decide_eq_true (String.le_trans (of_decide_eq_true hab) (of_decide_eq_true hbc))
  · simpa using String.le_total a b

/-- Names come in the same order wherever they stood before. -/
theorem sortNames_congr {names names' : List String} (h : names.Perm names') : sortNames names = sortNames names' :=
  List.Perm.eq_of_pairwise (fun _ _ _ _ hab hba => String.le_antisymm (of_decide_eq_true hab) (of_decide_eq_true hba))
    (pairwise_sortNames names) (pairwise_sortNames names')
    ((List.mergeSort_perm _ _).trans (h.trans (List.mergeSort_perm _ _).symm))

/-- Names are read in order, and files listed in the order of their written paths. A stack of a thousand calls takes some four hundred
and ninety directories, with two calls for each. -/
def sorted (copyDepth : Nat := 490) : Platform where
  order := fun _ names => sortNames names
  order_perm := fun _ _ => List.mergeSort_perm _ _
  order_congr := sortNames_congr
  arrange := fun paths => paths.mergeSort fun a b => a.toString ≤ b.toString
  arrange_perm := fun _ => List.mergeSort_perm _ _
  copyDepth

end Platform

end IconForge
