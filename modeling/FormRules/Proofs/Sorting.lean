/-!
# Sorting by a comparison

Items that a comparison never ties have one list in which each item comes strictly before the ones
behind it. Sorting finds that list, in whatever order the items are given.
-/

namespace FormRules.Sorting

variable {Item : Type} {order : Item → Item → Ordering} [Std.TransCmp order]
  {items others : List Item}

theorem nodup_of_pairwise_lt (rising : items.Pairwise fun left right => order left right = .lt) :
    items.Nodup := by
  refine rising.imp fun {left right} before same => ?_
  subst same
  exact Std.OrientedCmp.not_lt_of_lt before before

/-- Items have only one list in strictly rising order. -/
theorem eq_of_pairwise_lt (rising : items.Pairwise fun left right => order left right = .lt)
    (others_rising : others.Pairwise fun left right => order left right = .lt)
    (same : ∀ item, item ∈ items ↔ item ∈ others) : items = others := by
  have perm : items.Perm others :=
    (List.perm_ext_iff_of_nodup (nodup_of_pairwise_lt rising)
      (nodup_of_pairwise_lt others_rising)).2 fun {item} => same item
  refine perm.eq_of_pairwise (fun _ _ _ _ before after => ?_) rising others_rising
  exact absurd after (Std.OrientedCmp.not_lt_of_lt before)

/-- Sorting items that never tie puts them in strictly rising order. -/
theorem mergeSort_pairwise_lt (apart : items.Pairwise fun left right => order left right ≠ .eq) :
    (items.mergeSort fun left right => (order left right).isLE).Pairwise
      fun left right => order left right = .lt := by
  have sorted : (items.mergeSort fun left right => (order left right).isLE).Pairwise
      fun left right => (order left right).isLE = true := by
    refine List.pairwise_mergeSort (fun _ _ _ => Std.TransCmp.isLE_trans) (fun left right => ?_) _
    have swapped : order right left = (order left right).swap := Std.OrientedCmp.eq_swap
    rw [swapped]
    cases order left right <;> rfl
  have still_apart : (items.mergeSort fun left right => (order left right).isLE).Pairwise
      fun left right => order left right ≠ .eq :=
    (List.mergeSort_perm items _).symm.pairwise apart fun differ =>
      mt Std.OrientedCmp.eq_symm differ
  refine sorted.imp₂ (fun left right before differ => ?_) still_apart
  cases outcome : order left right with
  | lt => rfl
  | eq => exact absurd outcome differ
  | gt => simp [outcome] at before

end FormRules.Sorting
