import Mathlib.Data.List.Basic

/-!
# Histories

A history grows at its end. An event of it is seen together with what was before it and what came
since.
-/

namespace FormRules

/-- An event of a history with one more event at its end is that one, or it has occurred before. -/
theorem exists_split_concat {Event : Type} {history : List Event} {event last : Event}
    {occurs : List Event → List Event → Prop} :
    (∃ before since, history ++ [last] = before ++ event :: since ∧ occurs before since) ↔
      (last = event ∧ occurs history []) ∨
      ∃ before since, history = before ++ event :: since ∧ occurs before (since ++ [last]) := by
  constructor
  · rintro ⟨before, since, whole, occurred⟩
    rcases List.eq_nil_or_concat since with rfl | ⟨since, latest, rfl⟩
    · obtain ⟨rfl, same⟩ := List.append_inj' whole rfl
      exact .inl ⟨List.singleton_inj.1 same, occurred⟩
    · rw [List.concat_eq_append] at whole occurred
      rw [← List.cons_append, ← List.append_assoc] at whole
      obtain ⟨rfl, same⟩ := List.append_inj' whole rfl
      obtain rfl := List.singleton_inj.1 same
      exact .inr ⟨before, since, rfl, occurred⟩
  · rintro (⟨rfl, occurred⟩ | ⟨before, since, rfl, occurred⟩)
    · exact ⟨history, [], rfl, occurred⟩
    · exact ⟨before, since ++ [last], by simp, occurred⟩

end FormRules
