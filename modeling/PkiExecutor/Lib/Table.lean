/-
# `PkiExecutor.Lib.Table` — lists of things that change one at a time

A list that things are added to at its end and in which one of them is replaced at a
time: what stands where after either.
-/
import Mathlib.Data.List.Basic
import Mathlib.Tactic.Common

namespace PkiExecutor.Table

variable {α : Type} {xs : List α} {x y : α} {i j : Nat}

theorem getElem?_concat (h : (xs ++ [x])[i]? = some y) :
    xs[i]? = some y ∨ i = xs.length ∧ y = x := by
  rcases Nat.lt_or_ge i xs.length with hi | hi
  · exact .inl (by rwa [List.getElem?_append_left hi] at h)
  · rw [List.getElem?_append_right hi, List.getElem?_singleton] at h
    split at h
    · cases h
      exact .inr ⟨by omega, rfl⟩
    · cases h

theorem getElem?_set (h : (xs.set i x)[j]? = some y) :
    j = i ∧ y = x ∨ j ≠ i ∧ xs[j]? = some y := by
  rw [List.getElem?_set] at h
  split at h
  · rename_i hij
    split at h
    · cases h
      exact .inl ⟨hij.symm, rfl⟩
    · cases h
  · exact .inr ⟨fun hji => ‹¬ i = j› hji.symm, h⟩

theorem getElem?_concat_of_some (h : xs[i]? = some y) : (xs ++ [x])[i]? = some y := by
  rw [List.getElem?_append_left (List.getElem?_eq_some_iff.mp h).1]
  exact h

end PkiExecutor.Table
