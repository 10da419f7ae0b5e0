/-
# `PkiExecutor.Lib.Pieces` — lists cut at a separator of two elements

A list that joins pieces with the separator `[a, b]` can be cut at it again.
`cut` does that from the left, and `cut_intercalate_iff` says when it gives the
pieces back: exactly where none of them has the separator inside.  The two
elements must differ, for otherwise a piece that ends like the separator begins
would shift the cut.

What "inside" means is `Adjacent`: the two stand next to each other, in order.
-/
import Mathlib.Data.List.Infix
import Mathlib.Tactic.Common

namespace PkiExecutor.Pieces

variable {α : Type}

/-- `a` and, right after it, `b` occur in the list. -/
def Adjacent (a b : α) (l : List α) : Prop := [a, b] <:+: l

instance [DecidableEq α] (a b : α) (l : List α) : Decidable (Adjacent a b l) :=
  inferInstanceAs (Decidable (_ <:+: _))

theorem not_adjacent_nil (a b : α) : ¬ Adjacent a b [] := by simp [Adjacent]

theorem adjacent_cons {a b c : α} {l : List α} :
    Adjacent a b (c :: l) ↔ (c = a ∧ l.head? = some b) ∨ Adjacent a b l := by
  rw [Adjacent, List.infix_cons_iff, List.cons_prefix_cons]
  cases l with
  | nil => simp [Adjacent]
  | cons d l => simp [Adjacent, eq_comm]

theorem adjacent_append {a b : α} {m : List α} : ∀ {l : List α},
    Adjacent a b (l ++ m) ↔ Adjacent a b l ∨ Adjacent a b m ∨
      (l.getLast? = some a ∧ m.head? = some b)
  | [] => by simp [not_adjacent_nil]
  | [c] => by
      simp only [List.singleton_append, adjacent_cons, List.head?_nil, reduceCtorEq, and_false,
        not_adjacent_nil, or_false, List.getLast?_singleton, Option.some.injEq]
      tauto
  | c :: d :: l => by
      have ih := adjacent_append (a := a) (b := b) (m := m) (l := d :: l)
      simp only [List.cons_append] at ih ⊢
      rw [adjacent_cons, ih, adjacent_cons (l := d :: l), List.getLast?_cons_cons]
      simp only [List.head?_cons]
      tauto

theorem not_adjacent_of_not_mem {a b : α} {l : List α} (h : a ∉ l) : ¬ Adjacent a b l :=
  fun hl => h (hl.subset List.mem_cons_self)

section Cut

variable [DecidableEq α] {a b : α}

/-- The pieces between the occurrences of `[a, b]`, from the left. -/
def cut (a b : α) : List α → List (List α)
  | [] => [[]]
  | [c] => [[c]]
  | c :: d :: l =>
      if c = a ∧ d = b then [] :: cut a b l else (cut a b (d :: l)).modifyHead (c :: ·)

theorem cut_ne_nil : ∀ l : List α, cut a b l ≠ []
  | [] => by simp [cut]
  | [c] => by simp [cut]
  | c :: d :: l => by
      rw [cut]
      split
      · simp
      · simpa using cut_ne_nil (d :: l)

theorem cut_of_not_adjacent : ∀ {l : List α}, ¬ Adjacent a b l → cut a b l = [l]
  | [], _ => rfl
  | [_], _ => rfl
  | c :: d :: l, h => by
      rw [adjacent_cons] at h
      have hhead : ¬ (c = a ∧ d = b) := fun hc => h (.inl ⟨hc.1, by simp [hc.2]⟩)
      have ih : cut a b (d :: l) = [d :: l] := cut_of_not_adjacent fun hd => h (.inr hd)
      rw [cut, if_neg hhead, ih]
      rfl

theorem cut_append (hab : a ≠ b) {m : List α} : ∀ {l : List α}, ¬ Adjacent a b l →
    cut a b (l ++ a :: b :: m) = l :: cut a b m
  | [], _ => by simp [cut]
  | [c], _ => by
      -- the element before the separator does not open one with its first element
      have hne : ¬ (c = a ∧ a = b) := fun h => hab h.2
      rw [List.singleton_append, cut, if_neg hne, cut, if_pos ⟨rfl, rfl⟩]
      rfl
  | c :: d :: l, h => by
      rw [adjacent_cons] at h
      have hhead : ¬ (c = a ∧ d = b) := fun hc => h (.inl ⟨hc.1, by simp [hc.2]⟩)
      have ih : cut a b (d :: l ++ a :: b :: m) = (d :: l) :: cut a b m :=
        cut_append hab fun hd => h (.inr hd)
      rw [List.cons_append] at ih
      rw [List.cons_append, List.cons_append, cut, if_neg hhead, ih]
      rfl

theorem head_of_cut {c e : α} {l q : List α} {qs : List (List α)}
    (hq : cut a b (c :: l) = q :: qs) (he : q.head? = some e) : c = e := by
  cases l with
  | nil =>
      obtain ⟨rfl, -⟩ := List.cons.inj hq
      simpa using he
  | cons d l =>
      rw [cut] at hq
      split at hq
      · obtain ⟨rfl, -⟩ := List.cons.inj hq
        simp at he
      · obtain ⟨r, rs, hr⟩ := List.exists_cons_of_ne_nil (cut_ne_nil (a := a) (b := b) (d :: l))
        rw [hr, List.modifyHead_cons] at hq
        obtain ⟨rfl, -⟩ := List.cons.inj hq
        simpa using he

theorem not_adjacent_of_mem_cut : ∀ {l p : List α}, p ∈ cut a b l → ¬ Adjacent a b p
  | [], p, h => by
      obtain rfl : p = [] := by simpa [cut] using h
      exact not_adjacent_nil a b
  | [c], p, h => by
      obtain rfl : p = [c] := by simpa [cut] using h
      simp [adjacent_cons, not_adjacent_nil]
  | c :: d :: l, p, h => by
      rw [cut] at h
      split at h
      · rcases List.mem_cons.mp h with rfl | h
        · exact not_adjacent_nil a b
        · exact not_adjacent_of_mem_cut h
      · rename_i hhead
        obtain ⟨q, qs, hq⟩ := List.exists_cons_of_ne_nil (cut_ne_nil (a := a) (b := b) (d :: l))
        have hpieces : ∀ x ∈ q :: qs, ¬ Adjacent a b x := fun x hx =>
          not_adjacent_of_mem_cut (hq ▸ hx)
        rw [hq, List.modifyHead_cons] at h
        rcases List.mem_cons.mp h with rfl | h
        · rw [adjacent_cons]
          rintro (⟨rfl, hb⟩ | hin)
          · -- the piece goes on with `b`, so the list did too
            exact hhead ⟨rfl, head_of_cut hq hb⟩
          · exact hpieces q List.mem_cons_self hin
        · exact hpieces p (List.mem_cons_of_mem _ h)

/-- Cutting a join gives the pieces back exactly if none has the separator
inside. -/
theorem cut_intercalate_iff (hab : a ≠ b) {xs : List (List α)} (hne : xs ≠ []) :
    cut a b ([a, b].intercalate xs) = xs ↔ ∀ x ∈ xs, ¬ Adjacent a b x := by
  constructor
  · intro h x hx
    exact not_adjacent_of_mem_cut (h ▸ hx)
  · intro h
    induction xs with
    | nil => exact absurd rfl hne
    | cons x xs ih =>
        rw [List.forall_mem_cons] at h
        cases xs with
        | nil => rw [List.intercalate_singleton, cut_of_not_adjacent h.1]
        | cons y ys =>
            rw [List.intercalate_cons_cons, List.append_assoc]
            show cut a b (x ++ a :: b :: [a, b].intercalate (y :: ys)) = _
            rw [cut_append hab h.1, ih (List.cons_ne_nil y ys) h.2]

end Cut

end PkiExecutor.Pieces
