/-
# `PkiExecutor.Lib.Words` — words, stripped lists and joins

What it takes to read a line of words back.  Some elements are breaks; the words
of a list are its maximal stretches without one, and stripping takes the breaks
off both ends.  Everything about words follows from how they split at a break,
`words_append_break`; the round trip is `words_intercalate`.  A join comes apart
into pieces with nothing to strip exactly if it is `Tight`.
-/
import PkiExecutor.Lib.Pieces
import Mathlib.Data.List.DropRight
import Mathlib.Tactic.Common

namespace PkiExecutor.Words

open Pieces (Adjacent)

variable {α : Type} {p : α → Bool}

/-! ## Words -/

/-- The non-empty stretches between breaks. -/
def words (p : α → Bool) (l : List α) : List (List α) := (l.splitOnP p).filter (!·.isEmpty)

theorem words_append_break {b : α} (hb : p b = true) (l m : List α) :
    words p (l ++ b :: m) = words p l ++ words p m := by
  rw [words, List.splitOnP_append_cons l m hb, List.filter_append]
  rfl

theorem words_of_unbroken {w : List α} (hne : w ≠ []) (h : ∀ a ∈ w, p a = false) :
    words p w = [w] := by
  rw [words, List.splitOnP_eq_singleton h]
  simpa using hne

theorem words_intercalate {b : α} (hb : p b = true) {ws : List (List α)}
    (h : ∀ w ∈ ws, w ≠ [] ∧ ∀ a ∈ w, p a = false) : words p ([b].intercalate ws) = ws := by
  induction ws with
  | nil => rfl
  | cons w ws ih =>
      rw [List.forall_mem_cons] at h
      obtain ⟨⟨hne, hw⟩, hws⟩ := h
      cases ws with
      | nil => rw [List.intercalate_singleton, words_of_unbroken hne hw]
      | cons v vs =>
          rw [List.intercalate_cons_cons, List.append_assoc, List.singleton_append,
            words_append_break hb, words_of_unbroken hne hw, ih hws]
          rfl

/-! ## Stripping -/

/-- The list without the breaks at its ends. -/
def strip (p : α → Bool) (l : List α) : List α := (l.dropWhile p).rdropWhile p

theorem strip_of_ends {l : List α} (hhead : ∀ a, l.head? = some a → p a = false)
    (hlast : ∀ a, l.getLast? = some a → p a = false) : strip p l = l := by
  cases l with
  | nil => rfl
  | cons a l =>
      have ha : p a = false := hhead a rfl
      rw [strip, List.dropWhile_cons_of_neg (by simp [ha]), List.rdropWhile_eq_self_iff]
      intro hne
      have hl := hlast _ (List.getLast?_eq_some_getLast hne)
      simp [hl]

theorem strip_concat {b : α} (hb : p b = true) (l : List α) : strip p (l ++ [b]) = strip p l := by
  rw [strip, strip, List.dropWhile_append]
  split
  · rename_i he
    have hnil : l.dropWhile p = [] := by simpa using he
    rw [hnil, List.dropWhile_cons_of_pos hb]
    rfl
  · rw [List.rdropWhile_concat_pos _ _ _ hb]

/-! ## Joins -/

theorem mem_intercalate {b a : α} : ∀ {ls : List (List α)}, a ∈ [b].intercalate ls →
    a = b ∨ ∃ l ∈ ls, a ∈ l
  | [], h => absurd h List.not_mem_nil
  | [l], h => by
      rw [List.intercalate_singleton] at h
      exact .inr ⟨l, List.mem_singleton_self l, h⟩
  | l :: m :: ls, h => by
      rw [List.intercalate_cons_cons, List.append_assoc, List.singleton_append, List.mem_append,
        List.mem_cons] at h
      rcases h with h | h | h
      · exact .inr ⟨l, List.mem_cons_self, h⟩
      · exact .inl h
      · rcases mem_intercalate h with h | ⟨k, hk, ha⟩
        · exact .inl h
        · exact .inr ⟨k, List.mem_cons_of_mem l hk, ha⟩

theorem mem_intercalate_of_mem {sep : List α} {a : α} {l : List α} :
    ∀ {ls : List (List α)}, l ∈ ls → a ∈ l → a ∈ sep.intercalate ls
  | [_], hl, ha => by
      rw [List.intercalate_singleton]
      exact List.mem_singleton.mp hl ▸ ha
  | m :: n :: ls, hl, ha => by
      rw [List.intercalate_cons_cons, List.append_assoc, List.mem_append, List.mem_append]
      rcases List.mem_cons.mp hl with rfl | hl
      · exact .inl ha
      · exact .inr (.inr (mem_intercalate_of_mem hl ha))

/-- A join of words begins and ends with the words', so stripping leaves it. -/
theorem strip_intercalate {b : α} {ws : List (List α)}
    (h : ∀ w ∈ ws, w ≠ [] ∧ ∀ a ∈ w, p a = false) :
    strip p ([b].intercalate ws) = [b].intercalate ws := by
  have hhead : ∀ a, ([b].intercalate ws).head? = some a → p a = false := by
    intro a ha
    cases ws with
    | nil => cases ha
    | cons w ws =>
        obtain ⟨hne, hw⟩ := h w List.mem_cons_self
        obtain ⟨c, l, rfl⟩ := List.exists_cons_of_ne_nil hne
        obtain rfl : c = a := by cases ws <;> simpa [List.intercalate] using ha
        exact hw c List.mem_cons_self
  have hlast : ∀ a, ([b].intercalate ws).getLast? = some a → p a = false := by
    intro a ha
    clear hhead
    induction ws with
    | nil => cases ha
    | cons w ws ih =>
        rw [List.forall_mem_cons] at h
        cases ws with
        | nil =>
            rw [List.intercalate_singleton] at ha
            exact h.1.2 a (List.mem_of_getLast? ha)
        | cons v vs =>
            have hne : [b].intercalate (v :: vs) ≠ [] := by
              obtain ⟨c, l, hv⟩ := List.exists_cons_of_ne_nil (h.2 v List.mem_cons_self).1
              subst hv
              cases vs <;> simp [List.intercalate]
            rw [List.intercalate_cons_cons, List.getLast?_append_of_ne_nil _ hne] at ha
            exact ih h.2 ha
  exact strip_of_ends hhead hlast

theorem not_mem_of_mem_splitOn [BEq α] [LawfulBEq α] {b : α} : ∀ {l piece : List α},
    piece ∈ l.splitOn b → b ∉ piece
  | [], piece, h => by
      obtain rfl : piece = [] := by simpa using h
      exact List.not_mem_nil
  | a :: l, piece, h => by
      rw [List.splitOn_cons_eq_if_modifyHead] at h
      split at h
      · rcases List.mem_cons.mp h with rfl | h
        · exact List.not_mem_nil
        · exact not_mem_of_mem_splitOn h
      · rename_i ha
        obtain ⟨q, qs, hq⟩ := List.exists_cons_of_ne_nil (List.splitOn_ne_nil b l)
        have hpieces : ∀ x ∈ q :: qs, b ∉ x := fun x hx => not_mem_of_mem_splitOn (hq ▸ hx)
        rw [hq, List.modifyHead_cons] at h
        rcases List.mem_cons.mp h with rfl | h
        · rw [List.mem_cons, not_or]
          exact ⟨fun he => ha (by simp [he]), hpieces q List.mem_cons_self⟩
        · exact hpieces piece (List.mem_cons_of_mem _ h)

/-! ## Pieces with nothing to strip

Cutting a list at a separator and stripping the pieces is the same as cutting it
where no break touches a separator or an end. -/

section Tight

variable {b : α}

/-- No break at either end. -/
def Ends (p : α → Bool) (l : List α) : Prop :=
  (∀ a, l.head? = some a → p a = false) ∧ ∀ a, l.getLast? = some a → p a = false

theorem strip_eq_iff {l : List α} : strip p l = l ↔ Ends p l := by
  constructor
  · intro h
    have hlen : l.length ≤ (l.dropWhile p).length := by
      conv => lhs; rw [← h]
      exact (List.rdropWhile_prefix p _).length_le
    have hdrop : l.dropWhile p = l := (List.dropWhile_suffix p).eq_of_length_le hlen
    constructor
    · intro a ha
      obtain ⟨rest, rfl⟩ := List.head?_eq_some_iff.mp ha
      rw [List.dropWhile_eq_self_iff] at hdrop
      simpa using hdrop (Nat.succ_pos _)
    · intro a ha
      rw [strip, hdrop, List.rdropWhile_eq_self_iff] at h
      obtain ⟨front, rfl⟩ := List.getLast?_eq_some_iff.mp ha
      simpa using h
  · intro h
    exact strip_of_ends h.1 h.2

/-- No break at either end or next to a separator. -/
def Tight (p : α → Bool) (b : α) (l : List α) : Prop :=
  Ends p l ∧ ∀ a, p a = true → ¬ Adjacent a b l ∧ ¬ Adjacent b a l

theorem tight_of_unbroken {l : List α} (h : ∀ a ∈ l, p a = false) : Tight p b l := by
  refine ⟨⟨fun a ha => h a (List.mem_of_mem_head? ha), fun a ha => h a (List.mem_of_getLast? ha)⟩,
    fun a ha => ⟨fun hadj => ?_, fun hadj => ?_⟩⟩
  · exact absurd (h a (hadj.subset List.mem_cons_self)) (by simp [ha])
  · exact absurd (h a (hadj.subset (by simp))) (by simp [ha])

theorem tight_of_not_mem {l : List α} (hb : b ∉ l) : Tight p b l ↔ Ends p l := by
  constructor
  · intro h
    exact h.1
  · intro h
    refine ⟨h, fun a _ => ⟨fun hadj => ?_, fun hadj => ?_⟩⟩
    · exact hb (hadj.subset (by simp))
    · exact hb (hadj.subset List.mem_cons_self)

theorem ends_append {l rest : List α} (hp : p b = false) :
    Ends p (l ++ b :: rest) ↔
      (∀ a, l.head? = some a → p a = false) ∧ ∀ a, rest.getLast? = some a → p a = false := by
  have hhead : (∀ a, (l ++ b :: rest).head? = some a → p a = false) ↔
      ∀ a, l.head? = some a → p a = false := by
    cases l with
    | nil => simp [hp]
    | cons c l => simp
  have hlast : (∀ a, (l ++ b :: rest).getLast? = some a → p a = false) ↔
      ∀ a, rest.getLast? = some a → p a = false := by
    cases rest with
    | nil => simp [hp]
    | cons c rest => simp [List.getLast?_append, List.getLast?_cons]
  rw [Ends, hhead, hlast]

/-- A break touches a separator in the rest, or the one in front of the rest. -/
theorem adjacent_separator {l rest : List α} {a : α} (hb : b ∉ l) (hne : a ≠ b) :
    (¬ Adjacent a b (l ++ b :: rest) ∧ ¬ Adjacent b a (l ++ b :: rest)) ↔
      l.getLast? ≠ some a ∧ rest.head? ≠ some a ∧ ¬ Adjacent a b rest ∧ ¬ Adjacent b a rest := by
  have hafter : ¬ Adjacent a b l := fun h => hb (h.subset (by simp))
  have hbefore : ¬ Adjacent b a l := Pieces.not_adjacent_of_not_mem hb
  have hlast : l.getLast? ≠ some b := fun h => hb (List.mem_of_getLast? h)
  simp only [Pieces.adjacent_append, Pieces.adjacent_cons, hafter, hbefore, hlast, hne.symm,
    List.head?_cons, false_and, and_true, true_and, false_or, or_false, not_or]
  tauto

theorem tight_append {l rest : List α} (hb : b ∉ l) (hp : p b = false) :
    Tight p b (l ++ b :: rest) ↔ Ends p l ∧ Tight p b rest := by
  have hne : ∀ a, p a = true → a ≠ b := by
    rintro a ha rfl
    exact absurd ha (by simp [hp])
  rw [Tight, ends_append hp]
  constructor
  · rintro ⟨⟨hhead, hlast⟩, hadj⟩
    have hseams := fun a ha => (adjacent_separator hb (hne a ha)).mp (hadj a ha)
    refine ⟨⟨hhead, fun a ha => ?_⟩, ⟨fun a ha => ?_, hlast⟩, fun a ha => (hseams a ha).2.2⟩
    · exact Bool.eq_false_iff.mpr fun hpa => (hseams a hpa).1 ha
    · exact Bool.eq_false_iff.mpr fun hpa => (hseams a hpa).2.1 ha
  · rintro ⟨⟨hhead, hend⟩, ⟨hstart, hlast⟩, hadj⟩
    refine ⟨⟨hhead, hlast⟩, fun a ha => (adjacent_separator hb (hne a ha)).mpr ⟨?_, ?_, hadj a ha⟩⟩
    · intro h
      exact absurd (hend a h) (by simp [ha])
    · intro h
      exact absurd (hstart a h) (by simp [ha])

theorem tight_intercalate (hp : p b = false) : ∀ {ls : List (List α)}, ls ≠ [] →
    (∀ l ∈ ls, b ∉ l) → (Tight p b ([b].intercalate ls) ↔ ∀ l ∈ ls, Ends p l)
  | [l], _, h => by
      rw [List.intercalate_singleton, List.forall_mem_singleton]
      exact tight_of_not_mem (h l List.mem_cons_self)
  | l :: m :: ls, _, h => by
      rw [List.forall_mem_cons] at h
      have ih := tight_intercalate hp (List.cons_ne_nil m ls) h.2
      rw [List.intercalate_cons_cons, List.append_assoc, List.singleton_append,
        tight_append h.1 hp, ih]
      exact List.forall_mem_cons.symm

end Tight

end PkiExecutor.Words
