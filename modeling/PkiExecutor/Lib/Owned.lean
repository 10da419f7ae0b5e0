/-
# `PkiExecutor.Lib.Owned` — one's own files in a directory that others use

A directory is a partial map from names to contents.  Owners make files in it under names
that are free, each at most one at a time, write to them and take them away again; some
cannot be taken away, and stay.  Others do as they please with all other names.

`Owned` says that every owner's file is there with its content, that no two have the
same, and that what the owners have neither now nor left is as the others have it.  There
is one rule for each thing that can happen.
-/
import Mathlib.Logic.Function.Basic
import Mathlib.Tactic.Common

namespace PkiExecutor

variable {ι κ ν : Type}

/-- `file` has the owners' files, `others` what is others', and `kept` the names of files
that could not be taken away. -/
structure Owned (file : ι → Option (κ × ν)) (dir others : κ → Option ν) (kept : List κ) :
    Prop where
  used : ∀ i p c, file i = some (p, c) → dir p = some c ∧ others p = none
  apart : ∀ i j p c d, file i = some (p, c) → file j = some (p, d) → i = j
  keeps : ∀ p ∈ kept, dir p ≠ none ∧ ∀ i c, file i ≠ some (p, c)
  rest : ∀ p, p ∉ kept → (∀ i c, file i ≠ some (p, c)) → dir p = others p

namespace Owned

variable {file : ι → Option (κ × ν)} {dir others : κ → Option ν} {kept : List κ} {i j : ι}
  {p q : κ} {c d : ν}

theorem empty (dir : κ → Option ν) : Owned (fun _ : ι => none) dir dir [] where
  used i p c h := by cases h
  apart i j p c d h := by cases h
  keeps p hp := by cases hp
  rest _ _ _ := rfl

theorem other (h : Owned file dir others kept) (hi : file i = some (p, c)) (hj : j ≠ i)
    (hq : file j = some (q, d)) : q ≠ p :=
  fun he => hj (h.apart j i p d c (he ▸ hq) hi)

section

variable [DecidableEq κ]

/-- Somebody else leaves something under a name that no owner has, or nothing. -/
theorem foreign (h : Owned file dir others kept) (hp : ∀ i c, file i ≠ some (p, c))
    (x : Option ν) : Owned file (Function.update dir p x) (Function.update others p x)
      (kept.filter (· ≠ p)) := by
  have hne : ∀ i q c, file i = some (q, c) → q ≠ p := fun i q c hi he => hp i c (he ▸ hi)
  constructor
  · intro i q c hi
    rw [Function.update_of_ne (hne i q c hi), Function.update_of_ne (hne i q c hi)]
    exact h.used i q c hi
  · exact h.apart
  · intro q hq
    obtain ⟨hq, hqp⟩ := List.mem_filter.mp hq
    rw [Function.update_of_ne (of_decide_eq_true hqp)]
    exact h.keeps q hq
  · intro q hq hnone
    by_cases hqp : q = p
    · subst hqp
      rw [Function.update_self, Function.update_self]
    · rw [Function.update_of_ne hqp, Function.update_of_ne hqp]
      exact h.rest q (fun hk => hq (List.mem_filter.mpr ⟨hk, decide_eq_true hqp⟩)) hnone

end

variable [DecidableEq ι]

theorem update_cases {x : Option (κ × ν)} (h : Function.update file i x j = some (q, d)) :
    j = i ∧ x = some (q, d) ∨ j ≠ i ∧ file j = some (q, d) := by
  by_cases hj : j = i
  · subst hj
    rw [Function.update_self] at h
    exact .inl ⟨rfl, h⟩
  · rw [Function.update_of_ne hj] at h
    exact .inr ⟨hj, h⟩

theorem given_up (h : Owned file dir others kept) (hi : file i = some (p, c)) :
    ∀ j d, Function.update file i none j = some (q, d) → q ≠ p ∧ file j = some (q, d) := by
  intro j d hj
  rcases update_cases hj with ⟨-, he⟩ | ⟨hne, hj⟩
  · cases he
  · exact ⟨h.other hi hne hj, hj⟩

theorem nobody (hi : file i = some (p, c)) (hne : q ≠ p)
    (hnone : ∀ j d, Function.update file i none j ≠ some (q, d)) : ∀ j d, file j ≠ some (q, d) := by
  intro j d hj
  by_cases hji : j = i
  · rw [hji, hi] at hj
    cases hj
    exact hne rfl
  · exact hnone j d (by rw [Function.update_of_ne hji]; exact hj)

theorem keep (h : Owned file dir others kept) (hi : file i = some (p, c)) :
    Owned (Function.update file i none) dir others (p :: kept) := by
  constructor
  · intro j q d hj
    exact h.used j q d (h.given_up hi j d hj).2
  · intro j k q d d' hj hk
    exact h.apart j k q d d' (h.given_up hi j d hj).2 (h.given_up hi k d' hk).2
  · intro q hq
    rcases List.mem_cons.mp hq with rfl | hq
    · refine ⟨?_, fun j d hj => (h.given_up hi j d hj).1 rfl⟩
      rw [(h.used i q c hi).1]
      exact Option.some_ne_none c
    · exact ⟨(h.keeps q hq).1, fun j d hj => (h.keeps q hq).2 j d (h.given_up hi j d hj).2⟩
  · intro q hq hnone
    obtain ⟨hne, hq⟩ := not_or.mp (mt List.mem_cons.mpr hq)
    exact h.rest q hq (nobody hi hne hnone)

variable [DecidableEq κ]

theorem create (h : Owned file dir others kept) (hi : file i = none) (hp : dir p = none) :
    Owned (Function.update file i (some (p, c))) (Function.update dir p (some c)) others kept := by
  -- nobody has the name: what is somebody's is there
  have hfree : ∀ j d, file j ≠ some (p, d) := by
    intro j d hj
    rw [(h.used j p d hj).1] at hp
    cases hp
  have hnot : p ∉ kept := fun hk => (h.keeps p hk).1 hp
  constructor
  · intro j q d hj
    rcases update_cases hj with ⟨-, he⟩ | ⟨-, hj⟩
    · cases he
      rw [Function.update_self, ← h.rest p hnot hfree]
      exact ⟨rfl, hp⟩
    · have hne : q ≠ p := fun he => hfree j d (he ▸ hj)
      rw [Function.update_of_ne hne]
      exact h.used j q d hj
  · intro j k q d d' hj hk
    rcases update_cases hj with ⟨hji, he⟩ | ⟨-, hj⟩
    · cases he
      rcases update_cases hk with ⟨hki, -⟩ | ⟨-, hk⟩
      · exact hji.trans hki.symm
      · exact absurd hk (hfree k d')
    · rcases update_cases hk with ⟨-, he⟩ | ⟨-, hk⟩
      · cases he
        exact absurd hj (hfree j d)
      · exact h.apart j k q d d' hj hk
  · intro q hq
    have hne : q ≠ p := fun he => hnot (he ▸ hq)
    refine ⟨?_, fun j d hj => ?_⟩
    · rw [Function.update_of_ne hne]
      exact (h.keeps q hq).1
    · rcases update_cases hj with ⟨-, he⟩ | ⟨-, hj⟩
      · cases he
        exact hne rfl
      · exact (h.keeps q hq).2 j d hj
  · intro q hq hnone
    have hne : q ≠ p := by
      rintro rfl
      exact hnone i c (Function.update_self ..)
    rw [Function.update_of_ne hne]
    refine h.rest q hq fun j d hj => ?_
    by_cases hji : j = i
    · rw [hji, hi] at hj
      cases hj
    · exact hnone j d (by rw [Function.update_of_ne hji]; exact hj)

theorem write (h : Owned file dir others kept) (hi : file i = some (p, c)) :
    Owned (Function.update file i (some (p, d))) (Function.update dir p (some d)) others kept := by
  constructor
  · intro j q d' hj
    rcases update_cases hj with ⟨-, he⟩ | ⟨hne, hj⟩
    · cases he
      exact ⟨Function.update_self .., (h.used i p c hi).2⟩
    · rw [Function.update_of_ne (h.other hi hne hj)]
      exact h.used j q d' hj
  · intro j k q d' d'' hj hk
    rcases update_cases hj with ⟨hji, he⟩ | ⟨hji, hj⟩
    · cases he
      rcases update_cases hk with ⟨hki, -⟩ | ⟨hki, hk⟩
      · exact hji.trans hki.symm
      · exact absurd rfl (h.other hi hki hk)
    · rcases update_cases hk with ⟨-, he⟩ | ⟨-, hk⟩
      · cases he
        exact absurd rfl (h.other hi hji hj)
      · exact h.apart j k q d' d'' hj hk
  · intro q hq
    have hne : q ≠ p := fun he => (h.keeps q hq).2 i c (he ▸ hi)
    refine ⟨?_, fun j d' hj => ?_⟩
    · rw [Function.update_of_ne hne]
      exact (h.keeps q hq).1
    · rcases update_cases hj with ⟨-, he⟩ | ⟨-, hj⟩
      · cases he
        exact hne rfl
      · exact (h.keeps q hq).2 j d' hj
  · intro q hq hnone
    have hne : q ≠ p := by
      rintro rfl
      exact hnone i d (Function.update_self ..)
    rw [Function.update_of_ne hne]
    refine h.rest q hq fun j d' hj => ?_
    by_cases hji : j = i
    · rw [hji, hi] at hj
      cases hj
      exact hne rfl
    · exact hnone j d' (by rw [Function.update_of_ne hji]; exact hj)

theorem remove (h : Owned file dir others kept) (hi : file i = some (p, c)) :
    Owned (Function.update file i none) (Function.update dir p none) others kept := by
  constructor
  · intro j q d hj
    obtain ⟨hne, hj⟩ := h.given_up hi j d hj
    rw [Function.update_of_ne hne]
    exact h.used j q d hj
  · intro j k q d d' hj hk
    exact h.apart j k q d d' (h.given_up hi j d hj).2 (h.given_up hi k d' hk).2
  · intro q hq
    have hne : q ≠ p := fun he => (h.keeps q hq).2 i c (he ▸ hi)
    rw [Function.update_of_ne hne]
    exact ⟨(h.keeps q hq).1, fun j d hj => (h.keeps q hq).2 j d (h.given_up hi j d hj).2⟩
  · intro q hq hnone
    by_cases hne : q = p
    · subst hne
      rw [Function.update_self, (h.used i q c hi).2]
    · rw [Function.update_of_ne hne]
      exact h.rest q hq (nobody hi hne hnone)

end Owned

end PkiExecutor
