/-
# `PkiExecutor.Lib.FileModes` — files with modes, and where a secret stands

A disk is a map from paths to files, a file a list of pieces with a mode.  Writing
puts pieces into a file and keeps the mode of one that is there already; changing
the mode of a file keeps its pieces.

The question is which modes the files have that contain a given piece.  As long as
it stands in one file only (`OnlyAt`), setting the mode of that file settles it
(`guards_chmod`), and nothing done to another file unsettles it (`Guards.chmod`).
-/
import Mathlib.Logic.Function.Basic
import Mathlib.Tactic.Common

namespace PkiExecutor

/-- A file: its pieces, and its mode. -/
structure ModeFile (κ : Type) where
  content : List κ
  mode : Nat

/-- The files by their paths. -/
abbrev Disk (π κ : Type) := π → Option (ModeFile κ)

namespace Disk

variable {π κ : Type} [DecidableEq π] {d : Disk π κ} {p q : π} {x : κ} {content : List κ}
  {mode created : Nat}

/-- Write a file from its beginning; a new one gets the mode `created`. -/
def write (d : Disk π κ) (p : π) (content : List κ) (created : Nat) : Disk π κ :=
  Function.update d p (some ⟨content, (d p).elim created (·.mode)⟩)

/-- Write at the end of a file. -/
def append (d : Disk π κ) (p : π) (content : List κ) (created : Nat) : Disk π κ :=
  Function.update d p
    (some ⟨(d p).elim content (·.content ++ content), (d p).elim created (·.mode)⟩)

/-- The mode of a file is set, if there is one. -/
def chmod (d : Disk π κ) (p : π) (mode : Nat) : Disk π κ :=
  Function.update d p ((d p).map ({ · with mode := mode }))

/-- The piece stands in the file at this path at most. -/
def OnlyAt (d : Disk π κ) (x : κ) (p : π) : Prop :=
  ∀ q f, d q = some f → x ∈ f.content → q = p

/-- Every file with the piece in it has this mode. -/
def Guards (d : Disk π κ) (x : κ) (mode : Nat) : Prop :=
  ∀ q f, d q = some f → x ∈ f.content → f.mode = mode

theorem write_other (h : q ≠ p) : (d.write p content created) q = d q := Function.update_of_ne h _ _

theorem chmod_other (h : q ≠ p) : (d.chmod p mode) q = d q := Function.update_of_ne h _ _

theorem mem_chmod {f : ModeFile κ} (h : (d.chmod p mode) q = some f) (hx : x ∈ f.content) :
    ∃ f', d q = some f' ∧ x ∈ f'.content := by
  by_cases hq : q = p
  · subst hq
    rw [chmod, Function.update_self, Option.map_eq_some_iff] at h
    obtain ⟨f', hf, rfl⟩ := h
    exact ⟨f', hf, hx⟩
  · rw [chmod_other hq] at h
    exact ⟨f, h, hx⟩

theorem onlyAt_write (h : ∀ q f, d q = some f → x ∉ f.content) :
    (d.write p content created).OnlyAt x p := by
  intro q f hf hx
  by_contra hq
  rw [write_other hq] at hf
  exact h q f hf hx

theorem OnlyAt.write (h : d.OnlyAt x p) (hx : x ∉ content) :
    (d.write q content created).OnlyAt x p := by
  intro r f hf hm
  by_cases hr : r = q
  · subst hr
    rw [Disk.write, Function.update_self] at hf
    obtain rfl := Option.some.inj hf
    exact absurd hm hx
  · rw [write_other hr] at hf
    exact h r f hf hm

theorem OnlyAt.chmod (h : d.OnlyAt x p) : (d.chmod q mode).OnlyAt x p := by
  intro r f hf hm
  obtain ⟨f', hf', hm'⟩ := mem_chmod hf hm
  exact h r f' hf' hm'

theorem guards_chmod (h : d.OnlyAt x p) : (d.chmod p mode).Guards x mode := by
  intro q f hf hm
  obtain rfl : q = p := h.chmod q f hf hm
  rw [Disk.chmod, Function.update_self, Option.map_eq_some_iff] at hf
  obtain ⟨f', -, rfl⟩ := hf
  rfl

theorem Guards.chmod {other : Nat} (h : d.Guards x mode) (honly : d.OnlyAt x p) (hq : p ≠ q) :
    (d.chmod q other).Guards x mode := by
  intro r f hf hm
  obtain rfl : r = p := honly.chmod r f hf hm
  rw [chmod_other hq] at hf
  exact h r f hf hm

/-- Setting the mode of a file with the piece in it leaves no other mode guarded. -/
theorem Guards.mode_eq {other : Nat} {f : ModeFile κ} (hf : d p = some f) (hx : x ∈ f.content)
    (h : (d.chmod p other).Guards x mode) : other = mode := by
  refine h p { f with mode := other } ?_ hx
  rw [Disk.chmod, Function.update_self, hf]
  rfl

end Disk

end PkiExecutor
