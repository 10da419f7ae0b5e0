/-
# `PkiExecutor.Lib.Ledger` — entries that are made once and kept

A ledger has a list of values under each key.  Somebody who must not take over
what others have entered can settle a request in two ways: enter a value where
there is none, or find exactly one value there and find that it fits.  Anything
else is a refusal, which changes nothing and ends the round.

From this alone it follows that no entry is ever lost or changed
(`Settles.keeps`), and that a round which comes to its end has every request
satisfied at once (`Settles.holds`), however often a key occurs in it.
-/
import Mathlib.Data.List.Infix
import Mathlib.Tactic.Common

namespace PkiExecutor.Ledger

variable {κ ν : Type}

/-- A key, and which values are what is wanted under it. -/
structure Request (κ ν : Type) where
  key : κ
  fits : ν → Prop

/-- What a request has come to. -/
inductive Status
  | created
  | retained
  deriving DecidableEq, Repr

/-- Under every key with an entry nothing has changed. -/
def Keeps (l l' : κ → List ν) : Prop := ∀ k, l k ≠ [] → l' k = l k

/-- There is exactly one value under the key, and it fits. -/
def Holds (l : κ → List ν) (r : Request κ ν) : Prop := ∃ v, l r.key = [v] ∧ r.fits v

/-- One request: entered, found, or refused. -/
inductive Step (r : Request κ ν) : (κ → List ν) → (κ → List ν) → Option Status → Prop
  | created {l l' : κ → List ν} {v : ν} : l r.key = [] → l' r.key = [v] → r.fits v →
      (∀ k, k ≠ r.key → l' k = l k) → Step r l l' (some .created)
  | retained {l : κ → List ν} : Holds l r → Step r l l (some .retained)
  | refused {l : κ → List ν} : Step r l l none

/-- A round of requests, up to the first refusal. -/
inductive Settles :
    List (Request κ ν) → (κ → List ν) → (κ → List ν) → Option (List Status) → Prop
  | nil {l : κ → List ν} : Settles [] l l (some [])
  | refused {r : Request κ ν} {rs : List (Request κ ν)} {l l' : κ → List ν} :
      Step r l l' none → Settles (r :: rs) l l' none
  | cons {r : Request κ ν} {rs : List (Request κ ν)} {l l' l'' : κ → List ν} {st : Status}
      {o : Option (List Status)} :
      Step r l l' (some st) → Settles rs l' l'' o → Settles (r :: rs) l l'' (o.map (st :: ·))

theorem Keeps.trans {l l' l'' : κ → List ν} (h : Keeps l l') (h' : Keeps l' l'') :
    Keeps l l'' := by
  intro k hk
  have hsame := h k hk
  exact (h' k (by rwa [hsame])).trans hsame

theorem Keeps.front {l l' : κ → List ν} (h : Keeps l l') (k : κ) : l k <+: l' k := by
  by_cases hk : l k = []
  · rw [hk]
    exact List.nil_prefix
  · rw [h k hk]

theorem Holds.keeps {l l' : κ → List ν} {r : Request κ ν} (h : Holds l r) (hk : Keeps l l') :
    Holds l' r := by
  obtain ⟨v, hv, hfits⟩ := h
  refine ⟨v, ?_, hfits⟩
  rw [hk r.key (by simp [hv]), hv]

theorem Step.keeps {r : Request κ ν} {l l' : κ → List ν} {o : Option Status}
    (h : Step r l l' o) : Keeps l l' := by
  intro k hk
  cases h with
  | created hempty _ _ hother =>
      refine hother k ?_
      rintro rfl
      exact hk hempty
  | retained | refused => rfl

theorem Step.holds {r : Request κ ν} {l l' : κ → List ν} {st : Status}
    (h : Step r l l' (some st)) : Holds l' r := by
  cases h with
  | created _ hv hfits _ => exact ⟨_, hv, hfits⟩
  | retained hholds => exact hholds

/-- A round, whether it comes to its end or not, leaves every entry as it was. -/
theorem Settles.keeps {rs : List (Request κ ν)} {l l' : κ → List ν} {o : Option (List Status)}
    (h : Settles rs l l' o) : Keeps l l' := by
  induction h with
  | nil => exact fun k _ => rfl
  | refused hs => exact hs.keeps
  | cons hs _ ih => exact hs.keeps.trans ih

/-- A round that comes to its end has settled every request, the earlier ones
still so at the end. -/
theorem Settles.holds {rs : List (Request κ ν)} {l l' : κ → List ν} {o : Option (List Status)}
    (h : Settles rs l l' o) (ho : o.isSome = true) : ∀ r ∈ rs, Holds l' r := by
  induction h with
  | nil => exact fun r hr => absurd hr List.not_mem_nil
  | refused => cases ho
  | cons hs hrest ih =>
      intro r hr
      rw [Option.isSome_map] at ho
      rcases List.mem_cons.mp hr with rfl | hr
      · exact hs.holds.keeps hrest.keeps
      · exact ih ho r hr

end PkiExecutor.Ledger
