/-
# `PkiExecutor.Lib.Effects` — scripts that change a state, and what they yield

A script runs commands over a state and ends with a value or with an error.  An error
ends the script unless it is caught, and undoes nothing.  Which commands fail is not up
to the script: a run is given the failures to come, one entry for each command, and a
command that fails changes nothing, unless it is an `act`.

`x.Yields s Q E` says of every run of `x` from the state `s`, whichever commands fail:
if it ends with a value then as `Q` says, and if with an error then as `E` says.  There
is one rule for each way to build a script, and applying them in turn plays it.
-/
import Mathlib.Tactic.Common

namespace PkiExecutor

/-- The state, and the failures to come with their messages. -/
structure Trial (σ : Type) where
  state : σ
  faults : List (Option String)

/-- How a script ends, and what it leaves. -/
def Effect (σ α : Type) : Type := Trial σ → Except String α × Trial σ

namespace Effect

variable {σ τ α β : Type}

instance : Monad (Effect σ) where
  pure a := fun s => (.ok a, s)
  bind x f := fun s =>
    match x s with
    | (.ok a, s') => f a s'
    | (.error e, s') => (.error e, s')

/-- `throw` -/
def throw (e : String) : Effect σ α := fun s => (.error e, s)

/-- The state as the script has it at hand. -/
def get : Effect σ σ := fun s => (.ok s.state, s)

/-- An assignment. -/
def assign (f : σ → σ) : Effect σ Unit := fun s => (.ok (), { s with state := f s.state })

/-- A command, unless it is its turn to fail. -/
def command (f : σ → Except String (α × σ)) : Effect σ α := fun s =>
  match s.faults with
  | some e :: faults => (.error e, { s with faults })
  | _ =>
      match f s.state with
      | .ok (a, state) => (.ok a, ⟨state, s.faults.tail⟩)
      | .error e => (.error e, { s with faults := s.faults.tail })

/-- A command that may have done something even where it fails. -/
def act (f : σ → Except String α × σ) : Effect σ α := fun s =>
  match f s.state with
  | (result, state) => (result, { s with state })

/-- A command that only looks. -/
def look (f : σ → α) : Effect σ α := command fun state => .ok (f state, state)

/-- A command that changes the state. -/
def change (f : σ → σ) : Effect σ Unit := command fun state => .ok ((), f state)

/-- `try { x } catch { handler }` -/
def attempt (x : Effect σ α) (handler : String → Effect σ α) : Effect σ α := fun s =>
  match x s with
  | (.ok a, s') => (.ok a, s')
  | (.error e, s') => handler e s'

/-- `try { x } finally { cleanup }` -/
def andFinally (x : Effect σ α) (cleanup : Effect σ Unit) : Effect σ α := fun s =>
  match x s with
  | (result, s') =>
      match cleanup s' with
      | (.ok (), s'') => (result, s'')
      | (.error e, s'') => (.error e, s'')

/-- `-ErrorAction SilentlyContinue` -/
def silently (x : Effect σ Unit) : Effect σ Unit := x.attempt fun _ => pure ()

/-- `if (-not cond) { throw e }` -/
def require (cond : Bool) (e : String) : Effect σ Unit := if cond then pure () else throw e

/-- `if (cond) { x }` -/
def when (cond : Bool) (x : Effect σ Unit) : Effect σ Unit := if cond then x else pure ()

section Runs

variable {x : Effect σ α} {g : α → Effect σ β} {s s' : Trial σ}

theorem bind_of_ok {a : α} (h : x s = (.ok a, s')) : (x >>= g) s = g a s' := by
  show (match x s with
    | (.ok a, s') => g a s'
    | (.error e, s') => (.error e, s')) = _
  rw [h]

theorem bind_of_error {e : String} (h : x s = (.error e, s')) : (x >>= g) s = (.error e, s') := by
  show (match x s with
    | (.ok a, s') => g a s'
    | (.error e, s') => (.error e, s')) = _
  rw [h]

end Runs

/-! ## What a script yields -/

/-- However it ends: as `Q` says of its value, or as `E` says of its error. -/
def Yields (x : Effect σ α) (s : σ) (Q : α → σ → Prop) (E : String → σ → Prop) : Prop :=
  ∀ faults, match x ⟨s, faults⟩ with
    | (.ok a, s') => Q a s'.state
    | (.error e, s') => E e s'.state

namespace Yields

variable {s : σ} {Q Q' : α → σ → Prop} {R : β → σ → Prop} {E E' : String → σ → Prop}
  {x : Effect σ α} {g : α → Effect σ β}

theorem mono (h : x.Yields s Q E) (hQ : ∀ a s', Q a s' → Q' a s')
    (hE : ∀ e s', E e s' → E' e s') : x.Yields s Q' E' := by
  intro faults
  have hx := h faults
  rcases hr : x ⟨s, faults⟩ with ⟨e | a, s'⟩
  · rw [hr] at hx
    exact hE e _ hx
  · rw [hr] at hx
    exact hQ a _ hx

protected theorem pure {a : α} (h : Q a s) : (pure a : Effect σ α).Yields s Q E := fun _ => h

protected theorem throw {e : String} (h : E e s) : (throw e : Effect σ α).Yields s Q E :=
  fun _ => h

protected theorem get {Q : σ → σ → Prop} (h : Q s s) : get.Yields s Q E := fun _ => h

protected theorem assign {f : σ → σ} {Q : Unit → σ → Prop} (h : Q () (f s)) :
    (assign f).Yields s Q E := fun _ => h

protected theorem bind (h : x.Yields s (fun a s' => (g a).Yields s' R E) E) :
    (x >>= g).Yields s R E := by
  intro faults
  have hx := h faults
  show match (match x ⟨s, faults⟩ with
    | (.ok a, s') => g a s'
    | (.error e, s') => (.error e, s')) with
    | (.ok b, s') => R b s'.state
    | (.error e, s') => E e s'.state
  rcases hr : x ⟨s, faults⟩ with ⟨e | a, s'⟩
  · rw [hr] at hx
    exact hx
  · rw [hr] at hx
    exact hx s'.faults

protected theorem command {f : σ → Except String (α × σ)} (hfault : ∀ e, E e s)
    (herror : ∀ e, f s = .error e → E e s) (hok : ∀ a s', f s = .ok (a, s') → Q a s') :
    (command f).Yields s Q E := by
  have hrun : ∀ faults : List (Option String), match (match f s with
      | .ok (a, state) => (.ok a, ⟨state, faults⟩)
      | .error e => (.error e, ⟨s, faults⟩) : Except String α × Trial σ) with
      | (.ok a, s') => Q a s'.state
      | (.error e, s') => E e s'.state := by
    intro faults
    cases hf : f s with
    | error e => exact herror e hf
    | ok p => exact hok p.1 p.2 hf
  intro faults
  match faults with
  | some e :: faults => exact hfault e
  | none :: faults => exact hrun faults
  | [] => exact hrun []

protected theorem act {f : σ → Except String α × σ} (herror : ∀ e s', f s = (.error e, s') → E e s')
    (hok : ∀ a s', f s = (.ok a, s') → Q a s') : (act f).Yields s Q E := by
  intro faults
  unfold act
  rcases hf : f s with ⟨e | a, s'⟩
  · exact herror e s' hf
  · exact hok a s' hf

protected theorem look {f : σ → α} (hfault : ∀ e, E e s) (h : Q (f s) s) :
    (look f).Yields s Q E := by
  refine .command hfault (fun e he => by cases he) ?_
  rintro a s' he
  cases he
  exact h

protected theorem change {f : σ → σ} {Q : Unit → σ → Prop} (hfault : ∀ e, E e s)
    (h : Q () (f s)) : (change f).Yields s Q E := by
  refine .command hfault (fun e he => by cases he) ?_
  rintro a s' he
  cases he
  exact h

protected theorem attempt {handler : String → Effect σ α}
    (h : x.Yields s Q fun e s' => (handler e).Yields s' Q E) :
    (x.attempt handler).Yields s Q E := by
  intro faults
  have hx := h faults
  unfold attempt
  rcases hr : x ⟨s, faults⟩ with ⟨e | a, s'⟩
  · rw [hr] at hx
    exact hx s'.faults
  · rw [hr] at hx
    exact hx

/-- The cleanup comes last, however the script ends. -/
protected theorem andFinally {cleanup : Effect σ Unit}
    (h : x.Yields s (fun a s' => cleanup.Yields s' (fun _ => Q a) E)
      fun e s' => cleanup.Yields s' (fun _ => E e) E) :
    (x.andFinally cleanup).Yields s Q E := by
  intro faults
  have hx := h faults
  unfold andFinally
  rcases hr : x ⟨s, faults⟩ with ⟨result, s'⟩
  rw [hr] at hx
  cases result with
  | error e =>
      have hc := hx s'.faults
      rcases hcr : cleanup ⟨s'.state, s'.faults⟩ with ⟨e' | _, s''⟩
      · rw [hcr] at hc
        simpa [hcr] using hc
      · rw [hcr] at hc
        simpa [hcr] using hc
  | ok a =>
      have hc := hx s'.faults
      rcases hcr : cleanup ⟨s'.state, s'.faults⟩ with ⟨e' | _, s''⟩
      · rw [hcr] at hc
        simpa [hcr] using hc
      · rw [hcr] at hc
        simpa [hcr] using hc

protected theorem silently {x : Effect σ Unit} {Q : Unit → σ → Prop}
    (h : x.Yields s Q fun _ => Q ()) : x.silently.Yields s Q E :=
  .attempt (h.mono (fun _ _ hq => hq) fun _ _ hq => .pure hq)

protected theorem require {c : Bool} {e : String} {Q : Unit → σ → Prop} (ht : c = true → Q () s)
    (he : c = false → E e s) : (require c e).Yields s Q E := by
  cases c with
  | true => exact .pure (ht rfl)
  | false => exact .throw (he rfl)

protected theorem when {c : Bool} {x : Effect σ Unit} {Q : Unit → σ → Prop}
    (ht : c = true → x.Yields s Q E) (he : c = false → Q () s) : (when c x).Yields s Q E := by
  cases c with
  | true => exact ht rfl
  | false => exact .pure (he rfl)

end Yields

end Effect

end PkiExecutor
