/-
# `PkiExecutor.Scripted` — commands on a machine whose scripts have a meaning

The shell hands a script with its arguments to an interpreter.  Where the meaning of the
scripts is known, as effects on the state of a machine, a command has an effect on that
state as well: it rejects its parameters and nothing happens, or its one script runs, and
what the script yields decides how the command ends.  A PowerShell script gets its
arguments by position only if none of them begins with a dash (`bound`).
-/
import PkiExecutor.Binding
import PkiExecutor.Lib.Effects

namespace PkiExecutor

variable {σ : Type}

/-- A script that ends with a value has printed it; an error that is not caught is
printed, and the exit code is 1. -/
def serveScripts (meaning : ShellCall → Effect σ String) (s : Trial σ) (c : ShellCall) :
    Trial σ × ShellReply :=
  match meaning c s with
  | (.ok out, s') => (s', .ok ⟨out, "", 0⟩)
  | (.error e, s') => (s', .ok ⟨"", e, 1⟩)

/-- A PowerShell script over its arguments; there is no telling what a call does in which
one of them is taken for the name of a parameter. -/
def bound (misbound : ShellCall → Effect σ String) (meaning : ShellCall → Effect σ String)
    (c : ShellCall) : Effect σ String := if Binds c.args then meaning c else misbound c

/-- A command on a machine: how it ends, and what it leaves. -/
def playOn (meaning : ShellCall → Effect σ String) (s : Trial σ) (p : Exec Json) :
    Except CommandError Json × Trial σ :=
  let o := p.run (Prog.worldOf (serveScripts meaning) s) []
  (o.result, Prog.stateAfter (serveScripts meaning) s (Event.queries o.trace))

variable {meaning : ShellCall → Effect σ String} {s : Trial σ} {P : Stage → Prop}
  {p : Exec Json}

theorem playOn_perform (stage : Stage) : playOn meaning s (perform stage) =
    (stage.settle (serveScripts meaning s stage.call).2,
      (serveScripts meaning s stage.call).1) := by
  rw [playOn, queries_perform, run_perform]
  rfl

/-- How a command ends on a machine, and the state it leaves: as `Q` says of what its
script has printed, or as `E` says of its script's error. -/
def Played (stage : Stage) (Q : String → σ → Prop) (E : String → σ → Prop)
    (played : Except CommandError Json × Trial σ) : Prop :=
  (∃ out, played.1 = stage.read ⟨out, "", 0⟩ ∧ Q out played.2.state) ∨
    ∃ e, played.1 = .error (.shell (.nonZeroExit 1 e)) ∧ E e played.2.state

/-- What the script yields is what the command makes of it. -/
theorem played_perform {stage : Stage} {Q : String → σ → Prop} {E : String → σ → Prop}
    (h : (meaning stage.call).Yields s.state Q E) :
    Played stage Q E (playOn meaning s (perform stage)) := by
  have hs := h s.faults
  rw [playOn_perform, serveScripts]
  rcases hr : meaning stage.call s with ⟨e | out, s'⟩
  · rw [hr] at hs
    exact .inr ⟨e, rfl, hs⟩
  · rw [hr] at hs
    exact .inl ⟨out, rfl, hs⟩

theorem played_bound {misbound : ShellCall → Effect σ String} {stage : Stage}
    {Q : String → σ → Prop} {E : String → σ → Prop} (hb : Binds stage.args)
    (h : (meaning stage.call).Yields s.state Q E) :
    Played stage Q E (playOn (bound misbound meaning) s (perform stage)) := by
  refine played_perform ?_
  rw [bound, if_pos (show Binds stage.call.args from hb)]
  exact h

theorem Staged.and_binds {name : String} {ctx : Params} (h : Staged P p)
    (hb : Staged (BindsLike name ctx) p) : Staged (fun s => P s ∧ BindsLike name ctx s) p := by
  cases h with
  | rejected he => exact .rejected he
  | @perform stage hP =>
      refine .perform ⟨hP, ?_⟩
      generalize hp : PkiExecutor.perform stage = p at hb
      cases hb with
      | rejected he =>
          rw [perform_eq] at hp
          cases hp
      | @perform stage' hb =>
          rw [perform_eq, perform_eq] at hp
          have hcall : stage.call = stage'.call := by
            injection hp with _ hrest
            injection hrest
          have hargs : stage.args = stage'.args := congrArg ShellCall.args hcall
          rw [BindsLike, hargs]
          exact hb

end PkiExecutor
