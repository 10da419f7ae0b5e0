/-
# `PkiExecutor.Concurrent` — commands whose scripts run at the same time

Every command the agent reads has a thread of its own (`phonehome.rs`), so the scripts of
several commands run on the machine at the same time.  Where the meaning of a script is
known as a course of commands over the state of the machine, so is that of the command:
it rejects its parameters, or its script runs, and what that prints, or its error, decides
how the command ends.
-/
import PkiExecutor.Commands.Util
import PkiExecutor.Lib.Course

namespace PkiExecutor

variable {σ : Type}

/-- A script that ends with a value has printed it; an error that is not caught is
printed, and the exit code is 1. -/
def scriptReply : Except String String → ShellReply
  | .ok out => .ok ⟨out, "", 0⟩
  | .error e => .ok ⟨"", e, 1⟩

/-- A command among others, with its result. -/
def courseOf (meaning : ShellCall → Course σ String) :
    Exec Json → Course σ (Except CommandError Json)
  | .ok v => .value (.ok v)
  | .fail e => .value (.error e)
  | .tell _ p => courseOf meaning p
  | .ask call k => (meaning call).caught.bind fun r => courseOf meaning (k (scriptReply r))

variable {meaning : ShellCall → Course σ String}

theorem courseOf_perform (stage : Stage) : courseOf meaning (perform stage) =
    (meaning stage.call).caught.bind fun r => .value (stage.settle (scriptReply r)) := by
  rw [perform_eq]
  show Course.bind _ _ = Course.bind _ _
  congr 1
  funext r
  show courseOf meaning (conclude (stage.settle (scriptReply r))) = _
  cases stage.settle (scriptReply r) with
  | ok v => rfl
  | error e => rfl

/-- A command that rejects its parameters ends with the error; else it ends as its script
does. -/
theorem Staged.behaves {P : Stage → Prop} {p : Exec Json} (h : Staged P p) {pact : Pact σ} {s : σ}
    {Q : Except CommandError Json → σ → Prop} {E : String → σ → Prop}
    (hQ : ∀ r, pact.Stable (Q r)) (hrejected : ∀ e, e.isParam = true → Q (.error e) s)
    (hscript : ∀ stage, P stage → (meaning stage.call).Behaves pact
      (fun out s => Q (stage.read ⟨out, "", 0⟩) s)
      (fun e s => Q (.error (.shell (.nonZeroExit 1 e))) s) s) :
    (courseOf meaning p).Behaves pact Q E s := by
  cases h with
  | rejected he => exact .value (hQ _) (hrejected _ he)
  | @perform stage hstage =>
      rw [courseOf_perform]
      refine .bind (.caught ((hscript stage hstage).mono ?_ ?_))
      · exact fun out s hs => .value (hQ _) hs
      · exact fun e s hs => .value (hQ _) hs

end PkiExecutor
