/-
# `PkiExecutor.Commands.ExecArbitrary` — `powershell.exec_arbitrary`

The escape hatch: the script is the parameter (`commands/exec_arbitrary.rs`).
-/
import PkiExecutor.Commands.Util

namespace PkiExecutor.ExecArbitrary

def stage (script : String) : Stage :=
  .plain "executing" 50 script [] fun output =>
    .obj [("stdout", .str output.stdout), ("stderr", .str output.stderr)]

def execute (ctx : Params) : Exec Json := do
  let script ← required ctx "script"
  perform (stage script)

def handler : CommandHandler := ⟨"powershell.exec_arbitrary", .vmExecArbitrary, execute⟩

theorem staged (ctx : Params) :
    Staged (fun s => ∃ script, param ctx "script" = some script ∧ s = stage script)
      (execute ctx) := by
  refine .required fun script hs => ?_
  exact .perform ⟨script, hs, rfl⟩

end PkiExecutor.ExecArbitrary
