/-
# `PkiExecutor.PowerShell` — the shell as the handlers see it

One call is a script text with a list of arguments (`PowerShellExecutor::run`);
the reply is the process output, whatever its exit code, or the error that kept
the process from running (`powershell.rs`).
-/
import Mathlib.Tactic.Common

namespace PkiExecutor

/-- What is left of a process that has ended. -/
structure PowerShellOutput where
  stdout : String
  stderr : String
  exitCode : Int
  deriving DecidableEq, Repr

def PowerShellOutput.succeeded (o : PowerShellOutput) : Bool := o.exitCode == 0

/-- `source` is the text of the underlying I/O error. -/
inductive PowerShellError
  | spawn (binary source : String)
  | tempScript (source : String)
  | nonZeroExit (exitCode : Int) (stderr : String)
  deriving DecidableEq, Repr

/-- The `Display` text. -/
def PowerShellError.display : PowerShellError → String
  | spawn binary source => s!"failed to spawn '{binary}': {source}"
  | tempScript source => s!"failed to write temp script file: {source}"
  | nonZeroExit exitCode stderr => s!"script exited with code {exitCode}: {stderr}"

/-- The arguments of one `PowerShellExecutor::run`. -/
structure ShellCall where
  script : String
  args : List String
  deriving DecidableEq, Repr

/-- A process that has ended, or none that has been started. -/
abbrev ShellReply := Except PowerShellError PowerShellOutput

/-- The run failed to spawn, or the process exited non-zero. -/
def ShellReply.failed : ShellReply → Bool
  | .ok o => !o.succeeded
  | .error _ => true

/-! ## The two shells

Both write the script to a temporary file and start their binary over its path;
here is what they hand over behind the binary. -/

namespace RealPowerShell

def args (scriptPath : String) (args : List String) : List String :=
  ["-NoProfile", "-NonInteractive", "-ExecutionPolicy", "Bypass", "-File", scriptPath] ++ args

end RealPowerShell

namespace RealPosixShell

def args (scriptPath : String) (args : List String) : List String := scriptPath :: args

end RealPosixShell

/-- A shell that succeeds at everything and prints nothing. -/
def quietShell : List ShellCall → ShellCall → ShellReply := fun _ _ => .ok ⟨"", "", 0⟩

end PkiExecutor
