/-
# `PkiExecutor.Commands.System` — `system.reboot`, `system.boot_info`, `system.identity`

The scheduled reboot, the boot snapshot and the identity readback
(`commands/system.rs`, `commands/system_identity.rs`).  The boot snapshot is the
one command that never calls the shell: it reads the tick count and a file's
existence.
-/
import PkiExecutor.Commands.Util

namespace PkiExecutor

namespace SystemReboot

def script : String :=
  "param([string]$Delay) shutdown /r /t $Delay /c 'pki-executor plan reboot'; " ++
  "exit $LASTEXITCODE"

/-- An integer in 5 to 120. -/
def validDelay (delay : String) : Bool :=
  match Str.parseU32 delay with
  | some d => decide (5 ≤ d ∧ d ≤ 120)
  | none => false

/-- The stage around a script: the Linux command differs from this one there
only. -/
def stageOf (script delay : String) : Stage :=
  .plain "scheduling reboot" 50 script [delay] fun _ =>
    .obj [("rebooting", .bool true), ("delay_seconds", .str delay)]

def stage (delay : String) : Stage := stageOf script delay

def execute (ctx : Params) : Exec Json := do
  let delay := (param ctx "delaySeconds").getD "10"
  ensure (validDelay delay) (invalid "delaySeconds" "must be an integer in 5-120")
  perform (stage delay)

def handler : CommandHandler := ⟨"system.reboot", .vmProvision, execute⟩

theorem staged (ctx : Params) :
    Staged (fun s => validDelay ((param ctx "delaySeconds").getD "10") = true ∧
      s = stage ((param ctx "delaySeconds").getD "10")) (execute ctx) := by
  refine .ensure rfl fun hd => ?_
  exact .perform ⟨hd, rfl⟩

end SystemReboot

/-- A command that reads what it reports off the machine itself. -/
def performNative (phase : String) (percent : Nat) (result : Json) : Exec Json := do
  report (.running phase percent)
  report (.done result)
  return result

namespace SystemBootInfo

def result (host : Host) : Json :=
  let uptime := host.tickMs / 1000
  let pending := host.finalizeTaskExists
  .obj [("uptimeS", .int uptime), ("finalizePending", .bool pending),
    ("finalizeRunning", .bool false),
    ("raw", .str ("tick uptime " ++ toString uptime ++ "s; finalize task file "
      ++ host.finalizeTaskFile ++ " " ++ if pending then "present" else "absent"))]

def execute (host : Host) (_ : Params) : Exec Json :=
  performNative "reading boot info" 50 (result host)

def handler (host : Host) : CommandHandler := ⟨"system.boot_info", .vmRead, execute host⟩

end SystemBootInfo

/-- The readback of a command whose result is what the script printed: it must
be a JSON object. -/
def readObject (host : Host) (command : String) (output : PowerShellOutput) :
    Except CommandError Json :=
  let result := parseJson host output.stdout
  if !result.isObject then .error (.shell (.nonZeroExit 1 (command ++ " returned invalid JSON")))
  else .ok result

theorem readObject_ok {host : Host} {command : String} {output : PowerShellOutput} {v : Json}
    (h : readObject host command output = .ok v) :
    v = parseJson host output.stdout ∧ v.isObject = true := by
  unfold readObject at h
  cases ho : (parseJson host output.stdout).isObject with
  | false => simp [ho] at h
  | true =>
      simp only [ho, Bool.not_true, Bool.false_eq_true, if_false, Except.ok.injEq] at h
      exact ⟨h.symm, h ▸ ho⟩

namespace SystemIdentity

def script : String :=
  "$ErrorActionPreference = 'Stop'; $os = Get-CimInstance Win32_OperatingSystem; " ++
  "@\x7b hostname = $env:COMPUTERNAME; operating_system = $os.Caption; " ++
  "version = $os.Version; product_type = [int]$os.ProductType; server = ([int]$os.ProductType -ne " ++
  "1) \x7d | ConvertTo-Json -Compress"

def stageOf (host : Host) (script : String) : Stage :=
  ⟨"reading system identity", 50, script, [], readObject host "system.identity"⟩

def stage (host : Host) : Stage := stageOf host script

def execute (host : Host) (_ : Params) : Exec Json := perform (stage host)

def handler (host : Host) : CommandHandler := ⟨"system.identity", .vmRead, execute host⟩

theorem staged (host : Host) (ctx : Params) : Staged (· = stage host) (execute host ctx) :=
  .perform rfl

end SystemIdentity

end PkiExecutor
