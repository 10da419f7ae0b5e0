/-
# `PkiExecutor.Commands.Linux` — the Linux implementations of shared names

The six handlers that the unix build registers over their Windows siblings
(`commands/linux.rs`).  Each keeps its sibling's result shape: where a sibling's
program takes its script as an argument, the handler here is that program at
another script.
-/
import PkiExecutor.Commands.File
import PkiExecutor.Commands.System

namespace PkiExecutor.Linux

def allowedPrefixes : List String :=
  ["/opt/certsecure-manager/", "/var/lib/pki-executor/transfer/"]

def relayPathOk (path : String) : Bool :=
  validPosixPath path && !Str.containsStr path ".."
    && allowedPrefixes.any fun pfx =>
      decide (Str.len pfx < Str.len path) && Str.startsWith path pfx

def invalidRelayPath : CommandError :=
  invalid "path"
    "must be an absolute path under /opt/certsecure-manager/ or /var/lib/pki-executor/transfer/"

namespace HostnameRead

def script : String :=
  "uname -n"

def stage : Stage :=
  .plain "reading" 50 script [] fun output => .obj [("hostname", .str (Str.trim output.stdout))]

def execute (_ : Params) : Exec Json := perform stage

def handler : CommandHandler := ⟨"hostname.read", .vmRead, execute⟩

theorem staged (ctx : Params) : Staged (· = stage) (execute ctx) := .perform rfl

end HostnameRead

namespace SystemIdentity

def script : String :=
  "set -eu\n" ++
  ". /etc/os-release\n" ++
  "printf " ++
  "'\x7b\"hostname\":\"%s\",\"operating_system\":\"%s\",\"version\":\"%s\",\"product_type\":3,\"server\":true\x7d' " ++
  "\\\n" ++
  "  \"$(uname -n)\" \"$\x7bPRETTY_NAME:-$\x7bNAME:-Linux\x7d\x7d\" \"$(uname -r)\"\n"

def stage (host : Host) : Stage := PkiExecutor.SystemIdentity.stageOf host script

def execute (host : Host) (_ : Params) : Exec Json := perform (stage host)

def handler (host : Host) : CommandHandler := ⟨"system.identity", .vmRead, execute host⟩

theorem staged (host : Host) (ctx : Params) : Staged (· = stage host) (execute host ctx) :=
  .perform rfl

end SystemIdentity

namespace SystemReboot

def script : String :=
  "set -eu\n" ++
  "delay=\"$1\"\n" ++
  "if command -v systemd-run >/dev/null 2>&1; then\n" ++
  "  systemd-run --quiet --on-active=\"$\x7bdelay\x7ds\" /usr/bin/systemctl reboot\n" ++
  "else\n" ++
  "  # Detached from this shell so the executor's wait on it returns immediately\n" ++
  "  # and the reboot still happens after the grace window.\n" ++
  "  nohup sh -c \"sleep $\x7bdelay\x7d; /sbin/shutdown -r now\" >/dev/null 2>&1 &\n" ++
  "fi\n"

def stage (delay : String) : Stage := PkiExecutor.SystemReboot.stageOf script delay

def execute (ctx : Params) : Exec Json := do
  let delay := (param ctx "delaySeconds").getD "10"
  ensure (PkiExecutor.SystemReboot.validDelay delay)
    (invalid "delaySeconds" "must be an integer in 5-120")
  perform (stage delay)

def handler : CommandHandler := ⟨"system.reboot", .vmProvision, execute⟩

theorem staged (ctx : Params) :
    Staged (fun s =>
      PkiExecutor.SystemReboot.validDelay ((param ctx "delaySeconds").getD "10") = true ∧
      s = stage ((param ctx "delaySeconds").getD "10")) (execute ctx) := by
  refine .ensure rfl fun hd => ?_
  exact .perform ⟨hd, rfl⟩

end SystemReboot

namespace SystemBootInfo

/-- What there is to report without a script: there is no first boot to finish. -/
def result (host : Host) : Json :=
  let uptime := host.uptimeMs / 1000
  .obj [("uptimeS", .int uptime), ("finalizePending", .bool false),
    ("finalizeRunning", .bool false),
    ("raw", .str ("/proc/uptime " ++ toString uptime ++ "s; no firstboot finalize task on Linux"))]

def execute (host : Host) (_ : Params) : Exec Json :=
  performNative "reading boot info" 50 (result host)

def handler (host : Host) : CommandHandler := ⟨"system.boot_info", .vmRead, execute host⟩

end SystemBootInfo

namespace FileRead

def script : String :=
  "set -eu\n" ++
  "path=\"$1\"\n" ++
  "cap=\"$2\"\n" ++
  "size=$(stat -c %s \"$path\")\n" ++
  "if [ \"$size\" -gt \"$cap\" ]; then\n" ++
  "  echo \"file exceeds the relay cap\" >&2\n" ++
  "  exit 1\n" ++
  "fi\n" ++
  "printf '\x7b\"contentB64\":\"%s\",\"sha256\":\"%s\",\"size\":%s\x7d' \\\n" ++
  "  \"$(base64 -w0 \"$path\")\" \"$(sha256sum \"$path\" | cut -d' ' -f1)\" \"$size\"\n"

def execute : Host → Params → Exec Json := FileRelay.read relayPathOk invalidRelayPath script

def handler (host : Host) : CommandHandler := ⟨"file.read", .vmProvision, execute host⟩

end FileRead

namespace FileWrite

def script : String :=
  "set -eu\n" ++
  "path=\"$1\"\n" ++
  "mkdir -p \"$(dirname \"$path\")\"\n" ++
  "printf '%s' \"$2\" | base64 -d > \"$path\"\n" ++
  "sha256sum \"$path\" | cut -d' ' -f1\n"

def execute : Params → Exec Json := FileRelay.write relayPathOk invalidRelayPath script

def handler : CommandHandler := ⟨"file.write", .vmProvision, execute⟩

end FileWrite

end PkiExecutor.Linux
