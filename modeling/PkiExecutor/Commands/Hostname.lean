/-
# `PkiExecutor.Commands.Hostname` — `hostname.rename` and `hostname.read`

The write half with its NetBIOS limit and the read half without parameters
(`commands/hostname_rename.rs`, `commands/hostname_read.rs`).
-/
import PkiExecutor.Commands.Util

namespace PkiExecutor

namespace HostnameRename

def script : String :=
  "param([string]$NewName) Rename-Computer -NewName $NewName -Restart:$false -Force"

/-- 1 to 15 characters of `[A-Za-z0-9-]`. -/
def validName (newName : String) : Bool :=
  !newName.isEmpty && decide (Str.len newName ≤ 15)
    && Str.all newName fun c => c.isAlphanum || c == '-'

def stage (newName : String) : Stage :=
  .plain "renaming" 10 script [newName] fun _ => .obj [("renamed_to", .str newName)]

def execute (ctx : Params) : Exec Json := do
  let newName ← required ctx "name"
  ensure (validName newName)
    (invalid "name" "must be 1-15 chars of [A-Za-z0-9-] (NetBIOS name limit)")
  perform (stage newName)

def handler : CommandHandler := ⟨"hostname.rename", .vmUpdate, execute⟩

theorem staged (ctx : Params) :
    Staged (fun s => ∃ newName, param ctx "name" = some newName ∧ validName newName = true ∧
      s = stage newName) (execute ctx) := by
  refine .required fun newName hn => .ensure rfl fun hv => ?_
  exact .perform ⟨newName, hn, hv, rfl⟩

end HostnameRename

namespace HostnameRead

def script : String :=
  "[System.Net.Dns]::GetHostName()"

def stage : Stage :=
  .plain "reading" 50 script [] fun output => .obj [("hostname", .str (Str.trim output.stdout))]

def execute (_ : Params) : Exec Json := perform stage

def handler : CommandHandler := ⟨"hostname.read", .vmRead, execute⟩

theorem staged (ctx : Params) : Staged (· = stage) (execute ctx) := .perform rfl

end HostnameRead

end PkiExecutor
