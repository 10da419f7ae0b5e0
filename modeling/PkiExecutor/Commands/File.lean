/-
# `PkiExecutor.Commands.File` — the Windows artifact relay

`file.read` and `file.write` with their path allowlist (`commands/file.rs`).  The
two commands differ from their Linux siblings in the path check, the error text
that goes with it and the scripts; everything else is shared, so the programs
here take those three as arguments.
-/
import PkiExecutor.Commands.Util

namespace PkiExecutor

/-- 256 KiB. -/
def relayCapBytes : Nat := 256 * 1024

/-- The cap on the text, "the encoded equivalent" of the cap on bytes. -/
def relayCapB64 : Nat := relayCapBytes / 3 * 4 + 4

namespace FileRelay

/-- The result of a read, once the run has printed the content. -/
def readContent (host : Host) (path : String) (output : PowerShellOutput) :
    Except CommandError Json :=
  let payload := parseJson host output.stdout
  if (payload.get "contentB64").asStr.isNone then .error (invalid "path" "file could not be read")
  else
    .ok (.obj [("path", .str path), ("contentB64", payload.get "contentB64"),
      ("sha256", payload.get "sha256"), ("size", payload.get "size")])

/-- The read script is given the path and the cap. -/
def readStage (host : Host) (script path : String) : Stage :=
  ⟨"reading file", 30, script, [path, toString relayCapBytes], readContent host path⟩

def read (pathOk : String → Bool) (badPath : CommandError) (script : String) (host : Host)
    (ctx : Params) : Exec Json := do
  let path ← required ctx "path"
  ensure (pathOk path) badPath
  perform (readStage host script path)

/-- The characters of base64, and at least one. -/
def validContent (content : String) : Bool :=
  !content.isEmpty && Str.all content fun c => c.isAlphanum || Str.containsChar "+/=" c

theorem validContent_iff {content : String} : validContent content = true ↔
    content.toList ≠ [] ∧
      ∀ c ∈ content.toList, (c.isAlphanum || Str.containsChar "+/=" c) = true := by
  rw [validContent, Bool.and_eq_true, Bool.not_eq_true', ← Bool.not_eq_true, String.isEmpty_iff,
    Str.all_iff, Ne, String.toList_eq_nil_iff]

/-- The write script is given the path and the text. -/
def writeStage (script path content : String) : Stage :=
  .plain "writing file" 30 script [path, content] fun output =>
    .obj [("path", .str path), ("sha256", .str (Str.trim output.stdout))]

def write (pathOk : String → Bool) (badPath : CommandError) (script : String) (ctx : Params) :
    Exec Json := do
  let path ← required ctx "path"
  ensure (pathOk path) badPath
  let content ← required ctx "contentB64"
  ensure (decide (Str.len content ≤ relayCapB64))
    (invalid "contentB64" "exceeds the 256 KiB relay cap")
  ensure (validContent content) (invalid "contentB64" "must be base64")
  perform (writeStage script path content)

variable {pathOk : String → Bool} {badPath : CommandError}

theorem read_staged (hb : badPath.isParam = true) (script : String) (host : Host) (ctx : Params) :
    Staged (fun s => ∃ path, param ctx "path" = some path ∧ pathOk path = true ∧
      s = readStage host script path) (read pathOk badPath script host ctx) := by
  refine .required fun path hp => .ensure hb fun hv => ?_
  exact .perform ⟨path, hp, hv, rfl⟩

theorem write_staged (hb : badPath.isParam = true) (script : String) (ctx : Params) :
    Staged (fun s => ∃ path content, param ctx "path" = some path ∧
      param ctx "contentB64" = some content ∧ pathOk path = true ∧
      Str.len content ≤ relayCapB64 ∧ validContent content = true ∧
      s = writeStage script path content) (write pathOk badPath script ctx) := by
  refine .required fun path hp => .ensure hb fun hv => .required fun content hc => ?_
  refine .ensure rfl fun hl => .ensure rfl fun hcv => ?_
  exact .perform ⟨path, content, hp, hc, hv, of_decide_eq_true hl, hcv, rfl⟩

end FileRelay

namespace File

def allowedPrefixes : List String :=
  ["C:\\Transfer\\", "C:\\Windows\\System32\\CertSrv\\CertEnroll\\", "C:\\CertEnroll\\"]

/-- The comparison with one prefix, with its slice; `none` is a panic. -/
def underPrefix? (path pfx : String) : Option Bool :=
  if Str.len pfx < Str.len path then do
    let start ← Str.sliceTo path (Str.len pfx)
    return Str.eqIgnoreAsciiCase start pfx
  else some false

/-- A path behind a prefix, whatever the case of its letters. -/
def underPrefix (path pfx : String) : Bool := (underPrefix? path pfx).getD false

def relayPathOk (path : String) : Bool :=
  validWindowsPath path && !Str.containsStr path ".." && allowedPrefixes.any (underPrefix path)

def invalidRelayPath : CommandError :=
  invalid "path"
    "must be an absolute path under C:\\Transfer\\, the CertSrv CertEnroll dir, or C:\\CertEnroll\\"

end File

namespace FileRead

def script : String :=
  "param([string]$Path,[string]$Cap) $ErrorActionPreference = 'Stop'; " ++
  "$bytes = [System.IO.File]::ReadAllBytes($Path); if ($bytes.Length -gt [int]$Cap) \x7b throw " ++
  "\"file exceeds the relay cap\" \x7d; $sha = [System.Security.Cryptography.SHA256]::Create(); " ++
  "$hash = ($sha.ComputeHash($bytes) | ForEach-Object \x7b $_.ToString('x2') \x7d) -join ''; " ++
  "@\x7b contentB64 = [Convert]::ToBase64String($bytes); sha256 = $hash; " ++
  "size = $bytes.Length \x7d | ConvertTo-Json"

def execute : Host → Params → Exec Json :=
  FileRelay.read File.relayPathOk File.invalidRelayPath script

def handler (host : Host) : CommandHandler := ⟨"file.read", .vmProvision, execute host⟩

end FileRead

namespace FileWrite

def script : String :=
  "param([string]$Path,[string]$ContentB64) $ErrorActionPreference = 'Stop'; " ++
  "$bytes = [Convert]::FromBase64String($ContentB64); New-Item -ItemType Directory -Force -Path " ++
  "(Split-Path $Path) | Out-Null; [System.IO.File]::WriteAllBytes($Path, $bytes); " ++
  "$sha = [System.Security.Cryptography.SHA256]::Create(); ($sha.ComputeHash($bytes) | " ++
  "ForEach-Object \x7b $_.ToString('x2') \x7d) -join ''"

def execute : Params → Exec Json :=
  FileRelay.write File.relayPathOk File.invalidRelayPath script

def handler : CommandHandler := ⟨"file.write", .vmProvision, execute⟩

end FileWrite

end PkiExecutor
