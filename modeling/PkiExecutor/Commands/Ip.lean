/-
# `PkiExecutor.Commands.Ip` — `ip.read` and `ip.write`

The machine's IPv4 addresses and the static assignment of one
(`commands/ip.rs`).  An empty interface aliasName makes the script pick an adapter.
-/
import PkiExecutor.Commands.Util

namespace PkiExecutor

namespace IpRead

def script : String :=
  "ConvertTo-Json @(Get-NetIPAddress -AddressFamily IPv4 | Where-Object \x7b $_.InterfaceAlias " ++
  "-notmatch 'Loopback' \x7d | Select-Object InterfaceAlias, IPAddress, PrefixLength)"

def stage (host : Host) : Stage :=
  .plain "reading" 50 script [] fun output =>
    .obj [("addresses", parseJson host output.stdout), ("raw", .str output.stdout)]

def execute (host : Host) (_ : Params) : Exec Json := perform (stage host)

def handler (host : Host) : CommandHandler := ⟨"ip.read", .vmRead, execute host⟩

theorem staged (host : Host) (ctx : Params) : Staged (· = stage host) (execute host ctx) :=
  .perform rfl

end IpRead

namespace IpWrite

def script : String :=
  "param([string]$Address,[string]$Prefix,[string]$Gateway,[string]$Alias) if (-not $Alias) \x7b " ++
  "$Alias = Get-NetAdapter | Where-Object Status -eq 'Up' | Sort-Object ifIndex | Select-Object " ++
  "-First 1 -ExpandProperty Name \x7d; Set-NetIPInterface -InterfaceAlias $Alias -AddressFamily " ++
  "IPv4 -Dhcp Disabled; Get-NetIPAddress -InterfaceAlias $Alias -AddressFamily IPv4 -ErrorAction " ++
  "SilentlyContinue | Remove-NetIPAddress -Confirm:$false -ErrorAction SilentlyContinue; " ++
  "if ($Gateway) \x7b Remove-NetRoute -InterfaceAlias $Alias -DestinationPrefix '0.0.0.0/0' " ++
  "-Confirm:$false -ErrorAction SilentlyContinue; New-NetIPAddress -InterfaceAlias $Alias " ++
  "-IPAddress $Address -PrefixLength $Prefix -DefaultGateway $Gateway \x7d else \x7b " ++
  "New-NetIPAddress -InterfaceAlias $Alias -IPAddress $Address -PrefixLength $Prefix \x7d"

/-- An integer in 0 to 32. -/
def validPrefix (pfx : String) : Bool :=
  match Str.parseU8 pfx with
  | some p => decide (p ≤ 32)
  | none => false

/-- `Ipv4Addr::from_str` takes it. -/
def validIp (s : String) : Bool := (Str.parseIpv4 s).isSome

def stage (address pfx gateway aliasName : String) : Stage :=
  .plain "configuring" 10 script [address, pfx, gateway, aliasName] fun _ =>
    .obj [("address", .str address), ("prefix_length", .str pfx),
      ("gateway", .nullIfEmpty gateway), ("interface", .nullIfEmpty aliasName)]

def execute (ctx : Params) : Exec Json := do
  let address ← required ctx "address"
  ensure (validIp address) (invalid "address" "must be a dotted-quad IPv4 address")
  let pfx := (param ctx "prefixLength").getD "24"
  ensure (validPrefix pfx) (invalid "prefixLength" "must be an integer in 0-32")
  let gateway := (param ctx "gateway").getD ""
  ensure (gateway.isEmpty || validIp gateway)
    (invalid "gateway" "must be a dotted-quad IPv4 address")
  let aliasName := (param ctx "interface").getD ""
  perform (stage address pfx gateway aliasName)

def handler : CommandHandler := ⟨"ip.write", .vmUpdate, execute⟩

theorem staged (ctx : Params) :
    Staged (fun s => ∃ address, param ctx "address" = some address ∧ validIp address = true ∧
      validPrefix ((param ctx "prefixLength").getD "24") = true ∧
      (((param ctx "gateway").getD "").isEmpty || validIp ((param ctx "gateway").getD "")) = true ∧
      s = stage address ((param ctx "prefixLength").getD "24") ((param ctx "gateway").getD "")
        ((param ctx "interface").getD "")) (execute ctx) := by
  refine .required fun address ha => .ensure rfl fun hv => ?_
  refine .ensure rfl fun hp => .ensure rfl fun hg => ?_
  exact .perform ⟨address, ha, hv, hp, hg, rfl⟩

end IpWrite

end PkiExecutor
