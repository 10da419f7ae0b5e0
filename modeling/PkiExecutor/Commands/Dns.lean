/-
# `PkiExecutor.Commands.Dns` — DNS clients, records and their verification

`dns.set_client`, `dns.create_record`, `dns.apply_resources` and `dns.verify`
(`commands/dns.rs`).  The last two share the decoding and checking of a list of
planned records; what every accepted record satisfies is `PlannedDnsRecord.Valid`.
-/
import PkiExecutor.Commands.Util

namespace PkiExecutor

/-- The greatest number of records in a plan. -/
def maxDnsResources : Nat := 32

/-- The types of record that a plan may have. -/
inductive PlannedDnsKind
  | a
  | ptr
  | cname
  deriving DecidableEq, Repr

/-- One record of a plan, as it is decoded. -/
structure PlannedDnsRecord where
  id : String
  kind : PlannedDnsKind
  zone : String
  name : String
  value : String
  deriving DecidableEq, Repr

namespace PlannedDnsKind

def ofWire : String → Option PlannedDnsKind
  | "A" => some a
  | "PTR" => some ptr
  | "CNAME" => some cname
  | _ => none

/-- The decoder takes the variant's name, alone or as the one key of an object
with a `null` under it. -/
def decode : Json → Option PlannedDnsKind
  | .str s => ofWire s
  | .obj [(s, .null)] => ofWire s
  | _ => none

end PlannedDnsKind

def validIpv4Addr (s : String) : Bool := (Str.parseIpv4 s).isSome

/-- A name of one label. -/
def validSingleLabel (value : String) : Bool := validDnsName value && !Str.containsChar value '.'

/-- One to three labels that read as bytes in front of `.in-addr.arpa`, in any case. -/
def validReverseZone (value : String) : Bool :=
  let normalized := Str.toAsciiLowercase (Str.trimEndMatches value '.')
  match Str.stripSuffix normalized ".in-addr.arpa" with
  | none => false
  | some pfx =>
      let labels := Str.split pfx '.'
      decide (1 ≤ labels.length ∧ labels.length ≤ 3) && labels.all fun l => (Str.parseU8 l).isSome

namespace PlannedDnsRecord

/-- An object of the five members, or an array of their values. -/
def decode (v : Json) : Option PlannedDnsRecord := do
  let [id, kind, zone, name, value] ← v.record ["id", "kind", "zone", "name", "value"] | none
  return ⟨← id.asStr, ← PlannedDnsKind.decode kind, ← zone.asStr, ← name.asStr, ← value.asStr⟩

/-- The identifier of a resource: letters, digits and `:_-`, up to 500 of them. -/
def validId (id : String) : Bool :=
  !id.isEmpty && decide (Str.len id ≤ 500)
    && Str.all id fun c => c.isAlphanum || Str.containsChar ":_-" c

/-- The check that depends on the kind of the record. -/
def validKind (record : PlannedDnsRecord) : Bool :=
  match record.kind with
  | .a => validSingleLabel record.name && validIpv4Addr record.value
  | .ptr => validReverseZone record.zone && validIpv4Addr record.name && validDnsName record.value
  | .cname => validSingleLabel record.name && validDnsName record.value

/-- What a bad record of a kind is told. -/
def kindReason : PlannedDnsKind → String
  | .a => "contains an invalid A record"
  | .ptr => "contains an invalid PTR record"
  | .cname => "contains an invalid CNAME record"

/-- The checks of one record, the identifier first. -/
def check (record : PlannedDnsRecord) : Exec Unit := do
  ensure (validId record.id) (invalid "records" "contains an invalid resource id")
  ensure (validDnsName record.zone) (invalid "records" "contains an invalid DNS zone")
  ensure record.validKind (invalid "records" (kindReason record.kind))

/-- A record that has passed its check. -/
structure Valid (record : PlannedDnsRecord) : Prop where
  id_ok : validId record.id = true
  zone_ok : validDnsName record.zone = true
  kind_ok : record.validKind = true

theorem check_valid (record : PlannedDnsRecord) : Checks (fun _ => record.Valid) record.check :=
  (Checks.ensure rfl).bind fun _ hi => (Checks.ensure rfl).bind fun _ hz =>
    (Checks.ensure rfl).mono fun _ hk => ⟨hi, hz, hk⟩

end PlannedDnsRecord

/-- `serde_json::from_str` at a list of planned records. -/
def decodeRecords (host : Host) (raw : String) : Option (List PlannedDnsRecord) :=
  match host.fromStr raw with
  | some (.arr items) => items.mapM PlannedDnsRecord.decode
  | _ => none

/-- The payload and its records: neither of them too long, and every record checked. -/
def parsePlannedRecords (host : Host) (ctx : Params) : Exec (String × List PlannedDnsRecord) := do
  let raw ← required ctx "records"
  ensure (decide (Str.len raw ≤ 32 * 1024)) (invalid "records" "JSON payload is too large")
  let records ← okOr (decodeRecords host raw)
    (invalid "records" "must be a JSON array of DNS resources")
  ensure (!records.isEmpty && decide (records.length ≤ maxDnsResources))
    (invalid "records" "must contain between 1 and 32 resources")
  forEach PlannedDnsRecord.check records
  pure (raw, records)

/-- What holds of a payload that was accepted. -/
structure PlannedRecords (host : Host) (ctx : Params) (raw : String)
    (records : List PlannedDnsRecord) : Prop where
  raw_eq : param ctx "records" = some raw
  decoded : decodeRecords host raw = some records
  size_ok : (!records.isEmpty && decide (records.length ≤ maxDnsResources)) = true
  valid : ∀ record ∈ records, record.Valid

theorem parsePlannedRecords_checks (host : Host) (ctx : Params) :
    Checks (fun p => PlannedRecords host ctx p.1 p.2) (parsePlannedRecords host ctx) := by
  refine (Checks.required ctx "records").bind fun raw hr => ?_
  refine (Checks.ensure rfl).bind fun _ _ => (Checks.okOr rfl).bind fun records hd => ?_
  refine (Checks.ensure rfl).bind fun _ hs => ?_
  refine (Checks.forEach PlannedDnsRecord.check_valid records).bind fun _ hv => ?_
  exact .ok ⟨hr, hd, hs, hv⟩

theorem plannedRecords_of_parse {host : Host} {ctx : Params} {raw : String}
    {records : List PlannedDnsRecord} (h : parsePlannedRecords host ctx = .ok (raw, records)) :
    PlannedRecords host ctx raw records := by
  have hchecks := parsePlannedRecords_checks host ctx
  rw [h] at hchecks
  exact hchecks.holds

theorem parsePlannedRecords_of {host : Host} {ctx : Params} {raw : String}
    {records : List PlannedDnsRecord} (h : PlannedRecords host ctx raw records)
    (hl : Str.len raw ≤ 32 * 1024) : parsePlannedRecords host ctx = .ok (raw, records) := by
  have hcheck : ∀ records : List PlannedDnsRecord, (∀ record ∈ records, record.Valid) →
      forEach PlannedDnsRecord.check records = .ok () := by
    intro records hv
    induction records with
    | nil => rfl
    | cons record records ih =>
        rw [List.forall_mem_cons] at hv
        obtain ⟨⟨hid, hzone, hkind⟩, hrest⟩ := hv
        have hone : record.check = .ok () := by
          rw [PlannedDnsRecord.check, hid, hzone, hkind]
          rfl
        show record.check >>= (fun _ => forEach PlannedDnsRecord.check records) = _
        rw [hone]
        exact ih hrest
  have hrequired : required ctx "records" = .ok raw := by
    rw [required, h.raw_eq]
    rfl
  rw [parsePlannedRecords, hrequired, Prog.ok_bind, decide_eq_true hl]
  show okOr (decodeRecords host raw) _ >>= _ = _
  rw [h.decoded]
  show ensure (!records.isEmpty && decide (records.length ≤ maxDnsResources)) _ >>= _ = _
  rw [h.size_ok]
  show forEach PlannedDnsRecord.check records >>= _ = _
  rw [hcheck records h.valid]
  rfl

namespace DnsSetClient

def script : String :=
  "param([string]$Servers,[string]$Alias) $ErrorActionPreference = 'Stop'; " ++
  "if (-not $Alias) \x7b $Alias = Get-NetAdapter | Where-Object Status -eq 'Up' | Sort-Object " ++
  "ifIndex | Select-Object -First 1 -ExpandProperty Name \x7d; Set-DnsClientServerAddress " ++
  "-InterfaceAlias $Alias -ServerAddresses ($Servers -split ','); (Get-DnsClientServerAddress " ++
  "-InterfaceAlias $Alias -AddressFamily IPv4).ServerAddresses -join ','"

/-- The non-empty trimmed pieces between commas. -/
def parseServers (servers : String) : List String :=
  ((Str.split servers ',').map Str.trim).filter (!·.isEmpty)

def stage (parsed : List String) (interface : String) : Stage :=
  .plain "configuring DNS client" 30 script [Str.join "," parsed, interface] fun output =>
    .obj [("servers", .strings parsed), ("applied", .str (Str.trim output.stdout)),
      ("interface", .nullIfEmpty interface)]

def execute (ctx : Params) : Exec Json := do
  let servers ← required ctx "servers"
  let parsed := parseServers servers
  ensure (!parsed.isEmpty && parsed.all validIpv4Addr)
    (invalid "servers" "must be a comma-separated list of dotted-quad IPv4 addresses")
  let interface := (param ctx "interface").getD ""
  perform (stage parsed interface)

def handler : CommandHandler := ⟨"dns.set_client", .vmProvision, execute⟩

theorem staged (ctx : Params) :
    Staged (fun s => ∃ servers, param ctx "servers" = some servers ∧
      (!(parseServers servers).isEmpty && (parseServers servers).all validIpv4Addr) = true ∧
      s = stage (parseServers servers) ((param ctx "interface").getD "")) (execute ctx) := by
  refine .required fun servers hs => .ensure rfl fun hv => ?_
  exact .perform ⟨servers, hs, hv, rfl⟩

end DnsSetClient

namespace DnsCreateRecord

def script : String :=
  "param([string]$Zone,[string]$Name,[string]$Target) $ErrorActionPreference = 'Stop'; " ++
  "$existing = Get-DnsServerResourceRecord -ZoneName $Zone -Name $Name -RRType CName -ErrorAction " ++
  "SilentlyContinue; if ($existing) \x7b $existing | Remove-DnsServerResourceRecord -ZoneName " ++
  "$Zone -Force \x7d; Add-DnsServerResourceRecordCName -ZoneName $Zone -Name $Name -HostNameAlias " ++
  "$Target; (Get-DnsServerResourceRecord -ZoneName $Zone -Name $Name -RRType " ++
  "CName).RecordData.HostNameAlias"

def stage (zone name target : String) : Stage :=
  .plain "creating DNS record" 30 script [zone, name, target] fun output =>
    .obj [("zone", .str zone), ("name", .str name), ("target", .str target),
      ("applied", .str (Str.trim output.stdout))]

def execute (ctx : Params) : Exec Json := do
  let zone ← required ctx "zone"
  ensure (validDnsName zone) (invalid "zone" "must be a DNS zone name")
  let name ← required ctx "name"
  ensure (validDnsName name && !Str.containsChar name '.')
    (invalid "name" "must be a single DNS label")
  let target ← required ctx "target"
  ensure (validDnsName target) (invalid "target" "must be a DNS host name")
  perform (stage zone name target)

def handler : CommandHandler := ⟨"dns.create_record", .vmProvision, execute⟩

theorem staged (ctx : Params) :
    Staged (fun s => ∃ zone name target, param ctx "zone" = some zone ∧
      param ctx "name" = some name ∧ param ctx "target" = some target ∧
      validDnsName zone = true ∧ (validDnsName name && !Str.containsChar name '.') = true ∧
      validDnsName target = true ∧ s = stage zone name target) (execute ctx) := by
  refine .required fun zone hz => .ensure rfl fun hzv => ?_
  refine .required fun name hn => .ensure rfl fun hnv => ?_
  refine .required fun target ht => .ensure rfl fun htv => ?_
  exact .perform ⟨zone, name, target, hz, hn, ht, hzv, hnv, htv, rfl⟩

end DnsCreateRecord

namespace DnsApplyResources

def script : String :=
  "param([string]$RecordsJson)\n" ++
  "$ErrorActionPreference = 'Stop'\n" ++
  "Import-Module DnsServer\n" ++
  "# Windows PowerShell 5.1 writes a decoded JSON array to the pipeline as one\n" ++
  "# object, so wrapping the decode in an array subexpression nests it and the\n" ++
  "# loop below would bind every record at once. Assign first, then normalise.\n" ++
  "$records = $RecordsJson | ConvertFrom-Json\n" ++
  "$records = @($records)\n" ++
  "$results = foreach ($record in $records) \x7b\n" ++
  "    $zone = [string]$record.zone\n" ++
  "    $name = [string]$record.name\n" ++
  "    $value = [string]$record.value\n" ++
  "    if ($record.kind -eq 'PTR') \x7b\n" ++
  "        $existingZone = Get-DnsServerZone -Name $zone -ErrorAction SilentlyContinue\n" ++
  "        if (-not $existingZone) \x7b\n" ++
  "            $prefixLabels = @($zone.ToLowerInvariant().Replace('.in-addr.arpa','').Split('.'))\n" ++
  "            [array]::Reverse($prefixLabels)\n" ++
  "            $networkOctets = @($prefixLabels)\n" ++
  "            while ($networkOctets.Count -lt 4) \x7b $networkOctets += '0' \x7d\n" ++
  "            $networkId = ($networkOctets -join '.') + '/' + ($prefixLabels.Count * 8)\n" ++
  "            Add-DnsServerPrimaryZone -NetworkId $networkId -ReplicationScope Forest | Out-Null\n" ++
  "        \x7d\n" ++
  "        $prefixCount = @($zone.ToLowerInvariant().Replace('.in-addr.arpa','').Split('.')).Count\n" ++
  "        $remaining = @($name.Split('.')[$prefixCount..3])\n" ++
  "        [array]::Reverse($remaining)\n" ++
  "        $relativeName = $remaining -join '.'\n" ++
  "        $existing = @(Get-DnsServerResourceRecord -ZoneName $zone -Name $relativeName -RRType PTR " ++
  "-ErrorAction SilentlyContinue)\n" ++
  "        $actual = @($existing | ForEach-Object \x7b $_.RecordData.PtrDomainName.TrimEnd('.') \x7d)\n" ++
  "        $expected = $value.TrimEnd('.')\n" ++
  "        if ($existing.Count -gt 0 -and -not ($actual.Count -eq 1 -and $actual[0] -ieq $expected)) " ++
  "\x7b\n" ++
  "            throw \"DNS conflict for PTR $\x7bname\x7d: expected $value; found $($actual -join ',')\"\n" ++
  "        \x7d\n" ++
  "        if ($existing.Count -eq 0) \x7b\n" ++
  "            Add-DnsServerResourceRecordPtr -ZoneName $zone -Name $relativeName -PtrDomainName $value | " ++
  "Out-Null\n" ++
  "            $status = 'created'\n" ++
  "        \x7d else \x7b $status = 'retained' \x7d\n" ++
  "    \x7d elseif ($record.kind -eq 'A') \x7b\n" ++
  "        $existing = @(Get-DnsServerResourceRecord -ZoneName $zone -Name $name -RRType A -ErrorAction " ++
  "SilentlyContinue)\n" ++
  "        $actual = @($existing | ForEach-Object \x7b $_.RecordData.IPv4Address.IPAddressToString " ++
  "\x7d)\n" ++
  "        if ($existing.Count -gt 0 -and -not ($actual.Count -eq 1 -and $actual[0] -eq $value)) \x7b\n" ++
  "            throw \"DNS conflict for A $name.$\x7bzone\x7d: expected $value; " ++
  "found $($actual -join ',')\"\n" ++
  "        \x7d\n" ++
  "        if ($existing.Count -eq 0) \x7b\n" ++
  "            Add-DnsServerResourceRecordA -ZoneName $zone -Name $name -IPv4Address $value | Out-Null\n" ++
  "            $status = 'created'\n" ++
  "        \x7d else \x7b $status = 'retained' \x7d\n" ++
  "    \x7d elseif ($record.kind -eq 'CNAME') \x7b\n" ++
  "        $existing = @(Get-DnsServerResourceRecord -ZoneName $zone -Name $name -RRType CNAME " ++
  "-ErrorAction SilentlyContinue)\n" ++
  "        $actual = @($existing | ForEach-Object \x7b $_.RecordData.HostNameAlias.TrimEnd('.') \x7d)\n" ++
  "        $expected = $value.TrimEnd('.')\n" ++
  "        if ($existing.Count -gt 0 -and -not ($actual.Count -eq 1 -and $actual[0] -ieq $expected)) " ++
  "\x7b\n" ++
  "            throw \"DNS conflict for CNAME $name.$\x7bzone\x7d: expected $value; " ++
  "found $($actual -join ',')\"\n" ++
  "        \x7d\n" ++
  "        if ($existing.Count -eq 0) \x7b\n" ++
  "            Add-DnsServerResourceRecordCName -ZoneName $zone -Name $name -HostNameAlias $value | " ++
  "Out-Null\n" ++
  "            $status = 'created'\n" ++
  "        \x7d else \x7b $status = 'retained' \x7d\n" ++
  "    \x7d else \x7b throw \"Unsupported DNS resource kind '$($record.kind)'\" \x7d\n" ++
  "    [pscustomobject]@\x7b id = [string]$record.id; kind = [string]$record.kind; " ++
  "status = $status \x7d\n" ++
  "\x7d\n" ++
  "[pscustomobject]@\x7b applied = @($results).Count; records = @($results) \x7d | ConvertTo-Json " ++
  "-Depth 5 -Compress"

def stage (host : Host) (recordsJson : String) (records : List PlannedDnsRecord) : Stage :=
  .plain "applying DNS resources" 30 script [recordsJson] fun output =>
    .obj [("applied", .int records.length), ("readback", parseJson host output.stdout)]

def execute (host : Host) (ctx : Params) : Exec Json := do
  let (recordsJson, records) ← parsePlannedRecords host ctx
  perform (stage host recordsJson records)

def handler (host : Host) : CommandHandler := ⟨"dns.apply_resources", .vmProvision, execute host⟩

theorem staged (host : Host) (ctx : Params) :
    Staged (fun s => ∃ raw records, PlannedRecords host ctx raw records ∧
      s = stage host raw records) (execute host ctx) := by
  refine .check (parsePlannedRecords_checks host ctx) fun p hp => ?_
  exact .perform ⟨p.1, p.2, hp, rfl⟩

end DnsApplyResources

namespace DnsVerify

def script : String :=
  "param([string]$RecordsJson,[string]$Server,[string]$RequireAdSrv,[string]$Domain,[string]$HttpUrl)\n" ++
  "$ErrorActionPreference = 'Stop'\n" ++
  "# See dns.apply_resources: wrapping the decode in an array subexpression nests\n" ++
  "# it on Windows PowerShell 5.1, binding $record to every record at once.\n" ++
  "$records = $RecordsJson | ConvertFrom-Json\n" ++
  "$records = @($records)\n" ++
  "$checks = foreach ($record in $records) \x7b\n" ++
  "    if ($record.kind -eq 'PTR') \x7b\n" ++
  "        $answer = @(Resolve-DnsName -Name ([string]$record.name) -Type PTR -Server $Server -DnsOnly " ++
  "-NoHostsFile)\n" ++
  "        $actual = @($answer | Where-Object Type -eq PTR | ForEach-Object \x7b $_.NameHost.TrimEnd('.') " ++
  "\x7d)\n" ++
  "        $expected = ([string]$record.value).TrimEnd('.')\n" ++
  "    \x7d else \x7b\n" ++
  "        $fqdn = ([string]$record.name) + '.' + ([string]$record.zone)\n" ++
  "        $answer = @(Resolve-DnsName -Name $fqdn -Type ([string]$record.kind) -Server $Server -DnsOnly " ++
  "-NoHostsFile)\n" ++
  "        if ($record.kind -eq 'A') \x7b $actual = @($answer | Where-Object Type -eq A | ForEach-Object " ++
  "IPAddress); $expected = [string]$record.value \x7d\n" ++
  "        else \x7b $actual = @($answer | Where-Object Type -eq CNAME | ForEach-Object \x7b " ++
  "$_.NameHost.TrimEnd('.') \x7d); $expected = ([string]$record.value).TrimEnd('.') \x7d\n" ++
  "    \x7d\n" ++
  "    $ok = @($actual | Where-Object \x7b $_ -ieq $expected \x7d).Count -gt 0\n" ++
  "    [pscustomobject]@\x7b id = [string]$record.id; kind = [string]$record.kind; " ++
  "ok = $ok; expected = $expected; actual = @($actual) \x7d\n" ++
  "\x7d\n" ++
  "$adSrvOk = $true\n" ++
  "$srvChecks = @()\n" ++
  "if ($RequireAdSrv -eq 'true') \x7b\n" ++
  "    $srvNames = @(\"_ldap._tcp.$Domain\", \"_kerberos._tcp.$Domain\", " ++
  "\"_ldap._tcp.dc._msdcs.$Domain\")\n" ++
  "    $srvChecks = @($srvNames | ForEach-Object \x7b\n" ++
  "        $answers = @(Resolve-DnsName -Name $_ -Type SRV -Server $Server -DnsOnly -NoHostsFile)\n" ++
  "        [pscustomobject]@\x7b name = $_; ok = @($answers | Where-Object Type -eq SRV).Count -gt 0 " ++
  "\x7d\n" ++
  "    \x7d)\n" ++
  "    $adSrvOk = @($srvChecks | Where-Object \x7b -not $_.ok \x7d).Count -eq 0\n" ++
  "\x7d\n" ++
  "$httpOk = $true\n" ++
  "if ($HttpUrl) \x7b\n" ++
  "    $response = Invoke-WebRequest -Uri $HttpUrl -UseBasicParsing -TimeoutSec 30\n" ++
  "    $httpOk = [int]$response.StatusCode -ge 200 -and [int]$response.StatusCode -lt 400\n" ++
  "\x7d\n" ++
  "$allVerified = @($checks | Where-Object \x7b -not $_.ok \x7d).Count -eq 0\n" ++
  "if (-not $allVerified -or -not $adSrvOk -or -not $httpOk) \x7b throw 'DNS verification failed' " ++
  "\x7d\n" ++
  "[pscustomobject]@\x7b all_verified = $allVerified; ad_srv_ok = $adSrvOk; " ++
  "http_ok = $httpOk; records = @($checks); srv = @($srvChecks) \x7d | ConvertTo-Json -Depth 6 " ++
  "-Compress"

/-- An address or a name. -/
def validServer (server : String) : Bool := validIpv4Addr server || validDnsName server

def validHttpUrl (httpUrl : String) : Bool :=
  (Str.startsWith httpUrl "http://" || Str.startsWith httpUrl "https://")
    && decide (Str.len httpUrl ≤ 300) && !Str.any httpUrl (Str.containsChar "\"'`;$ \r\n")

def stage (host : Host) (recordsJson server requireAdSrv domain httpUrl : String) : Stage :=
  .plain "verifying DNS resources" 30 script [recordsJson, server, requireAdSrv, domain, httpUrl]
    fun output => parseJson host output.stdout

def execute (host : Host) (ctx : Params) : Exec Json := do
  let (recordsJson, _) ← parsePlannedRecords host ctx
  let server ← required ctx "server"
  ensure (validServer server) (invalid "server" "must be an IPv4 address or DNS name")
  let requireAdSrv := (param ctx "requireAdSrv").getD "false"
  ensure (requireAdSrv == "true" || requireAdSrv == "false")
    (invalid "requireAdSrv" "must be true or false")
  let domain := (param ctx "domain").getD ""
  ensure (!(requireAdSrv == "true") || validDnsName domain)
    (invalid "domain" "must be a DNS domain name")
  let httpUrl := (param ctx "httpUrl").getD ""
  ensure (httpUrl.isEmpty || validHttpUrl httpUrl)
    (invalid "httpUrl" "must be a safe HTTP(S) URL")
  perform (stage host recordsJson server requireAdSrv domain httpUrl)

def handler (host : Host) : CommandHandler := ⟨"dns.verify", .vmRead, execute host⟩

theorem staged (host : Host) (ctx : Params) :
    Staged (fun s => ∃ raw records server requireAdSrv domain httpUrl,
      PlannedRecords host ctx raw records ∧ param ctx "server" = some server ∧
      domain = (param ctx "domain").getD "" ∧ validServer server = true ∧
      (requireAdSrv == "true" || requireAdSrv == "false") = true ∧
      (!(requireAdSrv == "true") || validDnsName domain) = true ∧
      (httpUrl.isEmpty || validHttpUrl httpUrl) = true ∧
      s = stage host raw server requireAdSrv domain httpUrl) (execute host ctx) := by
  refine .check (parsePlannedRecords_checks host ctx) fun p hp => ?_
  refine .required fun server hs => .ensure rfl fun hsv => .ensure rfl fun hr => ?_
  refine .ensure rfl fun hd => .ensure rfl fun hu => ?_
  exact .perform ⟨p.1, p.2, server, _, _, _, hp, hs, rfl, hsv, hr, hd, hu, rfl⟩

end DnsVerify

end PkiExecutor
