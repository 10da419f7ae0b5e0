/-
# `PkiExecutor.Commands.Cert` — enrolling, storing and verifying certificates

`cert.enroll`, `cert.addstore`, `cert.dspublish`, `cert.verify` and the readback
of the whole published PKI, `pki.verify` (`commands/cert_enroll.rs`,
`cert_store.rs`, `cert_verify.rs`, `pki_verify.rs`).
-/
import PkiExecutor.Commands.System

namespace PkiExecutor

namespace CertEnroll

def script : String :=
  "param([string]$Template,[string]$ExportPath,[string]$Refresh) $ErrorActionPreference = 'Stop'; " ++
  "if ($Refresh -eq 'true') \x7b gpupdate /target:computer /force | Out-Null; " ++
  "certutil -pulse | Out-Null \x7d; $req = Get-Certificate -Template $Template -CertStoreLocation " ++
  "Cert:\\LocalMachine\\My; if (\"$($req.Status)\" -ne 'Issued') \x7b throw \"enrollment status: " ++
  "$($req.Status)\" \x7d; $cert = $req.Certificate; if ($ExportPath) \x7b New-Item -ItemType " ++
  "Directory -Force -Path (Split-Path $ExportPath) | Out-Null; Export-Certificate -Cert $cert " ++
  "-FilePath $ExportPath -Type CERT | Out-Null \x7d; @\x7b thumbprint = $cert.Thumbprint; " ++
  "subject = $cert.Subject \x7d | ConvertTo-Json"

def validTemplateCn (value : String) : Bool := validChars 1 64 "._-" value

def stage (host : Host) (template exportPath refresh : String) : Stage :=
  .plain "enrolling certificate" 30 script [template, exportPath, refresh] fun output =>
    let issued := parseJson host output.stdout
    .obj [("template", .str template), ("thumbprint", issued.get "thumbprint"),
      ("subject", issued.get "subject"), ("export_path", .nullIfEmpty exportPath)]

def execute (host : Host) (ctx : Params) : Exec Json := do
  let template ← required ctx "template"
  ensure (validTemplateCn template)
    (invalid "template" "must be a template CN of [A-Za-z0-9._-], max 64 chars")
  let exportPath := (param ctx "exportPath").getD ""
  ensure (exportPath.isEmpty || validWindowsPath exportPath)
    (invalid "exportPath" "must be an absolute Windows path")
  let refresh := (param ctx "refreshPolicy").getD "false"
  ensure (["true", "false"].contains refresh) (invalid "refreshPolicy" "must be 'true' or 'false'")
  perform (stage host template exportPath refresh)

def handler (host : Host) : CommandHandler := ⟨"cert.enroll", .vmProvision, execute host⟩

theorem staged (host : Host) (ctx : Params) :
    Staged (fun s => ∃ template exportPath refresh, param ctx "template" = some template ∧
      validTemplateCn template = true ∧
      (exportPath.isEmpty || validWindowsPath exportPath) = true ∧
      ["true", "false"].contains refresh = true ∧
      s = stage host template exportPath refresh) (execute host ctx) := by
  refine .required fun template ht => .ensure rfl fun hv => ?_
  refine .ensure rfl fun he => .ensure rfl fun hr => ?_
  exact .perform ⟨template, _, _, ht, hv, he, hr, rfl⟩

end CertEnroll

namespace CertAddStore

/-- The stores of the machine that a certificate may be added to. -/
def stores : List String := ["root", "ca"]

/-- What is added. -/
def kinds : List String := ["cert", "crl"]

def script : String :=
  "param([string]$Store,[string]$Path,[string]$Kind) $out = certutil -addstore -f $Store $Path " ++
  "2>&1 | Out-String; if ($LASTEXITCODE -ne 0) \x7b [Console]::Error.WriteLine($out); " ++
  "exit $LASTEXITCODE \x7d; if ($Kind -eq 'crl') \x7b '' \x7d else \x7b (New-Object " ++
  "System.Security.Cryptography.X509Certificates.X509Certificate2($Path)).Thumbprint \x7d"

def stage (store path kind : String) : Stage :=
  .plain "adding to store" 30 script [store, path, kind] fun output =>
    .obj [("store", .str store), ("path", .str path), ("kind", .str kind),
      ("thumbprint", .nullIfEmpty (Str.trim output.stdout))]

def execute (ctx : Params) : Exec Json := do
  let store ← required ctx "store"
  ensure (stores.contains store) (invalid "store" "must be 'root' or 'ca'")
  let path ← required ctx "path"
  ensure (validWindowsPath path) (invalid "path" "must be an absolute Windows path")
  let kind := (param ctx "kind").getD "cert"
  ensure (kinds.contains kind) (invalid "kind" "must be 'cert' or 'crl'")
  perform (stage store path kind)

def handler : CommandHandler := ⟨"cert.addstore", .vmProvision, execute⟩

theorem staged (ctx : Params) :
    Staged (fun s => ∃ store path kind, param ctx "store" = some store ∧
      param ctx "path" = some path ∧ stores.contains store = true ∧
      validWindowsPath path = true ∧ kinds.contains kind = true ∧ s = stage store path kind)
      (execute ctx) := by
  refine .required fun store hs => .ensure rfl fun hsv => ?_
  refine .required fun path hp => .ensure rfl fun hpv => .ensure rfl fun hk => ?_
  exact .perform ⟨store, path, _, hs, hp, hsv, hpv, hk, rfl⟩

end CertAddStore

namespace CertDsPublish

def script : String :=
  "param([string]$Path,[string]$Attribute) certutil -f -dspublish $Path $Attribute; " ++
  "exit $LASTEXITCODE"

def validDsAttribute (value : String) : Bool := validChars 1 64 "-" value

def stage (path attr : String) : Stage :=
  .plain "publishing to AD" 30 script [path, attr] fun output =>
    .obj [("path", .str path), ("attribute", .str attr), ("raw", .str output.stdout)]

def execute (ctx : Params) : Exec Json := do
  let path ← required ctx "path"
  ensure (validWindowsPath path) (invalid "path" "must be an absolute Windows path")
  let attr ← required ctx "attribute"
  ensure (validDsAttribute attr)
    (invalid "attribute" "must be a dspublish keyword (e.g. 'RootCA') or a CA machine name")
  perform (stage path attr)

def handler : CommandHandler := ⟨"cert.dspublish", .vmProvision, execute⟩

theorem staged (ctx : Params) :
    Staged (fun s => ∃ path attr, param ctx "path" = some path ∧
      param ctx "attribute" = some attr ∧ validWindowsPath path = true ∧
      validDsAttribute attr = true ∧ s = stage path attr) (execute ctx) := by
  refine .required fun path hp => .ensure rfl fun hpv => ?_
  refine .required fun attr ha => .ensure rfl fun hav => ?_
  exact .perform ⟨path, attr, hp, ha, hpv, hav, rfl⟩

end CertDsPublish

namespace CertVerify

def mlDsa87Oid : String := "2.16.840.1.101.3.4.3.19"

/-- Two or more numbers between dots. -/
def validOid (value : String) : Bool :=
  decide (2 ≤ (Str.split value '.').length)
    && (Str.split value '.').all fun part => !part.isEmpty && Str.all part Char.isDigit

def script : String :=
  "param([string]$Path,[string]$RootPath,[string]$IssuingPath,[string]$ExpectedOid) " ++
  "$ErrorActionPreference = 'Stop'; $raw = (certutil -verify -urlfetch $Path 2>&1) -join \"`n\"; " ++
  "$verifyExit = $LASTEXITCODE; $chainOk = ($verifyExit -eq 0) -and ($raw -match 'CertUtil: " ++
  "-verify command completed successfully'); $aiaCount = [regex]::Matches($raw, " ++
  "'(?im)^\\s*Verified\\s+\"Certificate\\s*\\(').Count; $baseCrlCount = [regex]::Matches($raw, " ++
  "'(?im)^\\s*Verified\\s+\"Base CRL\\s*\\(').Count; $deltaCrlCount = [regex]::Matches($raw, " ++
  "'(?im)^\\s*Verified\\s+\"Delta CRL\\s*\\(').Count; $ocspCount = [regex]::Matches($raw, " ++
  "'(?im)^\\s*Verified\\s+\"OCSP').Count; $urls = @([regex]::Matches($raw, " ++
  "'https?://[^\\s\"<>]+') | ForEach-Object \x7b $_.Value.TrimEnd('.', ',', ')') \x7d | " ++
  "Sort-Object -Unique); $now = [DateTime]::UtcNow; $certificates = @(); " ++
  "foreach ($item in @(@\x7b role = 'probe'; path = $Path \x7d, @\x7b role = 'issuing'; " ++
  "path = $IssuingPath \x7d, @\x7b role = 'root'; path = $RootPath \x7d)) \x7b if (-not " ++
  "$item.path) \x7b continue \x7d; $cert = " ++
  "[System.Security.Cryptography.X509Certificates.X509Certificate2]::new($item.path); " ++
  "$validNow = $now -ge $cert.NotBefore.ToUniversalTime() -and $now -le " ++
  "$cert.NotAfter.ToUniversalTime(); $certificates += @\x7b role = $item.role; " ++
  "subject = $cert.Subject; thumbprint = $cert.Thumbprint; signature_oid = " ++
  "$cert.SignatureAlgorithm.Value; not_before = $cert.NotBefore.ToUniversalTime().ToString('o'); " ++
  "not_after = $cert.NotAfter.ToUniversalTime().ToString('o'); valid_now = $validNow \x7d \x7d; " ++
  "$expectedCertCount = 1 + [int][bool]$IssuingPath + [int][bool]$RootPath; " ++
  "$mlDsaOk = $certificates.Count -eq $expectedCertCount -and @($certificates | Where-Object \x7b " ++
  "$_.signature_oid -ne $ExpectedOid \x7d).Count -eq 0; $validityOk = $certificates.Count -eq " ++
  "$expectedCertCount -and @($certificates | Where-Object \x7b -not $_.valid_now \x7d).Count -eq " ++
  "0; $aiaOk = $aiaCount -ge 2; $cdpOk = $baseCrlCount -ge 2 -and $deltaCrlCount -ge 1; " ++
  "$ocspOk = $ocspCount -ge 1; $fresh = $chainOk -and $cdpOk -and $ocspOk; " ++
  "@\x7b healthy = ($chainOk -and $aiaOk -and $cdpOk -and $ocspOk -and $mlDsaOk -and $validityOk " ++
  "-and $fresh); chain_ok = $chainOk; chain = @\x7b ok = $chainOk \x7d; " ++
  "aia = @\x7b ok = $aiaOk; verified_certificates = $aiaCount \x7d; " ++
  "cdp = @\x7b ok = $cdpOk; verified_base_crls = $baseCrlCount; verified_delta_crls = " ++
  "$deltaCrlCount \x7d; ocsp = @\x7b ok = $ocspOk; verified_responses = $ocspCount \x7d; " ++
  "ml_dsa = @\x7b ok = $mlDsaOk; expected_oid = $ExpectedOid \x7d; validity = @\x7b ok = " ++
  "$validityOk \x7d; revocation_freshness = @\x7b ok = $fresh \x7d; " ++
  "certificates = $certificates; urls = $urls; raw = $raw \x7d | ConvertTo-Json -Depth 6 " ++
  "-Compress"

def stage (host : Host) (path rootPath issuingPath expectedOid : String) : Stage :=
  ⟨"verifying chain and revocation paths", 50, script,
    [path, rootPath, issuingPath, expectedOid], readObject host "cert.verify"⟩

/-- The path check at one parameter; an empty one passes. -/
def pathOk (p : String × String) : Bool := p.2.isEmpty || validWindowsPath p.2

def execute (host : Host) (ctx : Params) : Exec Json := do
  let path ← required ctx "path"
  let rootPath := (param ctx "rootPath").getD ""
  let issuingPath := (param ctx "issuingPath").getD ""
  forEach (fun p => ensure (pathOk p) (invalid p.1 "must be an absolute Windows path"))
    [("path", path), ("rootPath", rootPath), ("issuingPath", issuingPath)]
  let expectedOid := (param ctx "expectedSignatureOid").getD mlDsa87Oid
  ensure (validOid expectedOid)
    (invalid "expectedSignatureOid" "must be a dotted-decimal object identifier")
  perform (stage host path rootPath issuingPath expectedOid)

def handler (host : Host) : CommandHandler := ⟨"cert.verify", .vmRead, execute host⟩

theorem staged (host : Host) (ctx : Params) :
    Staged (fun s => ∃ path rootPath issuingPath expectedOid, param ctx "path" = some path ∧
      (∀ p ∈ [("path", path), ("rootPath", rootPath), ("issuingPath", issuingPath)],
        pathOk p = true) ∧
      validOid expectedOid = true ∧ s = stage host path rootPath issuingPath expectedOid)
      (execute host ctx) := by
  refine .required fun path hp => .check (.forEach (fun _ => .ensure rfl) _) fun _ hpaths => ?_
  refine .ensure rfl fun ho => ?_
  exact .perform ⟨path, _, _, _, hp, hpaths, ho, rfl⟩

end CertVerify

namespace PkiVerify

def script : String :=
  "param([string]$RootCa,[string]$IssuingCa,[string]$Templates,[string]$HttpUrls) " ++
  "$ErrorActionPreference = 'Stop'; Import-Module ActiveDirectory; $configDn = " ++
  "(Get-ADRootDSE).configurationNamingContext; $pkiBase = \"CN=Public Key " ++
  "Services,CN=Services,$configDn\"; function Child-Names([string]$Container) \x7b @(Get-ADObject " ++
  "-SearchBase \"CN=$Container,$pkiBase\" -SearchScope OneLevel -Filter * | Select-Object " ++
  "-ExpandProperty Name) \x7d; $ntAuth = Get-ADObject -Identity " ++
  "\"CN=NTAuthCertificates,$pkiBase\" -Properties cACertificate; $ntAuthOk = " ++
  "@($ntAuth.cACertificate).Count -gt 0; $aiaNames = Child-Names 'AIA'; " ++
  "$cdpNames = Child-Names 'CDP'; $caNames = Child-Names 'Certification Authorities'; " ++
  "$enrollmentNames = Child-Names 'Enrollment Services'; $templateNames = Child-Names " ++
  "'Certificate Templates'; $aiaOk = $aiaNames -contains $RootCa -and $aiaNames -contains " ++
  "$IssuingCa; $cdpOk = $cdpNames -contains $RootCa -and $cdpNames -contains $IssuingCa; " ++
  "$caOk = $caNames -contains $RootCa; $enrollmentOk = $enrollmentNames -contains $IssuingCa; " ++
  "$requiredTemplates = @($Templates -split ',' | ForEach-Object \x7b $_.Trim() \x7d); " ++
  "$missingTemplates = @($requiredTemplates | Where-Object \x7b $templateNames -notcontains $_ " ++
  "\x7d); $http = @(); $publicationUrls = $HttpUrls | ConvertFrom-Json; " ++
  "foreach ($url in @($publicationUrls)) \x7b $status = 0; try \x7b $status = " ++
  "[int](Invoke-WebRequest -Uri $url -UseBasicParsing -Method Head -TimeoutSec 20).StatusCode " ++
  "\x7d catch \x7b if ($_.Exception.Response) \x7b $status = " ++
  "[int]$_.Exception.Response.StatusCode \x7d \x7d; $http += @\x7b url = $url; " ++
  "status = $status; ok = ($status -ge 200 -and $status -lt 300) \x7d \x7d; " ++
  "$httpOk = @($http | Where-Object \x7b -not $_.ok \x7d).Count -eq 0; " ++
  "$templatesOk = $missingTemplates.Count -eq 0; @\x7b healthy = ($ntAuthOk -and $aiaOk -and " ++
  "$cdpOk -and $caOk -and $enrollmentOk -and $templatesOk -and $httpOk); " ++
  "containers = @\x7b nt_auth = $ntAuthOk; aia = $aiaOk; cdp = $cdpOk; " ++
  "certification_authorities = $caOk; enrollment_services = $enrollmentOk \x7d; " ++
  "templates = @\x7b ok = $templatesOk; required = $requiredTemplates; " ++
  "missing = $missingTemplates \x7d; http_artifacts = @\x7b ok = $httpOk; " ++
  "results = $http \x7d; observed = @\x7b aia = $aiaNames; cdp = $cdpNames; " ++
  "certification_authorities = $caNames; enrollment_services = $enrollmentNames \x7d \x7d | " ++
  "ConvertTo-Json -Depth 6 -Compress"

def validCaName (value : String) : Bool := validChars 1 64 " ._-" value

def validTemplate (value : String) : Bool := validChars 1 64 "._-" value

/-- A URL of either scheme without quotes, blanks and angle brackets, up to 512 bytes. -/
def validHttpUrl (value : String) : Bool :=
  (Str.startsWith value "http://" || Str.startsWith value "https://")
    && !Str.any value (Str.containsChar "\"'`;$ <>")
    && decide (Str.len value ≤ 512)

/-- `serde_json::from_str` at a list of strings. -/
def parseStrings (host : Host) (raw : String) : Option (List String) :=
  match host.fromStr raw with
  | some (.arr items) => items.mapM Json.asStr
  | _ => none

def stage (host : Host) (rootCa issuingCa : String) (templates : List String) (urlsRaw : String) :
    Stage :=
  ⟨"verifying enterprise PKI publication", 50, script,
    [rootCa, issuingCa, Str.join "," templates, urlsRaw], readObject host "pki.verify"⟩

def execute (host : Host) (ctx : Params) : Exec Json := do
  let rootCa ← required ctx "rootCaCommonName"
  let issuingCa ← required ctx "issuingCaCommonName"
  ensure (validCaName rootCa) (invalid "rootCaCommonName" "must be a valid CA common name")
  ensure (validCaName issuingCa) (invalid "issuingCaCommonName" "must be a valid CA common name")
  let templatesRaw ← required ctx "templates"
  let templates := (Str.split templatesRaw ',').map Str.trim
  ensure (!templates.isEmpty && templates.all validTemplate)
    (invalid "templates" "must be a comma-separated list of template CN names")
  let urlsRaw ← required ctx "httpUrls"
  let urls ← okOr (parseStrings host urlsRaw)
    (invalid "httpUrls" "must be a JSON array of HTTP URLs")
  ensure (!urls.isEmpty && urls.all validHttpUrl)
    (invalid "httpUrls" "must contain one or more valid HTTP URLs")
  perform (stage host rootCa issuingCa templates urlsRaw)

def handler (host : Host) : CommandHandler := ⟨"pki.verify", .vmRead, execute host⟩

theorem staged (host : Host) (ctx : Params) :
    Staged (fun s => ∃ rootCa issuingCa templatesRaw urlsRaw urls,
      param ctx "rootCaCommonName" = some rootCa ∧
      param ctx "issuingCaCommonName" = some issuingCa ∧
      param ctx "templates" = some templatesRaw ∧ param ctx "httpUrls" = some urlsRaw ∧
      validCaName rootCa = true ∧ validCaName issuingCa = true ∧
      ((Str.split templatesRaw ',').map Str.trim).all validTemplate = true ∧
      parseStrings host urlsRaw = some urls ∧ (!urls.isEmpty && urls.all validHttpUrl) = true ∧
      s = stage host rootCa issuingCa ((Str.split templatesRaw ',').map Str.trim) urlsRaw)
      (execute host ctx) := by
  refine .required fun rootCa hr => .required fun issuingCa hi => ?_
  refine .ensure rfl fun hrv => .ensure rfl fun hiv => ?_
  refine .required fun templatesRaw ht => .ensure rfl fun htv => ?_
  refine .required fun urlsRaw hu => .check (.okOr rfl) fun urls hus => .ensure rfl fun huv => ?_
  simp only [Bool.and_eq_true] at htv
  exact .perform ⟨rootCa, issuingCa, templatesRaw, urlsRaw, urls, hr, hi, ht, hu, hrv, hiv, htv.2,
    hus, huv, rfl⟩

end PkiVerify

end PkiExecutor
