/-
# `PkiExecutor.Commands.Web` — CertEnroll hosting and the Online Responder

`iis.setup_certenroll`, `ocsp.install`, `ocsp.configure_revocation` and
`ocsp.verify` (`commands/iis.rs`, `ocsp.rs`).
-/
import PkiExecutor.Commands.Util

namespace PkiExecutor

namespace IisSetupCertEnroll

/-- Which halves of the hosting are set up. -/
def scopes : List String := ["share", "web", "all"]

def validNetbios (value : String) : Bool := validChars 1 15 "-" value

def script : String :=
  "param([string]$Path,[string]$Netbios,[string]$Scope) $ErrorActionPreference = 'Stop'; " ++
  "if ($Scope -ne 'web') \x7b New-Item -Path $Path -ItemType Directory -Force | Out-Null; " ++
  "if (-not (Get-SmbShare -Name 'CertEnroll' -ErrorAction SilentlyContinue)) \x7b New-SmbShare " ++
  "-Name 'CertEnroll' -Path $Path -ChangeAccess \"$Netbios\\Cert Publishers\" | Out-Null \x7d; " ++
  "icacls $Path /grant \"$\x7bNetbios\x7d\\Cert Publishers:(OI)(CI)M\" | Out-Null; " ++
  "if ($LASTEXITCODE -ne 0) \x7b throw 'icacls grant failed' \x7d \x7d; " ++
  "if ($Scope -ne 'share') \x7b Install-WindowsFeature Web-Server -IncludeManagementTools | " ++
  "Out-Null; Import-Module WebAdministration; if (-not (Get-WebVirtualDirectory -Site 'Default " ++
  "Web Site' -Name 'CertEnroll')) \x7b New-WebVirtualDirectory -Site 'Default Web Site' -Name " ++
  "'CertEnroll' -PhysicalPath $Path | Out-Null \x7d; Set-WebConfigurationProperty -PSPath " ++
  "'IIS:\\Sites\\Default Web Site\\CertEnroll' -Filter '/system.webServer/directoryBrowse' -Name " ++
  "enabled -Value $true; Set-WebConfigurationProperty -PSPath 'IIS:\\Sites\\Default Web Site' " ++
  "-Filter '/system.webServer/security/requestFiltering' -Name allowDoubleEscaping -Value $true; " ++
  "iisreset | Out-Null \x7d"

def stage (path netbios scope : String) : Stage :=
  .plain "configuring CertEnroll hosting" 20 script [path, netbios, scope] fun _ =>
    .obj [("path", .str path), ("scope", .str scope), ("share_configured", .bool (scope != "web")),
      ("web_configured", .bool (scope != "share"))]

def execute (ctx : Params) : Exec Json := do
  let path := (param ctx "path").getD "C:\\CertEnroll"
  ensure (validWindowsPath path) (invalid "path" "must be an absolute Windows path")
  let scope := (param ctx "scope").getD "all"
  ensure (scopes.contains scope) (invalid "scope" "must be 'share', 'web' or 'all'")
  -- only the share half names a domain group
  let netbios ← (if scope = "web" then pure "" else do
    let n ← required ctx "netbiosName"
    ensure (validNetbios n) (invalid "netbiosName" "must be 1-15 chars of [A-Za-z0-9-]")
    pure n)
  perform (stage path netbios scope)

def handler : CommandHandler := ⟨"iis.setup_certenroll", .vmProvision, execute⟩

theorem staged (ctx : Params) :
    Staged (fun s => ∃ path netbios scope, validWindowsPath path = true ∧
      scopes.contains scope = true ∧
      ((scope = "web" ∧ netbios = "") ∨
        (scope ≠ "web" ∧ param ctx "netbiosName" = some netbios ∧ validNetbios netbios = true)) ∧
      scope = (param ctx "scope").getD "all" ∧ s = stage path netbios scope) (execute ctx) := by
  refine .ensure rfl fun hp => .ensure rfl fun hs => ?_
  refine .check (Φ := fun netbios => ((param ctx "scope").getD "all" = "web" ∧ netbios = "") ∨
    ((param ctx "scope").getD "all" ≠ "web" ∧ param ctx "netbiosName" = some netbios ∧
      validNetbios netbios = true)) (.ite ?_ ?_) fun netbios hn => ?_
  · intro hw
    exact .ok (.inl ⟨hw, rfl⟩)
  · exact fun hw => (Checks.required ctx "netbiosName").bind fun n hn =>
      (Checks.ensure rfl).bind fun _ hv => .ok (.inr ⟨hw, hn, hv⟩)
  · exact .perform ⟨_, netbios, _, hp, hs, hn, rfl, rfl⟩

end IisSetupCertEnroll

namespace OcspInstall

def script : String :=
  "$ErrorActionPreference = 'Stop'; Install-WindowsFeature ADCS-Online-Cert " ++
  "-IncludeManagementTools | Out-Null; Import-Module ADCSDeployment; " ++
  "try \x7b Install-AdcsOnlineResponder -Force | Out-Null \x7d catch \x7b if " ++
  "($_.Exception.Message -notmatch 'already') \x7b throw \x7d \x7d; " ++
  "(Get-Service ocspsvc).Status.ToString()"

def stage : Stage :=
  .plain "installing Online Responder" 20 script [] fun output =>
    .obj [("installed", .bool true), ("service", .str (Str.trim output.stdout))]

def execute (_ : Params) : Exec Json := perform stage

def handler : CommandHandler := ⟨"ocsp.install", .vmProvision, execute⟩

theorem staged (ctx : Params) : Staged (· = stage) (execute ctx) := .perform rfl

end OcspInstall

namespace OcspConfigureRevocation

/-- The composed `OCSP_SF_*` flags: silent, auto-renewal, issuer is the CA,
auto-discovery, responder by key hash, auto-enrollment. -/
def ocspSigningFlags : Nat := 0x001 ||| 0x004 ||| 0x008 ||| 0x010 ||| 0x040 ||| 0x200

/-- The provider that answers from revocation lists. -/
def crlProviderClsid : String := "\x7b4956d17f-88fd-4198-b287-1e6e65883b19\x7d"

def script : String :=
  "param([string]$Name,[string]$CaConfig,[string]$CaCertPath,[string]$Template,[string]$RefreshMinutes,[string]$BaseCrlUrls,[string]$DeltaCrlUrls,[string]$SigningFlags,[string]$ProviderClsid) " ++
  "$ErrorActionPreference = 'Stop'; if (-not (Test-Path -LiteralPath $CaCertPath)) \x7b throw " ++
  "\"CA certificate not found at $CaCertPath\" \x7d; $caCertBytes = " ++
  "[System.IO.File]::ReadAllBytes($CaCertPath); $stage = 'opening the responder configuration'; " ++
  "try \x7b $ocsp = New-Object -ComObject CertAdm.OCSPAdmin; " ++
  "$ocsp.GetConfiguration($env:COMPUTERNAME, $true); $stage = 'creating the revocation " ++
  "configuration'; $existing = @($ocsp.OCSPCAConfigurationCollection | Where-Object \x7b " ++
  "$_.Identifier -eq $Name \x7d); if ($existing.Count -gt 0) \x7b " ++
  "$ocsp.OCSPCAConfigurationCollection.DeleteCAConfiguration($Name) \x7d; " ++
  "$cfg = $ocsp.OCSPCAConfigurationCollection.CreateCAConfiguration($Name, $caCertBytes); " ++
  "$stage = 'setting revocation configuration properties'; $cfg.CAConfig = $CaConfig; " ++
  "$cfg.SigningCertificateTemplate = $Template; $cfg.HashAlgorithm = 'SHA256'; " ++
  "$cfg.SigningFlags = [int]$SigningFlags; $props = New-Object -ComObject " ++
  "CertAdm.OCSPPropertyCollection; [void]$props.CreateProperty('BaseCrlUrls', " ++
  "[string[]]@($BaseCrlUrls -split ',')); if ($DeltaCrlUrls) \x7b " ++
  "[void]$props.CreateProperty('DeltaCrlUrls', [string[]]@($DeltaCrlUrls -split ',')) \x7d; " ++
  "[void]$props.CreateProperty('RefreshTimeOut', [int]$RefreshMinutes * 60000); " ++
  "$cfg.ProviderProperties = $props.GetAllProperties(); $cfg.ProviderCLSID = $ProviderClsid; " ++
  "$stage = 'saving the responder configuration'; $ocsp.SetConfiguration($env:COMPUTERNAME, " ++
  "$true) \x7d catch \x7b throw \"$stage failed: $($_.Exception.Message)\" \x7d; " ++
  "$Name"

def validConfigName (value : String) : Bool := validChars 1 64 " ._-" value

/-- `host\CA Common Name` -/
def validCaConfig (value : String) : Bool :=
  match Str.splitOnce value '\\' with
  | some (hostName, caName) => validChars 1 253 ".-" hostName && validChars 1 64 " ._-" caName
  | none => false

/-- URLs between commas, trimmed, none of which has a quote, a blank or a dollar inside. -/
def validUrlList (raw : String) : Bool :=
  ((Str.split raw ',').map Str.trim).all fun url =>
    !url.isEmpty && (Str.startsWith url "http://" || Str.startsWith url "https://")
      && !Str.any url (Str.containsChar "\"'`;$ ")

def validTemplate (template : String) : Bool := validChars 1 64 "._-" template

/-- An integer in 1 to 1440. -/
def validRefresh (refreshMinutes : String) : Bool :=
  match Str.parseU32 refreshMinutes with
  | some m => decide (1 ≤ m ∧ m ≤ 1440)
  | none => false

/-- The parameters of one revocation configuration, as checked. -/
structure Config where
  name : String
  caConfig : String
  caCertPath : String
  template : String
  refreshMinutes : String
  baseCrlUrls : String
  deltaCrlUrls : String

def stage (c : Config) : Stage :=
  .plain "configuring revocation" 30 script
    [c.name, c.caConfig, c.caCertPath, c.template, c.refreshMinutes, c.baseCrlUrls, c.deltaCrlUrls,
      toString ocspSigningFlags, crlProviderClsid] fun _ =>
    .obj [("name", .str c.name), ("ca_config", .str c.caConfig),
      ("ca_cert_path", .str c.caCertPath), ("template", .str c.template),
      ("refresh_minutes", .str c.refreshMinutes), ("base_crl_urls", .str c.baseCrlUrls),
      ("delta_crl_urls", .nullIfEmpty c.deltaCrlUrls)]

def execute (ctx : Params) : Exec Json := do
  let name ← required ctx "name"
  ensure (validConfigName name) (invalid "name" "must be 1-64 chars of [A-Za-z0-9 ._-]")
  let caConfig ← required ctx "caConfig"
  ensure (validCaConfig caConfig)
    (invalid "caConfig" "must be a 'host\\CA Common Name' config string")
  let caCertPath ← required ctx "caCertPath"
  ensure (validWindowsPath caCertPath) (invalid "caCertPath" "must be an absolute Windows path")
  let template := (param ctx "template").getD "OCSPResponseSigning"
  ensure (validTemplate template) (invalid "template" "must be a template CN name")
  let refreshMinutes := (param ctx "refreshMinutes").getD "15"
  ensure (validRefresh refreshMinutes) (invalid "refreshMinutes" "must be an integer in 1-1440")
  let baseCrlUrls ← required ctx "baseCrlUrls"
  ensure (validUrlList baseCrlUrls)
    (invalid "baseCrlUrls" "must be a comma-separated list of http(s) URLs")
  let deltaCrlUrls := (param ctx "deltaCrlUrls").getD ""
  ensure (deltaCrlUrls.isEmpty || validUrlList deltaCrlUrls)
    (invalid "deltaCrlUrls" "must be a comma-separated list of http(s) URLs")
  perform (stage
    ⟨name, caConfig, caCertPath, template, refreshMinutes, baseCrlUrls, deltaCrlUrls⟩)

def handler : CommandHandler := ⟨"ocsp.configure_revocation", .vmProvision, execute⟩

/-- What the checks establish about a configuration read from `ctx`. -/
structure Config.Checked (ctx : Params) (c : Config) : Prop where
  name_eq : param ctx "name" = some c.name
  caConfig_eq : param ctx "caConfig" = some c.caConfig
  caCertPath_eq : param ctx "caCertPath" = some c.caCertPath
  template_eq : c.template = (param ctx "template").getD "OCSPResponseSigning"
  refreshMinutes_eq : c.refreshMinutes = (param ctx "refreshMinutes").getD "15"
  baseCrlUrls_eq : param ctx "baseCrlUrls" = some c.baseCrlUrls
  deltaCrlUrls_eq : c.deltaCrlUrls = (param ctx "deltaCrlUrls").getD ""
  name_ok : validConfigName c.name = true
  caConfig_ok : validCaConfig c.caConfig = true
  caCertPath_ok : validWindowsPath c.caCertPath = true
  template_ok : validTemplate c.template = true
  refreshMinutes_ok : validRefresh c.refreshMinutes = true
  baseCrlUrls_ok : validUrlList c.baseCrlUrls = true
  deltaCrlUrls_ok : (c.deltaCrlUrls.isEmpty || validUrlList c.deltaCrlUrls) = true

theorem staged (ctx : Params) :
    Staged (fun s => ∃ c : Config, c.Checked ctx ∧ s = stage c) (execute ctx) := by
  refine .required fun name hn => .ensure rfl fun hnv => ?_
  refine .required fun caConfig hc => .ensure rfl fun hcv => ?_
  refine .required fun caCertPath hp => .ensure rfl fun hpv => ?_
  refine .ensure rfl fun ht => .ensure rfl fun hr => ?_
  refine .required fun baseCrlUrls hb => .ensure rfl fun hbv => .ensure rfl fun hd => ?_
  refine .perform (s := stage ⟨name, caConfig, caCertPath,
    (param ctx "template").getD "OCSPResponseSigning", (param ctx "refreshMinutes").getD "15",
    baseCrlUrls, (param ctx "deltaCrlUrls").getD ""⟩) ⟨_, ?_, rfl⟩
  exact ⟨hn, hc, hp, rfl, rfl, hb, rfl, hnv, hcv, hpv, ht, hr, hbv, hd⟩

end OcspConfigureRevocation

namespace OcspVerify

def script : String :=
  "$ErrorActionPreference = 'Stop'; $ocsp = New-Object -ComObject CertAdm.OCSPAdmin; " ++
  "$ocsp.GetConfiguration($env:COMPUTERNAME, $true); $configs = " ++
  "@($ocsp.OCSPCAConfigurationCollection | ForEach-Object \x7b @\x7b identifier = $_.Identifier; " ++
  "caConfig = $_.CAConfig; template = $_.SigningCertificateTemplate; " ++
  "hashAlgorithm = $_.HashAlgorithm; errorCode = [int]$_.ErrorCode; " ++
  "signingCertificate = [bool]$_.SigningCertificate \x7d \x7d); @\x7b configurations = $configs " ++
  "\x7d | ConvertTo-Json -Depth 4"

def stage (host : Host) : Stage :=
  .plain "verifying responder" 50 script [] fun output =>
    let configurations := (parseJson host output.stdout).get "configurations"
    .obj [("configured", .bool (configurations.asArray.any (!·.isEmpty))),
      ("configurations", configurations), ("raw", .str output.stdout)]

def execute (host : Host) (_ : Params) : Exec Json := perform (stage host)

def handler (host : Host) : CommandHandler := ⟨"ocsp.verify", .vmRead, execute host⟩

theorem staged (host : Host) (ctx : Params) : Staged (· = stage host) (execute host ctx) :=
  .perform rfl

end OcspVerify

end PkiExecutor
