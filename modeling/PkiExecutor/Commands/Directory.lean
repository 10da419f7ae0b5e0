/-
# `PkiExecutor.Commands.Directory` — domain controllers, membership, template access

`dc.install_forest`, `dc.verify`, `domain.join`, `domain.verify` and
`template.grant_access` (`commands/dc.rs`, `domain.rs`, `template.rs`).  Three of
them take a password; it stands in one slot of the arguments and nowhere else.
-/
import PkiExecutor.Commands.Util

namespace PkiExecutor

/-- A DNS name with a dot in it. -/
def validDomainName (domain : String) : Bool := validDnsName domain && Str.containsChar domain '.'

namespace DcInstallForest

/-- The functional levels of a new forest. -/
def forestModes : List String := ["Default", "WinThreshold", "Win2025"]

def validNetbios (netbios : String) : Bool := validChars 1 15 "-" netbios

def script : String :=
  "param([string]$DomainName,[string]$Netbios,[string]$ForestMode,[string]$SafeModePassword) " ++
  "$ErrorActionPreference = 'Stop'; Install-WindowsFeature AD-Domain-Services " ++
  "-IncludeManagementTools | Out-Null; $secure = ConvertTo-SecureString $SafeModePassword " ++
  "-AsPlainText -Force; Import-Module ADDSDeployment; Install-ADDSForest -DomainName $DomainName " ++
  "-DomainNetbiosName $Netbios -ForestMode $ForestMode -DomainMode $ForestMode -InstallDns " ++
  "-SafeModeAdministratorPassword $secure -NoRebootOnCompletion -Force | Out-Null"

def stage (domain netbios forestMode dsrmPassword : String) : Stage :=
  .plain "installing AD DS forest" 10 script [domain, netbios, forestMode, dsrmPassword] fun _ =>
    .obj [("domain", .str domain), ("netbios", .str netbios), ("forest_mode", .str forestMode),
      ("reboot_required", .bool true)]

def execute (ctx : Params) : Exec Json := do
  let domain ← required ctx "domainName"
  ensure (validDomainName domain) (invalid "domainName" "must be a dotted DNS domain name")
  let netbios ← required ctx "netbiosName"
  ensure (validNetbios netbios) (invalid "netbiosName" "must be 1-15 chars of [A-Za-z0-9-]")
  let forestMode := (param ctx "forestMode").getD "WinThreshold"
  ensure (forestModes.contains forestMode)
    (invalid "forestMode" "must be 'Default', 'WinThreshold' or 'Win2025'")
  let dsrmPassword ← required ctx "safeModePassword"
  ensure (validSecret dsrmPassword)
    (invalid "safeModePassword" "must be non-empty and not begin with '-'")
  perform (stage domain netbios forestMode dsrmPassword)

def handler : CommandHandler := ⟨"dc.install_forest", .vmProvision, execute⟩

theorem staged (ctx : Params) :
    Staged (fun s => ∃ domain netbios forestMode dsrmPassword,
      param ctx "domainName" = some domain ∧ param ctx "netbiosName" = some netbios ∧
      param ctx "safeModePassword" = some dsrmPassword ∧ validDomainName domain = true ∧
      validNetbios netbios = true ∧ forestModes.contains forestMode = true ∧
      validSecret dsrmPassword = true ∧ s = stage domain netbios forestMode dsrmPassword)
      (execute ctx) := by
  refine .required fun domain hd => .ensure rfl fun hdv => ?_
  refine .required fun netbios hn => .ensure rfl fun hnv => .ensure rfl fun hf => ?_
  refine .required fun dsrmPassword hp => .ensure rfl fun hpv => ?_
  exact .perform ⟨domain, netbios, _, dsrmPassword, hd, hn, hp, hdv, hnv, hf, hpv, rfl⟩

end DcInstallForest

namespace DcVerify

def script : String :=
  "$ErrorActionPreference = 'Stop'; Import-Module ActiveDirectory; Get-ADDomain -Server " ++
  "$env:COMPUTERNAME | Select-Object DNSRoot, NetBIOSName, DomainMode | ConvertTo-Json"

def stage (host : Host) : Stage :=
  .plain "verifying directory" 50 script [] fun output =>
    .obj [("domain", parseJson host output.stdout), ("raw", .str output.stdout)]

def execute (host : Host) (_ : Params) : Exec Json := perform (stage host)

def handler (host : Host) : CommandHandler := ⟨"dc.verify", .vmRead, execute host⟩

theorem staged (host : Host) (ctx : Params) : Staged (· = stage host) (execute host ctx) :=
  .perform rfl

end DcVerify

namespace DomainJoin

def script : String :=
  "param([string]$DomainName,[string]$Username,[string]$Password) $ErrorActionPreference = " ++
  "'Stop'; $secure = ConvertTo-SecureString $Password -AsPlainText -Force; " ++
  "$cred = New-Object System.Management.Automation.PSCredential($Username, $secure); " ++
  "Add-Computer -DomainName $DomainName -Credential $cred"

def stage (domain username password : String) : Stage :=
  .plain "joining domain" 20 script [domain, username, password] fun _ =>
    .obj [("domain", .str domain), ("reboot_required", .bool true)]

def execute (ctx : Params) : Exec Json := do
  let domain ← required ctx "domainName"
  ensure (validDomainName domain) (invalid "domainName" "must be a dotted DNS domain name")
  let username ← required ctx "username"
  ensure (validUsername username)
    (invalid "username" "must be a plain, domain\\user or user@domain account name")
  let password ← required ctx "password"
  ensure (validSecret password) (invalid "password" "must be non-empty and not begin with '-'")
  perform (stage domain username password)

def handler : CommandHandler := ⟨"domain.join", .vmProvision, execute⟩

theorem staged (ctx : Params) :
    Staged (fun s => ∃ domain username password, param ctx "domainName" = some domain ∧
      param ctx "username" = some username ∧ param ctx "password" = some password ∧
      validDomainName domain = true ∧ validUsername username = true ∧
      validSecret password = true ∧ s = stage domain username password) (execute ctx) := by
  refine .required fun domain hd => .ensure rfl fun hdv => ?_
  refine .required fun username hu => .ensure rfl fun huv => ?_
  refine .required fun password hp => .ensure rfl fun hpv => ?_
  exact .perform ⟨domain, username, password, hd, hu, hp, hdv, huv, hpv, rfl⟩

end DomainJoin

namespace DomainVerify

def script : String :=
  "$ErrorActionPreference = 'Stop'; Get-CimInstance Win32_ComputerSystem | Select-Object " ++
  "PartOfDomain, Domain, DNSHostName | ConvertTo-Json"

def stage (host : Host) : Stage :=
  .plain "verifying membership" 50 script [] fun output =>
    let system := parseJson host output.stdout
    .obj [("part_of_domain", .bool (system.get "PartOfDomain").isTrue),
      ("domain", system.get "Domain"), ("raw", .str output.stdout)]

def execute (host : Host) (_ : Params) : Exec Json := perform (stage host)

def handler (host : Host) : CommandHandler := ⟨"domain.verify", .vmRead, execute host⟩

theorem staged (host : Host) (ctx : Params) : Staged (· = stage host) (execute host ctx) :=
  .perform rfl

end DomainVerify

namespace TemplateGrantAccess

/-- The AD extended right for certificate enrollment. -/
def enrollRightGuid : String := "0e10c968-78fb-11d2-90d4-00c04f79dc55"

def validTemplateCn (value : String) : Bool := validChars 1 64 "._-" value

/-- A NetBIOS name, without the dollar sign of the account. -/
def validComputerName (value : String) : Bool := validChars 1 15 "-" value

def grantAccessScript : String :=
  "param([string]$Template,[string]$Computer,[string]$EnrollGuid,[string]$Username,[string]$Password) " ++
  "$ErrorActionPreference = 'Stop'; Import-Module ActiveDirectory; $rootDse = Get-ADRootDSE; " ++
  "$dn = \"CN=$Template,CN=Certificate Templates,CN=Public Key " ++
  "Services,CN=Services,$($rootDse.configurationNamingContext)\"; $account = Get-ADComputer " ++
  "-Identity $Computer; $sid = [System.Security.Principal.SecurityIdentifier]$account.SID; " ++
  "$entry = New-Object System.DirectoryServices.DirectoryEntry(\"LDAP://$dn\", $Username, " ++
  "$Password); $acl = $entry.ObjectSecurity; $read = New-Object " ++
  "System.DirectoryServices.ActiveDirectoryAccessRule($sid, " ++
  "[System.DirectoryServices.ActiveDirectoryRights]::GenericRead, " ++
  "[System.Security.AccessControl.AccessControlType]::Allow); $enroll = New-Object " ++
  "System.DirectoryServices.ActiveDirectoryAccessRule($sid, " ++
  "[System.DirectoryServices.ActiveDirectoryRights]::ExtendedRight, " ++
  "[System.Security.AccessControl.AccessControlType]::Allow, [Guid]$EnrollGuid); " ++
  "$acl.AddAccessRule($read); $acl.AddAccessRule($enroll); $entry.ObjectSecurity = $acl; " ++
  "$entry.CommitChanges(); $entry.RefreshCache(); ConvertTo-Json @($entry.ObjectSecurity.Access | " ++
  "Where-Object \x7b $_.IdentityReference.Value -match ('\\\\' + [regex]::Escape($Computer) + " ++
  "'\\$$') \x7d | Select-Object @\x7bn='identity';e=\x7b$_.IdentityReference.Value\x7d\x7d, " ++
  "@\x7bn='rights';e=\x7b$_.ActiveDirectoryRights.ToString()\x7d\x7d, " ++
  "@\x7bn='objectType';e=\x7b$_.ObjectType.ToString()\x7d\x7d)"

def stage (host : Host) (template computer username password : String) : Stage :=
  .plain "granting template access" 30 grantAccessScript
    [template, computer, enrollRightGuid, username, password] fun output =>
      .obj [("template", .str template), ("computer", .str computer),
        ("access", parseJson host output.stdout), ("raw", .str output.stdout)]

def execute (host : Host) (ctx : Params) : Exec Json := do
  let template ← required ctx "template"
  ensure (validTemplateCn template)
    (invalid "template" "must be a template CN of [A-Za-z0-9._-], max 64 chars")
  let computer ← required ctx "computer"
  ensure (validComputerName computer)
    (invalid "computer" "must be a computer name of [A-Za-z0-9-], max 15 chars")
  let username ← required ctx "username"
  ensure (validUsername username)
    (invalid "username" "must be a plain, domain\\user or user@domain account name")
  let password ← required ctx "password"
  ensure (validSecret password) (invalid "password" "must be non-empty and not begin with '-'")
  perform (stage host template computer username password)

def handler (host : Host) : CommandHandler := ⟨"template.grant_access", .vmProvision, execute host⟩

theorem staged (host : Host) (ctx : Params) :
    Staged (fun s => ∃ template computer username password,
      param ctx "template" = some template ∧ param ctx "computer" = some computer ∧
      param ctx "username" = some username ∧ param ctx "password" = some password ∧
      validTemplateCn template = true ∧ validComputerName computer = true ∧
      validUsername username = true ∧ validSecret password = true ∧
      s = stage host template computer username password) (execute host ctx) := by
  refine .required fun template ht => .ensure rfl fun htv => ?_
  refine .required fun computer hc => .ensure rfl fun hcv => ?_
  refine .required fun username hu => .ensure rfl fun huv => ?_
  refine .required fun password hp => .ensure rfl fun hpv => ?_
  exact .perform ⟨template, computer, username, password, ht, hc, hu, hp, htv, hcv, huv, hpv, rfl⟩

end TemplateGrantAccess

end PkiExecutor
