/-
# `PkiExecutor.Commands.Ca` — provisioning a certificate authority

`ca.install` for either tier, the settings and publication arrays written after
it, the CRL publication, the two halves of the cross-signing handshake, template
publication and the health probe (`commands/ca.rs`).
-/
import PkiExecutor.Commands.Util

namespace PkiExecutor

/-! ## `ca.install` -/

namespace CaInstall

def caTypes : List String := ["Root", "Issuing"]

def keyAlgorithms : List String := ["RSA", "ECDSA", "ML-DSA-87"]

def keyLengths : List String := ["2048", "4096"]

def hashAlgorithms : List String := ["SHA256", "SHA384", "SHA512"]

def mldsaProvider : String := "ML-DSA:87#Microsoft Software Key Storage Provider"

def mldsaKeyLengthBits : String := "20736"

/-- The key storage provider for an algorithm. -/
def cngProvider (algorithm : String) : String :=
  match algorithm with
  | "ECDSA" => "ECDSA_P384#Microsoft Software Key Storage Provider"
  | "ML-DSA-87" => mldsaProvider
  | _ => "RSA#Microsoft Software Key Storage Provider"

/-- Letters, digits, blanks and `._-`, up to 64 of them. -/
def validCommonName (value : String) : Bool := validChars 1 64 " ._-" value

/-- An integer in 1 to 50. -/
def validYears (years : String) : Bool :=
  match Str.parseU32 years with
  | some y => decide (1 ≤ y ∧ y ≤ 50)
  | none => false

/-- A URL of either scheme, or nothing; what comes behind the scheme is not looked at. -/
def validCpsUrl (cpsUrl : String) : Bool :=
  cpsUrl.isEmpty || Str.startsWith cpsUrl "http://" || Str.startsWith cpsUrl "https://"

/-- Two or more numbers between dots. -/
def validCpsOid (cpsOid : String) : Bool :=
  decide (2 ≤ (Str.split cpsOid '.').length)
    && (Str.split cpsOid '.').all fun part => !part.isEmpty && Str.all part Char.isDigit

/-- The key and the hash that a CA is installed with. -/
structure CryptoParams where
  algorithm : String
  provider : String
  keyLength : Option String
  hashAlgorithm : Option String

/-- The parameters of the key, with their defaults: an ML-DSA key has its own provider. -/
def cryptoParams (ctx : Params) : Exec CryptoParams := do
  let algorithm := (param ctx "keyAlgorithm").getD "RSA"
  ensure (keyAlgorithms.contains algorithm)
    (invalid "keyAlgorithm" "must be 'RSA', 'ECDSA' or 'ML-DSA-87'")
  -- ML-DSA-87 has one length and hashes internally; ECDSA has no length
  let keyLength ← (if algorithm = "ML-DSA-87" then pure (some mldsaKeyLengthBits)
    else if algorithm = "RSA" then do
      let kl := (param ctx "keyLength").getD "4096"
      ensure (keyLengths.contains kl) (invalid "keyLength" "must be '2048' or '4096'")
      pure (some kl)
    else pure none)
  let hashAlgorithm ← (if algorithm = "ML-DSA-87" then pure (some "NoHash") else do
    let ha := (param ctx "hashAlgorithm").getD "SHA256"
    ensure (hashAlgorithms.contains ha)
      (invalid "hashAlgorithm" "must be 'SHA256', 'SHA384' or 'SHA512'")
    pure (some ha))
  pure ⟨algorithm, cngProvider algorithm, keyLength, hashAlgorithm⟩

/-- What the checks establish about the cryptography parameters. -/
structure CryptoParams.Valid (c : CryptoParams) : Prop where
  algorithm_ok : c.algorithm ∈ keyAlgorithms
  provider_eq : c.provider = cngProvider c.algorithm
  keyLength_ok : ∀ kl, c.keyLength = some kl → kl ∈ mldsaKeyLengthBits :: keyLengths
  hashAlgorithm_ok : ∀ ha, c.hashAlgorithm = some ha → ha ∈ "NoHash" :: hashAlgorithms

theorem cryptoParams_checks (ctx : Params) : Checks CryptoParams.Valid (cryptoParams ctx) := by
  refine (Checks.ensure rfl).bind fun _ ha => ?_
  refine Checks.bind (Φ := fun keyLength : Option String =>
    ∀ kl, keyLength = some kl → kl ∈ mldsaKeyLengthBits :: keyLengths)
    (.ite (fun _ => .ok ?_) fun _ => .ite (fun _ => (Checks.ensure rfl).bind fun _ hk => .ok ?_)
      fun _ => .ok ?_) fun keyLength hk => ?_
  · rintro kl ⟨⟩; exact List.mem_cons_self
  · rintro kl ⟨⟩; exact List.mem_cons_of_mem _ (List.contains_iff_mem.mp hk)
  · rintro kl ⟨⟩
  refine Checks.bind (Φ := fun hashAlgorithm : Option String =>
    ∀ h, hashAlgorithm = some h → h ∈ "NoHash" :: hashAlgorithms)
    (.ite (fun _ => .ok ?_) fun _ => (Checks.ensure rfl).bind fun _ hh => .ok ?_) fun _ hh => ?_
  · rintro h ⟨⟩; exact List.mem_cons_self
  · rintro h ⟨⟩; exact List.mem_cons_of_mem _ (List.contains_iff_mem.mp hh)
  · exact .ok ⟨List.contains_iff_mem.mp ha, rfl, hk, hh⟩

def rootScript : String :=
  "param([string]$CommonName,[string]$Provider,[string]$KeyLength,[string]$HashAlgorithm,[string]$ValidityYears) " ++
  "$ErrorActionPreference = 'Stop'; $capolicy = @( '[Version]', 'Signature=\"$Windows NT$\"', '', " ++
  "'[Certsrv_Server]', 'RenewalKeyLength=2048', 'RenewalValidityPeriod=Years', " ++
  "\"RenewalValidityPeriodUnits=$ValidityYears\", 'AlternateSignatureAlgorithm=0' ) -join " ++
  "\"`r`n\"; Set-Content -Path (Join-Path $env:SystemRoot 'CAPolicy.inf') -Value $capolicy " ++
  "-Encoding ASCII; Install-WindowsFeature ADCS-Cert-Authority -IncludeManagementTools | " ++
  "Out-Null; Import-Module ADCSDeployment; $caParams = @\x7b CAType = 'StandaloneRootCA'; " ++
  "CACommonName = $CommonName; CryptoProviderName = $Provider; ValidityPeriod = 'Years'; " ++
  "ValidityPeriodUnits = [int]$ValidityYears; Force = $true \x7d; if ($KeyLength) \x7b " ++
  "$caParams['KeyLength'] = [int]$KeyLength \x7d; if ($HashAlgorithm) \x7b " ++
  "$caParams['HashAlgorithmName'] = $HashAlgorithm \x7d; Install-AdcsCertificationAuthority " ++
  "@caParams | Out-Null"

/-- The root is given no name of a request and no credential. -/
def rootStage (commonName : String) (crypto : CryptoParams) (years : String) : Stage :=
  .plain "installing root CA" 20 rootScript
    [commonName, crypto.provider, crypto.keyLength.getD "", crypto.hashAlgorithm.getD "", years]
    fun _ =>
      .obj [("caType", .str "StandaloneRootCA"), ("commonName", .str commonName),
        ("keyAlgorithm", .str crypto.algorithm), ("keyLength", .ofOption crypto.keyLength),
        ("hashAlgorithm", .ofOption crypto.hashAlgorithm), ("validityYears", .str years)]

def executeRoot (commonName : String) (crypto : CryptoParams) (years : String) : Exec Json :=
  perform (rootStage commonName crypto years)

def issuingScript : String :=
  "param([string]$CommonName,[string]$Provider,[string]$KeyLength,[string]$HashAlgorithm,[string]$ValidityYears,[string]$CpsOid,[string]$CpsUrl,[string]$CsrPath,[string]$Username,[string]$Password) " ++
  "$ErrorActionPreference = 'Stop'; $lines = @('[Version]', 'Signature=\"$Windows NT$\"'); " ++
  "if ($CpsUrl) \x7b $lines += @('[PolicyStatementExtension]', 'Policies=InternalPolicy', " ++
  "'[InternalPolicy]', \"OID=$CpsOid\", \"URL=$CpsUrl\") \x7d; $lines += @( '[Certsrv_Server]', " ++
  "'RenewalKeyLength=2048', 'RenewalValidityPeriod=Years', " ++
  "\"RenewalValidityPeriodUnits=$ValidityYears\", 'LoadDefaultTemplates=0', " ++
  "'AlternateSignatureAlgorithm=0' ); Set-Content -Path (Join-Path $env:SystemRoot " ++
  "'CAPolicy.inf') -Value ($lines -join \"`r`n\") -Encoding ASCII; Install-WindowsFeature " ++
  "ADCS-Cert-Authority, ADCS-Web-Enrollment -IncludeManagementTools | Out-Null; " ++
  "Import-Module ADCSDeployment; New-Item -ItemType Directory -Force -Path (Split-Path $CsrPath) " ++
  "| Out-Null; $secure = ConvertTo-SecureString $Password -AsPlainText -Force; " ++
  "$cred = New-Object System.Management.Automation.PSCredential($Username, $secure); " ++
  "$caParams = @\x7b CAType = 'EnterpriseSubordinateCA'; CACommonName = $CommonName; " ++
  "CryptoProviderName = $Provider; OutputCertRequestFile = $CsrPath; " ++
  "Credential = $cred; Force = $true \x7d; if ($KeyLength) \x7b $caParams['KeyLength'] = " ++
  "[int]$KeyLength \x7d; if ($HashAlgorithm) \x7b $caParams['HashAlgorithmName'] = $HashAlgorithm " ++
  "\x7d; $res = Install-AdcsCertificationAuthority @caParams -WarningAction SilentlyContinue; " ++
  "if ($res.ErrorString -and $res.ErrorString -notmatch 'incomplete') \x7b throw $res.ErrorString " ++
  "\x7d; $CsrPath"

/-- What the issuing tier takes beyond the parameters of both tiers. -/
structure Issuing where
  cpsOid : String
  cpsUrl : String
  csrPath : String
  username : String

/-- The issuing CA leaves a request, and is installed with the operator's credential. -/
def issuingStage (commonName : String) (crypto : CryptoParams) (years : String) (i : Issuing)
    (password : String) : Stage :=
  .plain "installing issuing CA" 20 issuingScript
    [commonName, crypto.provider, crypto.keyLength.getD "", crypto.hashAlgorithm.getD "", years,
      i.cpsOid, i.cpsUrl, i.csrPath, i.username, password] fun _ =>
      .obj [("caType", .str "EnterpriseSubordinateCA"), ("commonName", .str commonName),
        ("keyAlgorithm", .str crypto.algorithm), ("keyLength", .ofOption crypto.keyLength),
        ("hashAlgorithm", .ofOption crypto.hashAlgorithm), ("csr_path", .str i.csrPath),
        ("cpsUrl", .nullIfEmpty i.cpsUrl)]

def executeIssuing (ctx : Params) (commonName : String) (crypto : CryptoParams) (years : String) :
    Exec Json := do
  let cpsUrl := (param ctx "cpsUrl").getD ""
  ensure (validCpsUrl cpsUrl) (invalid "cpsUrl" "must be an http(s) URL")
  let cpsOid := (param ctx "cpsOid").getD "1.2.3.4.1455.67.89.5"
  ensure (validCpsOid cpsOid) (invalid "cpsOid" "must be a dotted-decimal OID")
  let csrPath := (param ctx "csrPath").getD "C:\\Transfer\\IssuingCA.req"
  ensure (validWindowsPath csrPath) (invalid "csrPath" "must be an absolute Windows path")
  let username ← required ctx "username"
  ensure (validUsername username)
    (invalid "username" "must be a plain, domain\\user or user@domain account name")
  let password ← required ctx "password"
  ensure (validSecret password) (invalid "password" "must be non-empty and not begin with '-'")
  perform (issuingStage commonName crypto years ⟨cpsOid, cpsUrl, csrPath, username⟩ password)

/-- The lifetime when none is given. -/
def defaultYears (caType : String) : String := if caType = "Root" then "20" else "10"

def execute (ctx : Params) : Exec Json := do
  let caType := (param ctx "caType").getD "Root"
  ensure (caTypes.contains caType) (invalid "caType" "must be 'Root' or 'Issuing'")
  let commonName ← required ctx "commonName"
  ensure (validCommonName commonName)
    (invalid "commonName" "must be 1-64 chars of [A-Za-z0-9 ._-]")
  let crypto ← cryptoParams ctx
  let years := (param ctx "validityYears").getD (defaultYears caType)
  ensure (validYears years) (invalid "validityYears" "must be an integer in 1-50")
  if caType = "Issuing" then executeIssuing ctx commonName crypto years
  else executeRoot commonName crypto years

def handler : CommandHandler := ⟨"ca.install", .vmProvision, execute⟩

/-- Its values have passed their checks. -/
structure Issuing.Valid (i : Issuing) : Prop where
  cpsOid_ok : validCpsOid i.cpsOid = true
  cpsUrl_ok : validCpsUrl i.cpsUrl = true
  csrPath_ok : validWindowsPath i.csrPath = true
  username_ok : validUsername i.username = true

/-- Where its values come from. -/
structure Issuing.Given (ctx : Params) (i : Issuing) : Prop where
  cpsOid_eq : i.cpsOid = (param ctx "cpsOid").getD "1.2.3.4.1455.67.89.5"
  cpsUrl_eq : i.cpsUrl = (param ctx "cpsUrl").getD ""
  csrPath_eq : i.csrPath = (param ctx "csrPath").getD "C:\\Transfer\\IssuingCA.req"
  username_eq : param ctx "username" = some i.username

/-- What both tiers establish about the parameters they share. -/
structure Accepted (ctx : Params) (commonName : String) (crypto : CryptoParams) (years : String) :
    Prop where
  caType_ok : caTypes.contains ((param ctx "caType").getD "Root") = true
  commonName_eq : param ctx "commonName" = some commonName
  commonName_ok : validCommonName commonName = true
  crypto_ok : crypto.Valid
  years_eq : years =
    (param ctx "validityYears").getD (defaultYears ((param ctx "caType").getD "Root"))
  years_ok : validYears years = true

theorem staged (ctx : Params) :
    Staged (fun s => ∃ commonName crypto years, Accepted ctx commonName crypto years ∧
      (((param ctx "caType").getD "Root" ≠ "Issuing" ∧ s = rootStage commonName crypto years) ∨
        ∃ i password, (param ctx "caType").getD "Root" = "Issuing" ∧ i.Valid ∧
          i.Given ctx ∧ param ctx "password" = some password ∧ validSecret password = true ∧
          s = issuingStage commonName crypto years i password)) (execute ctx) := by
  refine .ensure rfl fun ht => .required fun commonName hc => .ensure rfl fun hcv => ?_
  refine .check (cryptoParams_checks ctx) fun crypto hx => .ensure rfl fun hy => ?_
  have hacc : Accepted ctx commonName crypto
      ((param ctx "validityYears").getD (defaultYears ((param ctx "caType").getD "Root"))) :=
    ⟨ht, hc, hcv, hx, rfl, hy⟩
  by_cases hi : (param ctx "caType").getD "Root" = "Issuing"
  · rw [if_pos hi]
    refine .ensure rfl fun hu => .ensure rfl fun ho => .ensure rfl fun hp => ?_
    refine .required fun username hn => .ensure rfl fun hnv => ?_
    refine .required fun password hs => .ensure rfl fun hsv => ?_
    refine .perform ⟨commonName, crypto, _, hacc, .inr ⟨⟨(param ctx "cpsOid").getD
      "1.2.3.4.1455.67.89.5", (param ctx "cpsUrl").getD "", (param ctx "csrPath").getD
      "C:\\Transfer\\IssuingCA.req", username⟩, password, hi, ?_, ?_, hs, hsv, rfl⟩⟩
    · exact ⟨ho, hu, hp, hnv⟩
    · exact ⟨rfl, rfl, rfl, hn⟩
  · rw [if_neg hi]
    exact .perform ⟨commonName, crypto, _, hacc, .inl ⟨hi, rfl⟩⟩

end CaInstall

/-! ## After the installation -/

namespace CaConfigureSettings

/-- The units of time that the registry values take. -/
def periods : List String := ["Hours", "Days", "Weeks", "Months", "Years"]

def script : String :=
  "param([string]$DsConfigDn,[string]$CrlPeriodUnits,[string]$CrlPeriod,[string]$CrlDeltaPeriodUnits,[string]$CrlDeltaPeriod,[string]$CrlOverlapUnits,[string]$CrlOverlapPeriod,[string]$ValidityPeriodUnits,[string]$ValidityPeriod,[string]$AuditFilter) " ++
  "$ErrorActionPreference = 'Stop'; function Set-CaReg([string]$Key,[string]$Value) \x7b certutil " ++
  "-setreg $Key $Value | Out-Null; if ($LASTEXITCODE -ne 0) \x7b throw \"certutil -setreg $Key " ++
  "failed\" \x7d \x7d; if ($DsConfigDn) \x7b Set-CaReg 'CA\\DSConfigDN' $DsConfigDn \x7d; " ++
  "if ($CrlPeriodUnits) \x7b Set-CaReg 'CA\\CRLPeriodUnits' $CrlPeriodUnits \x7d; " ++
  "if ($CrlPeriod) \x7b Set-CaReg 'CA\\CRLPeriod' $CrlPeriod \x7d; if ($CrlDeltaPeriodUnits) \x7b " ++
  "Set-CaReg 'CA\\CRLDeltaPeriodUnits' $CrlDeltaPeriodUnits \x7d; if ($CrlDeltaPeriod) \x7b " ++
  "Set-CaReg 'CA\\CRLDeltaPeriod' $CrlDeltaPeriod \x7d; if ($CrlOverlapUnits) \x7b Set-CaReg " ++
  "'CA\\CRLOverlapPeriodUnits' $CrlOverlapUnits \x7d; if ($CrlOverlapPeriod) \x7b Set-CaReg " ++
  "'CA\\CRLOverlapPeriod' $CrlOverlapPeriod \x7d; if ($ValidityPeriodUnits) \x7b Set-CaReg " ++
  "'CA\\ValidityPeriodUnits' $ValidityPeriodUnits \x7d; if ($ValidityPeriod) \x7b Set-CaReg " ++
  "'CA\\ValidityPeriod' $ValidityPeriod \x7d; if ($AuditFilter) \x7b Set-CaReg 'CA\\AuditFilter' " ++
  "$AuditFilter; auditpol /set /category:'Object Access' /success:enable /failure:enable | " ++
  "Out-Null \x7d; Restart-Service certsvc"

/-- One setting: its key, the check on a value that is not empty, and what a
value that fails it is told. -/
structure Setting where
  key : String
  ok : String → Bool
  reason : String

/-- A distinguished name of the configuration partition. -/
def dsConfigDn : Setting where
  key := "dsConfigDn"
  ok v := Str.startsWith v "CN=Configuration,DC=" && decide (Str.len v ≤ 200)
    && Str.all v fun c => c.isAlphanum || Str.containsChar "=,.-" c
  reason := "must be a CN=Configuration,DC=... distinguished name"

/-- A setting that is a number. -/
def unitOf (key : String) (max : Nat) : Setting where
  key := key
  ok v := match Str.parseU32 v with
    | some n => decide (n ≤ max)
    | none => false
  reason := "must be an integer in 0-" ++ toString max

/-- A setting that is a unit of time. -/
def periodOf (key : String) : Setting where
  key := key
  ok v := periods.contains v
  reason := "must be 'Hours', 'Days', 'Weeks', 'Months' or 'Years'"

/-- The value of a setting, empty where it is absent. -/
def valueOf (ctx : Params) (s : Setting) : String := (param ctx s.key).getD ""

/-- The check of one setting; an empty value passes. -/
def read (ctx : Params) (s : Setting) : Exec Unit :=
  ensure ((valueOf ctx s).isEmpty || s.ok (valueOf ctx s)) (invalid s.key s.reason)

/-- The settings in the order they are read, which is the order of `applied`. -/
def settings : List Setting :=
  [dsConfigDn, unitOf "crlPeriodUnits" 9999, unitOf "crlDeltaPeriodUnits" 9999,
    unitOf "crlOverlapUnits" 9999, unitOf "validityPeriodUnits" 9999, unitOf "auditFilter" 127,
    periodOf "crlPeriod", periodOf "crlDeltaPeriod", periodOf "crlOverlapPeriod",
    periodOf "validityPeriod"]

/-- The keys in the order of the script's parameters. -/
def argKeys : List String :=
  ["dsConfigDn", "crlPeriodUnits", "crlPeriod", "crlDeltaPeriodUnits", "crlDeltaPeriod",
    "crlOverlapUnits", "crlOverlapPeriod", "validityPeriodUnits", "validityPeriod", "auditFilter"]

/-- The settings that are present, with their values. -/
def applied (ctx : Params) : List (String × String) :=
  (settings.map fun s => (s.key, valueOf ctx s)).filter fun p => !p.2.isEmpty

def stage (ctx : Params) : Stage :=
  .plain "applying CA settings" 30 script (argKeys.map fun key => (param ctx key).getD "") fun _ =>
    .obj [("applied", .obj ((applied ctx).map fun p => (p.1, .str p.2)))]

def execute (ctx : Params) : Exec Json := do
  forEach (read ctx) settings
  ensure (!(applied ctx).isEmpty) (.missingParam "at least one CA setting")
  perform (stage ctx)

def handler : CommandHandler := ⟨"ca.configure_settings", .vmProvision, execute⟩

theorem staged (ctx : Params) :
    Staged (fun s => (∀ x ∈ settings, ((valueOf ctx x).isEmpty || x.ok (valueOf ctx x)) = true) ∧
      (!(applied ctx).isEmpty) = true ∧ s = stage ctx) (execute ctx) := by
  refine .check (.forEach (fun _ => .ensure rfl) _) fun _ hs => .ensure rfl fun ha => ?_
  exact .perform ⟨hs, ha, rfl⟩

end CaConfigureSettings

namespace CaConfigureCdpAia

def script : String :=
  "param([string]$AiaUrls,[string]$CdpUrls) $ErrorActionPreference = 'Stop'; " ++
  "if ($AiaUrls) \x7b certutil -setreg CA\\CACertPublicationURLs $AiaUrls | Out-Null; " ++
  "if ($LASTEXITCODE -ne 0) \x7b throw 'certutil -setreg CACertPublicationURLs failed' \x7d \x7d; " ++
  "if ($CdpUrls) \x7b certutil -setreg CA\\CRLPublicationURLs $CdpUrls | Out-Null; " ++
  "if ($LASTEXITCODE -ne 0) \x7b throw 'certutil -setreg CRLPublicationURLs failed' \x7d \x7d; " ++
  "klist -li 0x3e7 purge | Out-Null; Restart-Service certsvc"

/-- A number of publication flags. -/
def validFlags (flags : String) : Bool :=
  !flags.isEmpty && Str.all flags Char.isDigit
    && match Str.parseU32 flags with
      | some f => decide (f ≤ 1023)
      | none => false

/-- How a location may begin, a drive apart. -/
def anchors : List String := ["ldap:///", "http://", "https://", "file://", "\\\\"]

/-- The location is a path on a drive; `none` is a panic. -/
def onDrive? (location : String) : Option Bool :=
  if 3 < Str.len location then do
    let b1 ← Str.byteAt location 1
    if b1 ≠ 58 then return false
    let b2 ← Str.byteAt location 2
    if b2 ≠ 92 then return false
    let drive ← location.toList.head?
    return drive.isAlpha
  else some false

/-- The check with its index operations; `none` is a panic. -/
def publicationEntryOk? (entry : String) : Option Bool :=
  match Str.splitOnce entry ':' with
  | none => some false
  | some (flags, location) =>
      if !validFlags flags || location.isEmpty || decide (300 < Str.len location) then some false
      else do
        let anchored ← if anchors.any (Str.startsWith location) then some true
          else onDrive? location
        return anchored && !Str.any location (Str.containsChar "\"'`;$\n\r")

def validPublicationEntry (entry : String) : Bool := (publicationEntryOk? entry).getD false

/-- The non-empty trimmed lines. -/
def splitEntries (raw : String) : List String :=
  ((Str.split raw '\n').map Str.trim).filter (!·.isEmpty)

/-- An array of entries, the first bad one of which is named in the error. -/
def checkEntries (p : String × List String) : Exec Unit :=
  match p.2.find? (!validPublicationEntry ·) with
  | some bad =>
      .fail (invalid p.1 ("entry '" ++ bad ++ "' is not a flag-prefixed publication URL"))
  | none => pure ()

/-- The entries are joined by a backslash and an `n`, two characters. -/
def stage (aiaEntries cdpEntries : List String) : Stage :=
  .plain "configuring CDP/AIA" 40 script [Str.join "\\n" aiaEntries, Str.join "\\n" cdpEntries]
    fun _ => .obj [("aia_urls", .strings aiaEntries), ("cdp_urls", .strings cdpEntries)]

def execute (ctx : Params) : Exec Json := do
  let aiaEntries := splitEntries ((param ctx "aiaUrls").getD "")
  let cdpEntries := splitEntries ((param ctx "cdpUrls").getD "")
  ensure (!(aiaEntries.isEmpty && cdpEntries.isEmpty)) (.missingParam "aiaUrls or cdpUrls")
  forEach checkEntries [("aiaUrls", aiaEntries), ("cdpUrls", cdpEntries)]
  perform (stage aiaEntries cdpEntries)

def handler : CommandHandler := ⟨"ca.configure_cdp_aia", .vmProvision, execute⟩

theorem checkEntries_checks (p : String × List String) :
    Checks (fun _ => ∀ e ∈ p.2, validPublicationEntry e = true) (checkEntries p) := by
  unfold checkEntries
  cases hf : p.2.find? (!validPublicationEntry ·) with
  | some bad => exact .rejected rfl
  | none => exact .ok fun e he => by simpa using List.find?_eq_none.mp hf e he

theorem staged (ctx : Params) :
    Staged (fun s => ∃ aiaEntries cdpEntries,
      aiaEntries = splitEntries ((param ctx "aiaUrls").getD "") ∧
      cdpEntries = splitEntries ((param ctx "cdpUrls").getD "") ∧
      (∀ e ∈ aiaEntries, validPublicationEntry e = true) ∧
      (∀ e ∈ cdpEntries, validPublicationEntry e = true) ∧ s = stage aiaEntries cdpEntries)
      (execute ctx) := by
  refine .ensure rfl fun _ => .check (.forEach checkEntries_checks _) fun _ he => ?_
  simp only [List.forall_mem_cons, List.not_mem_nil, false_imp_iff, implies_true, and_true] at he
  exact .perform ⟨_, _, rfl, rfl, he.1, he.2, rfl⟩

end CaConfigureCdpAia

namespace CaPublishCrl

def script : String :=
  "param([string]$CertEnroll) $ErrorActionPreference = 'Stop'; $probeDir = Join-Path $env:TEMP " ++
  "('pki-executor-' + [guid]::NewGuid().ToString('N')); New-Item -ItemType Directory -Force -Path " ++
  "$probeDir | Out-Null; function Invoke-CertUtil([string[]]$Arguments) \x7b & certutil " ++
  "@Arguments 2>&1 | Out-Null; if ($LASTEXITCODE -ne 0) \x7b throw ('certutil ' + ($Arguments " ++
  "-join ' ') + ' failed') \x7d \x7d; function Find-Certificate([string]$ProbePath) \x7b " ++
  "$thumbprint = (Get-PfxCertificate -FilePath $ProbePath).Thumbprint; " ++
  "$match = Get-ChildItem -LiteralPath $certEnroll -File -Filter '*.crt' | Where-Object \x7b try " ++
  "\x7b (Get-PfxCertificate -FilePath $_.FullName).Thumbprint -eq $thumbprint \x7d catch \x7b " ++
  "$false \x7d \x7d | Select-Object -First 1; if (-not $match) \x7b throw 'current CA certificate " ++
  "is missing from CertEnroll' \x7d; $match.Name \x7d; function Find-Crl([string]$ProbePath) \x7b " ++
  "$hash = (Get-FileHash -LiteralPath $ProbePath -Algorithm SHA256).Hash; " ++
  "$match = Get-ChildItem -LiteralPath $certEnroll -File -Filter '*.crl' | Where-Object \x7b " ++
  "(Get-FileHash -LiteralPath $_.FullName -Algorithm SHA256).Hash -eq $hash \x7d | Select-Object " ++
  "-First 1; if (-not $match) \x7b throw 'current CRL is missing from CertEnroll' \x7d; " ++
  "$match.Name \x7d; try \x7b Invoke-CertUtil @('-crl'); $certificateProbe = Join-Path $probeDir " ++
  "'ca.crt'; $baseProbe = Join-Path $probeDir 'base.crl'; Invoke-CertUtil @('-f', '-ca.cert', " ++
  "$certificateProbe); Invoke-CertUtil @('-f', '-GetCRL', $baseProbe); " ++
  "$certificateFileName = Find-Certificate $certificateProbe; $baseCrlFileName = Find-Crl " ++
  "$baseProbe; $certificateContentB64 = " ++
  "[Convert]::ToBase64String([IO.File]::ReadAllBytes((Join-Path $certEnroll " ++
  "$certificateFileName))); $baseCrlContentB64 = " ++
  "[Convert]::ToBase64String([IO.File]::ReadAllBytes((Join-Path $certEnroll $baseCrlFileName))); " ++
  "$deltaCrlFileName = $null; $deltaCrlContentB64 = $null; $configurationKey = " ++
  "'HKLM:\\SYSTEM\\CurrentControlSet\\Services\\CertSvc\\Configuration'; " ++
  "$active = (Get-ItemProperty -LiteralPath $configurationKey).Active; " ++
  "$caKey = Join-Path $configurationKey $active; $deltaUnits = (Get-ItemProperty -LiteralPath " ++
  "$caKey -Name CRLDeltaPeriodUnits -ErrorAction SilentlyContinue).CRLDeltaPeriodUnits; " ++
  "if ([int]$deltaUnits -gt 0) \x7b $deltaProbe = Join-Path $probeDir 'delta.crl'; " ++
  "Invoke-CertUtil @('-f', '-GetCRL', $deltaProbe, '0', 'delta'); $deltaCrlFileName = Find-Crl " ++
  "$deltaProbe; $deltaCrlContentB64 = " ++
  "[Convert]::ToBase64String([IO.File]::ReadAllBytes((Join-Path $certEnroll $deltaCrlFileName))) " ++
  "\x7d; [pscustomobject]@\x7b certificateFileName = $certificateFileName; " ++
  "baseCrlFileName = $baseCrlFileName; deltaCrlFileName = $deltaCrlFileName; " ++
  "certificateContentB64 = $certificateContentB64; baseCrlContentB64 = $baseCrlContentB64; " ++
  "deltaCrlContentB64 = $deltaCrlContentB64 \x7d | ConvertTo-Json -Compress \x7d finally \x7b " ++
  "Remove-Item -LiteralPath $probeDir -Recurse -Force -ErrorAction SilentlyContinue \x7d"

def stage (host : Host) (certEnrollPath : String) : Stage :=
  .plain "publishing CRL" 50 script [certEnrollPath] fun output =>
    let observed := parseJson host output.stdout
    .obj [("published", .bool true), ("certificateFileName", observed.get "certificateFileName"),
      ("baseCrlFileName", observed.get "baseCrlFileName"),
      ("deltaCrlFileName", observed.get "deltaCrlFileName"),
      ("certificateContentB64", observed.get "certificateContentB64"),
      ("baseCrlContentB64", observed.get "baseCrlContentB64"),
      ("deltaCrlContentB64", observed.get "deltaCrlContentB64"), ("raw", .str output.stdout)]

def execute (host : Host) (ctx : Params) : Exec Json := do
  let certEnrollPath :=
    (param ctx "certEnrollPath").getD "C:\\Windows\\System32\\CertSrv\\CertEnroll"
  ensure (validWindowsPath certEnrollPath)
    (invalid "certEnrollPath" "must be an absolute Windows path")
  perform (stage host certEnrollPath)

def handler (host : Host) : CommandHandler := ⟨"ca.publish_crl", .vmProvision, execute host⟩

theorem staged (host : Host) (ctx : Params) :
    Staged (fun s => ∃ path, validWindowsPath path = true ∧ s = stage host path)
      (execute host ctx) := by
  refine .ensure rfl fun hp => ?_
  exact .perform ⟨_, hp, rfl⟩

end CaPublishCrl

/-! ## The cross-signing handshake -/

namespace CaSignRequest

def script : String :=
  "param([string]$CsrPath,[string]$CertPath) $ErrorActionPreference = 'Stop'; " ++
  "$active = (Get-ItemProperty " ++
  "'HKLM:\\SYSTEM\\CurrentControlSet\\Services\\CertSvc\\Configuration').Active; " ++
  "$config = \"$env:COMPUTERNAME\\$active\"; $submit = certreq -submit -config $config $CsrPath " ++
  "2>&1 | Out-String; if ($submit -notmatch 'RequestId:\\s*(\\d+)') \x7b throw \"certreq -submit " ++
  "did not return a RequestId: $submit\" \x7d; $requestId = $Matches[1]; " ++
  "certutil -resubmit $requestId | Out-Null; if ($LASTEXITCODE -ne 0) \x7b throw \"certutil " ++
  "-resubmit $requestId failed\" \x7d; New-Item -ItemType Directory -Force -Path (Split-Path " ++
  "$CertPath) | Out-Null; certreq -retrieve -config $config $requestId $CertPath | Out-Null; " ++
  "if ($LASTEXITCODE -ne 0) \x7b throw \"certreq -retrieve $requestId failed\" \x7d; " ++
  "$requestId"

/-- The result, once the run has yielded a numeric request id. -/
def readRequestId (certPath : String) (output : PowerShellOutput) : Except CommandError Json :=
  let requestId := Str.trim output.stdout
  if requestId.isEmpty || !Str.all requestId Char.isDigit then
    .error (invalid "csrPath" "signing did not yield a numeric RequestId")
  else .ok (.obj [("request_id", .str requestId), ("cert_path", .str certPath)])

def stage (csrPath certPath : String) : Stage :=
  ⟨"signing certificate request", 30, script, [csrPath, certPath], readRequestId certPath⟩

def execute (ctx : Params) : Exec Json := do
  let csrPath ← required ctx "csrPath"
  ensure (validWindowsPath csrPath) (invalid "csrPath" "must be an absolute Windows path")
  let certPath ← required ctx "certPath"
  ensure (validWindowsPath certPath) (invalid "certPath" "must be an absolute Windows path")
  perform (stage csrPath certPath)

def handler : CommandHandler := ⟨"ca.sign_request", .vmProvision, execute⟩

theorem staged (ctx : Params) :
    Staged (fun s => ∃ csrPath certPath, param ctx "csrPath" = some csrPath ∧
      param ctx "certPath" = some certPath ∧ validWindowsPath csrPath = true ∧
      validWindowsPath certPath = true ∧ s = stage csrPath certPath) (execute ctx) := by
  refine .required fun csrPath hc => .ensure rfl fun hcv => ?_
  refine .required fun certPath hp => .ensure rfl fun hpv => ?_
  exact .perform ⟨csrPath, certPath, hc, hp, hcv, hpv, rfl⟩

end CaSignRequest

namespace CaInstallCert

def installCertScript : String :=
  "param([string]$CertPath,[string]$Username,[string]$Password) $ErrorActionPreference = 'Stop'; " ++
  "$work = Join-Path $env:SystemRoot ('SystemTemp\\pki-installcert-' + " ++
  "[guid]::NewGuid().ToString('N')); New-Item -ItemType Directory -Force -Path $work | Out-Null; " ++
  "$log = Join-Path $work 'out.txt'; $task = 'PkiExecutor-InstallCert-' + " ++
  "[guid]::NewGuid().ToString('N'); try \x7b $action = New-ScheduledTaskAction -Execute 'cmd.exe' " ++
  "-Argument \"/c certutil -installcert `\"$CertPath`\" > `\"$log`\" 2>&1\"; " ++
  "Register-ScheduledTask -TaskName $task -Action $action -User $Username -Password $Password " ++
  "-RunLevel Highest | Out-Null; Start-ScheduledTask -TaskName $task; " ++
  "$deadline = (Get-Date).AddMinutes(4); do \x7b Start-Sleep -Seconds 2 \x7d while " ++
  "((Get-ScheduledTask -TaskName $task).State -eq 'Running' -and (Get-Date) -lt $deadline); " ++
  "$rc = (Get-ScheduledTaskInfo -TaskName $task).LastTaskResult; $out = if (Test-Path " ++
  "-LiteralPath $log) \x7b Get-Content -Raw -LiteralPath $log \x7d else \x7b '' \x7d; " ++
  "if ($rc -ne 0) \x7b throw \"certutil -installcert failed (0x$('\x7b0:x8\x7d' -f $rc)): $out\" " ++
  "\x7d; \x7d finally \x7b Unregister-ScheduledTask -TaskName $task -Confirm:$false -ErrorAction " ++
  "SilentlyContinue; Remove-Item -LiteralPath $work -Recurse -Force -ErrorAction " ++
  "SilentlyContinue; \x7d; Start-Service CertSvc; (Get-Service CertSvc).Status.ToString()"

def stage (certPath username password : String) : Stage :=
  .plain "installing CA certificate" 30 installCertScript [certPath, username, password]
    fun output =>
      .obj [("cert_path", .str certPath), ("service", .str (Str.trim output.stdout))]

def execute (ctx : Params) : Exec Json := do
  let certPath ← required ctx "certPath"
  ensure (validWindowsPath certPath) (invalid "certPath" "must be an absolute Windows path")
  let username ← required ctx "username"
  ensure (validUsername username)
    (invalid "username" "must be a plain, domain\\user or user@domain account name")
  let password ← required ctx "password"
  ensure (validSecret password) (invalid "password" "must be non-empty and not begin with '-'")
  perform (stage certPath username password)

def handler : CommandHandler := ⟨"ca.install_cert", .vmProvision, execute⟩

theorem staged (ctx : Params) :
    Staged (fun s => ∃ certPath username password, param ctx "certPath" = some certPath ∧
      param ctx "username" = some username ∧ param ctx "password" = some password ∧
      validWindowsPath certPath = true ∧ validUsername username = true ∧
      validSecret password = true ∧ s = stage certPath username password) (execute ctx) := by
  refine .required fun certPath hc => .ensure rfl fun hcv => ?_
  refine .required fun username hu => .ensure rfl fun huv => ?_
  refine .required fun password hp => .ensure rfl fun hpv => ?_
  exact .perform ⟨certPath, username, password, hc, hu, hp, hcv, huv, hpv, rfl⟩

end CaInstallCert

/-! ## Templates and health -/

namespace CaPublishTemplate

def script : String :=
  "param([string]$Templates) $ErrorActionPreference = 'Stop'; foreach ($t in ($Templates -split " ++
  "',')) \x7b try \x7b Add-CATemplate -Name $t.Trim() -Force \x7d catch \x7b if " ++
  "($_.Exception.Message -notmatch 'already') \x7b throw \x7d \x7d \x7d; " ++
  "(Get-CATemplate | Select-Object -ExpandProperty Name) -join ','"

/-- The non-empty trimmed pieces between commas. -/
def parseTemplates (raw : String) : List String :=
  ((Str.split raw ',').map Str.trim).filter (!·.isEmpty)

def stage (templates : List String) : Stage :=
  .plain "publishing templates" 30 script [Str.join "," templates] fun output =>
    .obj [("templates", .strings templates), ("on_ca", .str (Str.trim output.stdout))]

def execute (ctx : Params) : Exec Json := do
  let raw ← required ctx "templates"
  let templates := parseTemplates raw
  ensure (!templates.isEmpty && templates.all (validChars 1 64 "._-"))
    (invalid "templates" "must be a comma-separated list of template CN names")
  perform (stage templates)

def handler : CommandHandler := ⟨"ca.publish_template", .vmProvision, execute⟩

theorem staged (ctx : Params) :
    Staged (fun s => ∃ raw, param ctx "templates" = some raw ∧
      (!(parseTemplates raw).isEmpty && (parseTemplates raw).all (validChars 1 64 "._-")) = true ∧
      s = stage (parseTemplates raw)) (execute ctx) := by
  refine .required fun raw hr => .ensure rfl fun hv => ?_
  exact .perform ⟨raw, hr, hv, rfl⟩

end CaPublishTemplate

namespace CaVerify

def script : String :=
  "$svc = Get-Service certsvc -ErrorAction SilentlyContinue; $service = if ($svc) \x7b " ++
  "$svc.Status.ToString() \x7d else \x7b 'NotInstalled' \x7d; $ping = (certutil -ping 2>&1) -join " ++
  "\"`n\"; $pingOk = ($LASTEXITCODE -eq 0); @\x7b service = $service; " ++
  "pingOk = $pingOk; ping = $ping \x7d | ConvertTo-Json"

def stage (host : Host) : Stage :=
  .plain "pinging CA" 50 script [] fun output =>
    let probe := parseJson host output.stdout
    .obj [("service", probe.get "service"), ("ping_ok", .bool (probe.get "pingOk").isTrue),
      ("raw", .str output.stdout)]

def execute (host : Host) (_ : Params) : Exec Json := perform (stage host)

def handler (host : Host) : CommandHandler := ⟨"ca.verify", .vmRead, execute host⟩

theorem staged (host : Host) (ctx : Params) : Staged (· = stage host) (execute host ctx) :=
  .perform rfl

end CaVerify

end PkiExecutor
