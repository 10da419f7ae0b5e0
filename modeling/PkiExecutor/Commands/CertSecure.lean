/-
# `PkiExecutor.Commands.CertSecure` — the Linux product commands

`apt.refresh` and the five `certsecure.*` commands (`commands/certsecure.rs`).
They are registered on every platform.  `certsecure.install` runs the vendor's
`./install-linux.sh` out of the product tree; `certsecure.make_cert` writes the
certificate and key that the installer is pointed at.
-/
import PkiExecutor.Commands.Util

namespace PkiExecutor

namespace CertSecure

def installDir : String := "/opt/certsecure-manager"

def hostsBegin : String := "# BEGIN pki-executor managed entries"

def hostsEnd : String := "# END pki-executor managed entries"

/-- One to three digits that come to 255 at most. -/
def validOctet (octet : String) : Bool :=
  !octet.isEmpty && decide (Str.len octet ≤ 3) && Str.all octet Char.isDigit
    && match Str.parseU16 octet with
      | some n => decide (n ≤ 255)
      | none => false

/-- Four octets between dots; leading zeros pass. -/
def validIpv4 (value : String) : Bool :=
  let octets := Str.split value '.'
  decide (octets.length = 4) && octets.all validOctet

/-- The check of `certPath` and `keyPath`. -/
def pathOk (path : String) : Bool := validPosixPath path && Str.startsWith path installDir

/-- The loop over the two path parameters. -/
def checkPaths (certPath keyPath : String) : Exec Unit :=
  forEach (fun p => ensure (pathOk p.2)
      (invalid p.1 "must be an absolute path under the product install directory"))
    [("certPath", certPath), ("keyPath", keyPath)]

theorem checkPaths_checks (certPath keyPath : String) :
    Checks (fun _ => pathOk certPath = true ∧ pathOk keyPath = true)
      (checkPaths certPath keyPath) :=
  (Checks.forEach (fun _ => .ensure rfl) _).mono fun _ h => by simpa using h

end CertSecure

open CertSecure

namespace AptRefresh

def script : String :=
  "set -eu\n" ++
  "export DEBIAN_FRONTEND=noninteractive\n" ++
  "apt-get update\n"

def stage : Stage :=
  .plain "refreshing package lists" 30 script [] fun output =>
    .obj [("refreshed", .bool true), ("raw", .str (Str.trim output.stdout))]

def execute (_ : Params) : Exec Json := perform stage

def handler : CommandHandler := ⟨"apt.refresh", .vmProvision, execute⟩

theorem staged (ctx : Params) : Staged (· = stage) (execute ctx) := .perform rfl

end AptRefresh

namespace CertSecureWriteHosts

def script : String :=
  "set -eu\n" ++
  "begin=\"$1\"\n" ++
  "end=\"$2\"\n" ++
  "block=\"$3\"\n" ++
  "tmp=\"$(mktemp)\"\n" ++
  "# Drop any previous managed block, then append the current one. sed's range\n" ++
  "# form deletes an unterminated block to EOF too, so a half-written file from an\n" ++
  "# interrupted run converges rather than accumulating.\n" ++
  "sed \"/^$\x7bbegin\x7d\\$/,/^$\x7bend\x7d\\$/d\" /etc/hosts > \"$tmp\"\n" ++
  "\x7b\n" ++
  "  printf '%s\\n' \"$begin\"\n" ++
  "  printf '%s\\n' \"$block\"\n" ++
  "  printf '%s\\n' \"$end\"\n" ++
  "\x7d >> \"$tmp\"\n" ++
  "# Preserve /etc/hosts' own mode and ownership rather than mktemp's 0600, which\n" ++
  "# would make the file unreadable to every non-root resolver on the box.\n" ++
  "chmod 0644 \"$tmp\"\n" ++
  "chown root:root \"$tmp\"\n" ++
  "cat \"$tmp\" > /etc/hosts\n" ++
  "rm -f \"$tmp\"\n" ++
  "grep -c . /etc/hosts\n"

/-- One line that is not blank: an address and the names it is given. -/
def parseLine (line : String) : Exec String := do
  let fields := Str.splitWhitespace line
  let ip := fields.headD ""
  ensure (validIpv4 ip) (invalid "entries" "each line must start with an IPv4 address")
  let names := fields.tail
  ensure (!names.isEmpty) (invalid "entries" "each line must name at least one host")
  ensure (names.all validDnsName) (invalid "entries" "host names must be valid DNS names")
  pure (ip ++ " " ++ Str.join " " names)

/-- The loop over the lines, blank ones passed over. -/
def parseLines : List String → Exec (List String)
  | [] => pure []
  | line :: rest =>
      let line := Str.trim line
      if line.isEmpty then parseLines rest
      else do
        let entry ← parseLine line
        let entries ← parseLines rest
        pure (entry :: entries)

/-- The lines of the block, in a normal form; there must be one. -/
def parseHostsEntries (raw : String) : Exec String := do
  let lines ← parseLines (Str.lines raw)
  ensure (!lines.isEmpty) (invalid "entries" "must contain at least one entry")
  pure (Str.join "\n" lines)

def stage (block : String) : Stage :=
  .plain "writing hosts entries" 50 script [hostsBegin, hostsEnd, block] fun output =>
    .obj [("entries", .int (Str.lines block).length),
      ("totalLines", .int ((Str.parseU32 (Str.trim output.stdout)).getD 0))]

def execute (ctx : Params) : Exec Json := do
  let entries ← required ctx "entries"
  let block ← parseHostsEntries entries
  perform (stage block)

def handler : CommandHandler := ⟨"certsecure.write_hosts", .vmProvision, execute⟩

/-- An entry as it is written: a checked address, then checked names. -/
def IsEntry (entry : String) : Prop :=
  ∃ ip names, validIpv4 ip = true ∧ names ≠ [] ∧ (∀ n ∈ names, validDnsName n = true) ∧
    entry = ip ++ " " ++ Str.join " " names

theorem parseLine_checks (line : String) : Checks IsEntry (parseLine line) := by
  refine (Checks.ensure rfl).bind fun _ hi => (Checks.ensure rfl).bind fun _ hn => ?_
  refine (Checks.ensure rfl).bind fun _ hd => ?_
  exact .ok ⟨_, _, hi, by simpa using hn, List.all_eq_true.mp hd, rfl⟩

theorem parseLines_checks : ∀ lines : List String,
    Checks (fun entries => ∀ e ∈ entries, IsEntry e) (parseLines lines)
  | [] => .ok (by simp)
  | line :: rest => .ite (fun _ => parseLines_checks rest) fun _ =>
      (parseLine_checks _).bind fun _ he => (parseLines_checks rest).bind fun _ hes =>
        .ok (List.forall_mem_cons.mpr ⟨he, hes⟩)

theorem parseHostsEntries_checks (raw : String) :
    Checks (fun block => ∃ entries, entries ≠ [] ∧ (∀ e ∈ entries, IsEntry e) ∧
      block = Str.join "\n" entries) (parseHostsEntries raw) := by
  refine (parseLines_checks _).bind fun entries he => (Checks.ensure rfl).bind fun _ hn => ?_
  exact .ok ⟨entries, by simpa using hn, he, rfl⟩

theorem staged (ctx : Params) :
    Staged (fun s => ∃ entries, entries ≠ [] ∧ (∀ e ∈ entries, IsEntry e) ∧
      s = stage (Str.join "\n" entries)) (execute ctx) := by
  refine .required fun raw _ => .check (parseHostsEntries_checks raw) ?_
  rintro _ ⟨entries, hne, he, rfl⟩
  exact .perform ⟨entries, hne, he, rfl⟩

end CertSecureWriteHosts

namespace CertSecureMakeCert

def script : String :=
  "set -eu\n" ++
  "cert_path=\"$1\"\n" ++
  "key_path=\"$2\"\n" ++
  "subject_cn=\"$3\"\n" ++
  "san=\"$4\"\n" ++
  "days=\"$5\"\n" ++
  "mkdir -p \"$(dirname \"$cert_path\")\" \"$(dirname \"$key_path\")\"\n" ++
  "openssl req -x509 -newkey rsa:2048 -sha256 -nodes \\\n" ++
  "  -days \"$days\" \\\n" ++
  "  -keyout \"$key_path\" -out \"$cert_path\" \\\n" ++
  "  -subj \"/CN=$\x7bsubject_cn\x7d\" \\\n" ++
  "  -addext \"subjectAltName=$\x7bsan\x7d\" \\\n" ++
  "  -addext \"basicConstraints=critical,CA:FALSE\" \\\n" ++
  "  -addext \"keyUsage=critical,digitalSignature,keyEncipherment\" \\\n" ++
  "  -addext \"extendedKeyUsage=serverAuth\" >/dev/null 2>&1\n" ++
  "chmod 0600 \"$key_path\"\n" ++
  "chmod 0644 \"$cert_path\"\n" ++
  "printf '\x7b\"contentB64\":\"%s\",\"sha256\":\"%s\",\"notAfter\":\"%s\"\x7d' \\\n" ++
  "  \"$(openssl x509 -in \"$cert_path\" -outform DER | base64 -w0)\" \\\n" ++
  "  \"$(openssl x509 -in \"$cert_path\" -outform DER | sha256sum | cut -d' ' -f1)\" \\\n" ++
  "  \"$(openssl x509 -in \"$cert_path\" -noout -enddate | cut -d= -f2)\"\n"

/-- The non-empty trimmed pieces between commas. -/
def parseNames (raw : String) : List String :=
  ((Str.split raw ',').map Str.trim).filter (!·.isEmpty)

/-- An integer in 1 to 3650. -/
def validDays (days : String) : Bool :=
  match Str.parseU32 days with
  | some d => decide (1 ≤ d ∧ d ≤ 3650)
  | none => false

/-- The subject alternative names. -/
def sans (names : List String) (ip : String) : List String :=
  names.map ("DNS:" ++ ·) ++ if ip.isEmpty then [] else ["IP:" ++ ip]

/-- The result, once the run has printed a certificate. -/
def readCert (host : Host) (certPath keyPath : String) (names : List String) (ip : String)
    (output : PowerShellOutput) : Except CommandError Json :=
  let payload := parseJson host output.stdout
  if (payload.get "contentB64").asStr.isNone then
    .error (.shell (.nonZeroExit 1 "certsecure.make_cert produced no certificate"))
  else
    .ok (.obj [("certPath", .str certPath), ("keyPath", .str keyPath),
      ("subject", .str (names.headD "")), ("sans", .strings (sans names ip)),
      ("contentB64", payload.get "contentB64"), ("sha256", payload.get "sha256"),
      ("notAfter", payload.get "notAfter")])

def stage (host : Host) (certPath keyPath : String) (names : List String) (ip days : String) :
    Stage :=
  ⟨"generating TLS certificate", 30, script,
    [certPath, keyPath, names.headD "", Str.join "," (sans names ip), days],
    readCert host certPath keyPath names ip⟩

def execute (host : Host) (ctx : Params) : Exec Json := do
  let namesRaw ← required ctx "names"
  let names := parseNames namesRaw
  ensure (!names.isEmpty && names.all validDnsName)
    (invalid "names" "must be a comma-separated list of DNS names")
  ensure (decide (names.length ≤ 8)) (invalid "names" "at most 8 subject alternative names")
  let ip := (param ctx "ip").getD ""
  ensure (ip.isEmpty || validIpv4 ip) (invalid "ip" "must be an IPv4 address")
  let certPath ← required ctx "certPath"
  let keyPath ← required ctx "keyPath"
  checkPaths certPath keyPath
  let days := (param ctx "days").getD "825"
  ensure (validDays days) (invalid "days" "must be an integer in 1-3650")
  perform (stage host certPath keyPath names ip days)

def handler (host : Host) : CommandHandler := ⟨"certsecure.make_cert", .vmProvision, execute host⟩

/-- What the checks establish about the parameters of a certificate. -/
structure Accepted (ctx : Params) (certPath keyPath : String) (names : List String)
    (ip days : String) : Prop where
  certPath_eq : param ctx "certPath" = some certPath
  keyPath_eq : param ctx "keyPath" = some keyPath
  names_eq : ∃ raw, param ctx "names" = some raw ∧ names = parseNames raw
  ip_eq : ip = (param ctx "ip").getD ""
  paths_ok : pathOk certPath = true ∧ pathOk keyPath = true
  names_ok : (!names.isEmpty && names.all validDnsName) = true
  ip_ok : (ip.isEmpty || validIpv4 ip) = true
  days_ok : validDays days = true

theorem staged (host : Host) (ctx : Params) :
    Staged (fun s => ∃ certPath keyPath names ip days,
      Accepted ctx certPath keyPath names ip days ∧
      s = stage host certPath keyPath names ip days) (execute host ctx) := by
  refine .required fun raw hr => .ensure rfl fun hn => .ensure rfl fun _ => ?_
  refine .ensure rfl fun hi => .required fun certPath hc => .required fun keyPath hk => ?_
  refine .check (checkPaths_checks certPath keyPath) fun _ hp => .ensure rfl fun hd => ?_
  refine .perform ⟨certPath, keyPath, parseNames raw, (param ctx "ip").getD "",
    (param ctx "days").getD "825", ?_, rfl⟩
  exact ⟨hc, hk, ⟨raw, hr, rfl⟩, rfl, hp, hn, hi, hd⟩

end CertSecureMakeCert

namespace CertSecureInstall

def script : String :=
  "set -eu\n" ++
  "install_dir=\"$1\"\n" ++
  "cd \"$install_dir\"\n" ++
  "chmod +x ./install-linux.sh\n" ++
  "# The six read_inputs prompts, in order: frontend host, backend host, SSL\n" ++
  "# certificate path, SSL private key path, Keycloak host, Keycloak realm.\n" ++
  "printf '%s\\n%s\\n%s\\n%s\\n%s\\n%s\\n' \"$2\" \"$3\" \"$4\" \"$5\" \"$6\" \"$7\" \\\n" ++
  "  | ./install-linux.sh\n" ++
  "# The installer's own log is the record of what happened; echo its tail so a\n" ++
  "# failed step carries something diagnosable in the op error.\n" ++
  "tail -n 5 \"$\x7binstall_dir\x7d/installation-logs.log\" 2>/dev/null || true\n"

def validRealm (realm : String) : Bool := validChars 1 64 "._-" realm

/-- The six answers the installer prompts for. -/
structure Answers where
  frontend : String
  backend : String
  certPath : String
  keyPath : String
  keycloak : String
  realm : String

def stage (a : Answers) : Stage :=
  .plain "installing CertSecure Manager" 10 script
    [installDir, a.frontend, a.backend, a.certPath, a.keyPath, a.keycloak, a.realm] fun output =>
      .obj [("installDir", .str installDir), ("frontendHost", .str a.frontend),
        ("backendHost", .str a.backend), ("keycloakHost", .str a.keycloak),
        ("keycloakRealm", .str a.realm),
        ("frontendUrl", .str ("https://" ++ a.frontend ++ "/")),
        ("raw", .str (Str.trim output.stdout))]

def execute (ctx : Params) : Exec Json := do
  let frontend ← required ctx "frontendHost"
  let backend ← required ctx "backendHost"
  let keycloak ← required ctx "keycloakHost"
  forEach (fun p => ensure (validDnsName p.2) (invalid p.1 "must be a DNS name"))
    [("frontendHost", frontend), ("backendHost", backend), ("keycloakHost", keycloak)]
  let realm ← required ctx "keycloakRealm"
  ensure (validRealm realm)
    (invalid "keycloakRealm" "may only contain letters, digits, dot, dash, underscore")
  let certPath ← required ctx "certPath"
  let keyPath ← required ctx "keyPath"
  checkPaths certPath keyPath
  perform (stage ⟨frontend, backend, certPath, keyPath, keycloak, realm⟩)

def handler : CommandHandler := ⟨"certsecure.install", .vmProvision, execute⟩

/-- What the checks establish about the answers. -/
structure Accepted (ctx : Params) (a : Answers) : Prop where
  frontend_eq : param ctx "frontendHost" = some a.frontend
  backend_eq : param ctx "backendHost" = some a.backend
  keycloak_eq : param ctx "keycloakHost" = some a.keycloak
  certPath_eq : param ctx "certPath" = some a.certPath
  keyPath_eq : param ctx "keyPath" = some a.keyPath
  realm_eq : param ctx "keycloakRealm" = some a.realm
  hosts_ok : validDnsName a.frontend = true ∧ validDnsName a.backend = true ∧
    validDnsName a.keycloak = true
  realm_ok : validRealm a.realm = true
  paths_ok : pathOk a.certPath = true ∧ pathOk a.keyPath = true

theorem staged (ctx : Params) :
    Staged (fun s => ∃ a, Accepted ctx a ∧ s = stage a) (execute ctx) := by
  refine .required fun frontend hf => .required fun backend hb => .required fun keycloak hkc => ?_
  refine .check (.forEach (fun _ => .ensure rfl) _) fun _ hh => ?_
  refine .required fun realm hr => .ensure rfl fun hrv => ?_
  refine .required fun certPath hc => .required fun keyPath hk => ?_
  refine .check (checkPaths_checks certPath keyPath) fun _ hp => ?_
  refine .perform ⟨⟨frontend, backend, certPath, keyPath, keycloak, realm⟩, ?_, rfl⟩
  exact ⟨hf, hb, hkc, hc, hk, hr, by simpa using hh, hrv, hp⟩

end CertSecureInstall

namespace CertSecureVerify

def script : String :=
  "set -eu\n" ++
  "probe() \x7b\n" ++
  "  [ -z \"$1\" ] && \x7b printf '0'; return; \x7d\n" ++
  "  curl -sk -o /dev/null -m 10 -w '%\x7bhttp_code\x7d' \"$1\" 2>/dev/null || printf '000'\n" ++
  "\x7d\n" ++
  "printf '\x7b\"frontendStatus\":\"%s\",\"keycloakStatus\":\"%s\"\x7d'   \"$(probe \"$1\")\" " ++
  "\"$(probe \"$\x7b2:-\x7d\")\"\n"

/-- The check with its slice; `none` is a panic. -/
def validHttpsUrl? (value : String) : Option Bool :=
  if decide (Str.len value ≤ 200) && Str.startsWith value "https://" then do
    let rest ← Str.sliceFrom value 8
    return Str.all rest fun c =>
      c.isAlphanum || Str.containsChar "-._~:/?#[]@!$&'()*+,;=%" c
  else some false

def validHttpsUrl (value : String) : Bool := (validHttpsUrl? value).getD false

/-- Any 2xx or 3xx. -/
def httpOk (status : String) : Bool :=
  match Str.parseU16 status with
  | some code => decide (200 ≤ code ∧ code < 400)
  | none => false

def stage (host : Host) (frontend keycloak : String) : Stage :=
  .plain "probing product endpoints" 50 script [frontend, keycloak] fun output =>
    let payload := parseJson host output.stdout
    let frontendStatus := (payload.get "frontendStatus").asStr.getD "0"
    let keycloakStatus := (payload.get "keycloakStatus").asStr.getD "0"
    .obj [("frontendUrl", .str frontend), ("frontendStatus", .str frontendStatus),
      ("frontendOk", .bool (httpOk frontendStatus)), ("keycloakUrl", .str keycloak),
      ("keycloakStatus", .str keycloakStatus),
      ("keycloakOk", .bool (keycloak.isEmpty || httpOk keycloakStatus))]

def execute (host : Host) (ctx : Params) : Exec Json := do
  let frontend ← required ctx "frontendUrl"
  let keycloak := (param ctx "keycloakUrl").getD ""
  forEach (fun p => ensure (p.2.isEmpty || validHttpsUrl p.2)
      (invalid p.1 "must be an https:// URL"))
    [("frontendUrl", frontend), ("keycloakUrl", keycloak)]
  perform (stage host frontend keycloak)

def handler (host : Host) : CommandHandler := ⟨"certsecure.verify", .vmRead, execute host⟩

theorem staged (host : Host) (ctx : Params) :
    Staged (fun s => ∃ frontend keycloak, (frontend.isEmpty || validHttpsUrl frontend) = true ∧
      (keycloak.isEmpty || validHttpsUrl keycloak) = true ∧ s = stage host frontend keycloak)
      (execute host ctx) := by
  refine .required fun frontend _ => .check (.forEach (fun _ => .ensure rfl) _) fun _ h => ?_
  simp only [List.forall_mem_cons, List.not_mem_nil, false_imp_iff, implies_true, and_true] at h
  exact .perform ⟨frontend, _, h.1, h.2, rfl⟩

end CertSecureVerify

namespace CertSecureHarden

/-- The files of the product tree, with the modes they get. -/
def hardened : List (String × String) :=
  [("conf/key.pem", "600"), ("conf/keycloak-credentials.txt", "600"),
    ("conf/server.yaml", "640"), ("conf.ini", "640")]

def script : String :=
  "set -eu\n" ++
  "install_dir=\"$1\"\n" ++
  "shift\n" ++
  "changed=\"\"\n" ++
  "while [ \"$#\" -gt 0 ]; do\n" ++
  "  rel=\"$1\"\n" ++
  "  mode=\"$2\"\n" ++
  "  shift 2\n" ++
  "  path=\"$\x7binstall_dir\x7d/$\x7brel\x7d\"\n" ++
  "  if [ -f \"$path\" ]; then\n" ++
  "    chown root:root \"$path\"\n" ++
  "    chmod \"$mode\" \"$path\"\n" ++
  "    changed=\"$\x7bchanged\x7d$\x7brel\x7d \"\n" ++
  "  fi\n" ++
  "done\n" ++
  "printf '%s' \"$changed\"\n"

def stage : Stage :=
  .plain "restricting credential file modes" 50 script
    (installDir :: hardened.flatMap fun p => [p.1, p.2]) fun output =>
      .obj [("hardened", .strings (Str.splitWhitespace output.stdout))]

def execute (_ : Params) : Exec Json := perform stage

def handler : CommandHandler := ⟨"certsecure.harden", .vmProvision, execute⟩

theorem staged (ctx : Params) : Staged (· = stage) (execute ctx) := .perform rfl

end CertSecureHarden

end PkiExecutor
