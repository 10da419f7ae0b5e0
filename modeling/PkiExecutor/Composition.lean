/-
# `PkiExecutor.Composition` — what commands come to when they share a machine

No command open to guests runs a guest's text (`PkiExecutor.Scripts`), but
`certsecure.install` runs a file, and `file.write` and `certsecure.make_cert`
write files in the same tree.  Here the shell runs of a session act on the files
of the machine: a content carries where its bytes come from, and a session lists
the programs it started.

The vendor's installer is not part of the source; `Vendor` is what running it may
do to the files.  A session none of whose requests writes `install-linux.sh`
starts clean programs only (`guest_programs_clean`); `file.write` accepts that
path, so a session in general does not (`guest_program_injected`).
-/
import PkiExecutor.Confinement
import PkiExecutor.Scripts

namespace PkiExecutor

open PkiExecutor.Path

/-! ## Files and programs -/

/-- Where the bytes of a file are from. -/
inductive Content
  /-- put there when the machine was set up -/
  | staged (bytes : String)
  /-- decoded from a parameter, as far as it decodes -/
  | relayed (contentB64 : String)
  /-- a certificate, which quotes the names it was asked for -/
  | certificate (subject san : String)
  /-- a generated private key -/
  | key
  deriving DecidableEq, Repr

/-- Some of the bytes come from a parameter. -/
def Content.fromParams : Content → Bool
  | staged _ => false
  | relayed _ => true
  | certificate _ _ => true
  | key => false

/-- The files of the machine, by normalised path. -/
abbrev Files := List (List Char) → Option Content

/-- A file is written under the normal form of its path. -/
def Files.put (fs : Files) (path : String) (content : Content) : Files :=
  Function.update fs (normalise '/' path) (some content)

/-- What `certsecure.install` makes executable and runs. -/
def installerPath : String := "/opt/certsecure-manager/install-linux.sh"

/-- What stands where the installer is looked for. -/
def Files.installer (fs : Files) : Option Content := fs (normalise '/' installerPath)

/-- The installer's bytes do not come from a parameter. -/
def Files.Clean (fs : Files) : Prop :=
  ∀ content, fs.installer = some content → content.fromParams = false

/-- What running a file of this content with these arguments may make of the files. -/
abbrev Vendor := Content → List String → Files → Files → Prop

/-- An installer that is not a guest's puts no guest's bytes in its own place. -/
def Vendor.Clean (vendor : Vendor) : Prop :=
  ∀ content args fs fs', content.fromParams = false → fs.Clean → vendor content args fs fs' →
    fs'.Clean

/-- Something the agent executed. -/
inductive Program
  | script (text : String)
  | file (content : Content)
  deriving DecidableEq, Repr

/-- A text of the fixed list, or a file none of whose bytes come from a parameter. -/
def Program.Clean : Program → Prop
  | script text => text ∈ guestScripts true
  | file content => content.fromParams = false

/-! ## Shell runs -/

/-- The scripts that write into the product tree. -/
def treeWriters : List String :=
  [Linux.FileWrite.script, CertSecureMakeCert.script, CertSecureInstall.script]

/-- What a run of a script executes and what it may leave of the files. -/
inductive ShellRun (vendor : Vendor) : ShellCall → Files → List Program → Files → Prop
  /-- it ends before it has touched a file -/
  | stopped (c : ShellCall) (fs : Files) : ShellRun vendor c fs [.script c.script] fs
  | fileWrite (path content : String) (fs : Files) :
      ShellRun vendor ⟨Linux.FileWrite.script, [path, content]⟩ fs
        [.script Linux.FileWrite.script] (fs.put path (.relayed content))
  /-- it ends between writing the key and writing the certificate -/
  | makeKey (certPath keyPath : String) (rest : List String) (fs : Files) :
      ShellRun vendor ⟨CertSecureMakeCert.script, certPath :: keyPath :: rest⟩ fs
        [.script CertSecureMakeCert.script] (fs.put keyPath .key)
  | makeCert (certPath keyPath subject san days : String) (fs : Files) :
      ShellRun vendor ⟨CertSecureMakeCert.script, [certPath, keyPath, subject, san, days]⟩ fs
        [.script CertSecureMakeCert.script]
        ((fs.put keyPath .key).put certPath (.certificate subject san))
  | install {args : List String} {content : Content} {fs fs' : Files} :
      fs.installer = some content → vendor content args fs fs' →
      ShellRun vendor ⟨CertSecureInstall.script, args⟩ fs
        [.script CertSecureInstall.script, .file content] fs'
  /-- any other script leaves the product tree's contents alone -/
  | other {c : ShellCall} {fs fs' : Files} : c.script ∉ treeWriters →
      (∀ p, CertSecure.productDir <+: p → fs' p = fs p) →
      ShellRun vendor c fs [.script c.script] fs'

/-- Runs one after the other. -/
inductive ShellRuns (vendor : Vendor) : List ShellCall → Files → List Program → Files → Prop
  | nil (fs : Files) : ShellRuns vendor [] fs [] fs
  | cons {c : ShellCall} {cs : List ShellCall} {ps ps' : List Program} {fs fs' fs'' : Files} :
      ShellRun vendor c fs ps fs' → ShellRuns vendor cs fs' ps' fs'' →
      ShellRuns vendor (c :: cs) fs (ps ++ ps') fs''

/-- The calls of a guest's dispatch after a history of calls. -/
def GuestRequest.calls (q : GuestRequest) (world : List ShellCall → ShellCall → ShellReply)
    (past : List ShellCall) : List ShellCall :=
  Event.queries ((q.dispatch true).run world past).trace

/-- A guest's requests one after the other, on a unix machine. -/
inductive Session (vendor : Vendor) (world : List ShellCall → ShellCall → ShellReply) :
    List ShellCall → List GuestRequest → Files → List Program → Files → Prop
  | nil (past : List ShellCall) (fs : Files) : Session vendor world past [] fs [] fs
  | cons {past : List ShellCall} {q : GuestRequest} {qs : List GuestRequest}
      {ps ps' : List Program} {fs fs' fs'' : Files} :
      ShellRuns vendor (q.calls world past) fs ps fs' →
      Session vendor world (past ++ q.calls world past) qs fs' ps' fs'' →
      Session vendor world past (q :: qs) fs (ps ++ ps') fs''

/-! ## Which request makes which call -/

section Calls

variable {q : GuestRequest} {world : List ShellCall → ShellCall → ShellReply}
  {past : List ShellCall} {c : ShellCall}

theorem writer_names : ∀ e ∈ entries true,
    (Linux.FileWrite.script ∈ e.scripting.texts → e.name = "file.write") ∧
    (CertSecureMakeCert.script ∈ e.scripting.texts → e.name = "certsecure.make_cert") := by
  decide +kernel

theorem GuestRequest.calls_eq {h : CommandHandler}
    (hl : (buildDefaultRegistry q.host true).handlers.lookup q.name = some h)
    (hr : Role.guest.has h.requiredCapability = true) :
    q.calls world past = Event.queries ((h.execute q.params).run world past).trace := by
  rw [calls, dispatch, CommandRegistry.dispatch_of_allowed hl hr, Prog.run_mapErr]

theorem lookup_fileWrite (host : Host) :
    (buildDefaultRegistry host true).handlers.lookup "file.write" =
      some Linux.FileWrite.handler := by
  rw [buildDefaultRegistry, CommandRegistry.lookup_ofHistory]
  rfl

theorem lookup_makeCert (host : Host) :
    (buildDefaultRegistry host true).handlers.lookup "certsecure.make_cert" =
      some (CertSecureMakeCert.handler host) := by
  rw [buildDefaultRegistry, CommandRegistry.lookup_ofHistory]
  rfl

theorem GuestRequest.fileWrite_call {path content : String}
    (hc : (⟨Linux.FileWrite.script, [path, content]⟩ : ShellCall) ∈ q.calls world past) :
    q.name = "file.write" ∧ param q.params "path" = some path := by
  obtain ⟨e, hmem, hname, -, ht⟩ := guest_call_entry hc
  have hn : q.name = "file.write" := hname ▸ (writer_names e hmem).1 ht
  have hs : Staged _ (Linux.FileWrite.handler.execute q.params) :=
    FileRelay.write_staged rfl Linux.FileWrite.script q.params
  rw [calls_eq (hn ▸ lookup_fileWrite q.host) rfl] at hc
  obtain ⟨s, ⟨path', content', hp, -, -, -, -, rfl⟩, hcall⟩ := (Handled.staged hs).mem_queries hc
  have hargs : [path, content] = [path', content'] := congrArg ShellCall.args hcall
  cases hargs
  exact ⟨hn, hp⟩

/-- A run of the certificate script is that of a `certsecure.make_cert` with this
path. -/
theorem GuestRequest.makeCert_call {certPath : String} {rest : List String}
    (hc : (⟨CertSecureMakeCert.script, certPath :: rest⟩ : ShellCall) ∈ q.calls world past) :
    q.name = "certsecure.make_cert" ∧ param q.params "certPath" = some certPath := by
  obtain ⟨e, hmem, hname, -, ht⟩ := guest_call_entry hc
  have hn : q.name = "certsecure.make_cert" := hname ▸ (writer_names e hmem).2 ht
  have hs := CertSecureMakeCert.staged q.host q.params
  rw [calls_eq (hn ▸ lookup_makeCert q.host) rfl] at hc
  obtain ⟨s, ⟨certPath', keyPath', names, ip, days, ha, rfl⟩, hcall⟩ :=
    (Handled.staged hs).mem_queries hc
  have hargs : certPath :: rest = certPath' :: _ := congrArg ShellCall.args hcall
  obtain rfl : certPath = certPath' := (List.cons.inj hargs).1
  exact ⟨hn, ha.certPath_eq⟩

end Calls

/-! ## Sessions that spare the installer -/

/-- The parameter that names a file which a command fills with bytes of its
parameters. -/
def writtenKey : String → Option String
  | "file.write" => some "path"
  | "certsecure.make_cert" => some "certPath"
  | _ => none

/-- The request does not name the installer as such a file. -/
def GuestRequest.Spares (q : GuestRequest) : Prop :=
  ∀ key path, writtenKey q.name = some key → param q.params key = some path →
    normalise '/' path ≠ normalise '/' installerPath

theorem Files.put_clean {fs : Files} (h : fs.Clean) {path : String} {content : Content}
    (hc : content.fromParams = false ∨ normalise '/' path ≠ normalise '/' installerPath) :
    (fs.put path content).Clean := by
  intro content' hi
  by_cases hp : normalise '/' installerPath = normalise '/' path
  · have hput : (fs.put path content).installer = some content := by
      unfold Files.installer Files.put
      rw [hp, Function.update_self]
    obtain rfl : content = content' := Option.some.inj (hput.symm.trans hi)
    exact hc.resolve_right fun hne => hne hp.symm
  · have hput : (fs.put path content).installer = fs.installer := by
      unfold Files.installer Files.put
      rw [Function.update_of_ne hp]
    exact h content' (hput ▸ hi)

/-- A run made for a request that spares the installer executes clean programs and
leaves the installer clean. -/
theorem ShellRun.clean {vendor : Vendor} (hv : vendor.Clean) {q : GuestRequest} (hq : q.Spares)
    {world : List ShellCall → ShellCall → ShellReply} {past : List ShellCall} {c : ShellCall}
    (hc : c ∈ q.calls world past) {fs fs' : Files} {ps : List Program} (h0 : fs.Clean)
    (h : ShellRun vendor c fs ps fs') : fs'.Clean ∧ ∀ p ∈ ps, p.Clean := by
  have hscript : (Program.script c.script).Clean := guest_call_listed hc
  cases h with
  | stopped => exact ⟨h0, by simpa using hscript⟩
  | fileWrite path content =>
      obtain ⟨hn, hp⟩ := GuestRequest.fileWrite_call hc
      have hne := hq "path" path (by rw [hn]; rfl) hp
      exact ⟨Files.put_clean h0 (.inr hne), by simpa using hscript⟩
  | makeKey certPath keyPath rest =>
      exact ⟨Files.put_clean h0 (.inl rfl), by simpa using hscript⟩
  | makeCert certPath keyPath subject san days =>
      obtain ⟨hn, hp⟩ := GuestRequest.makeCert_call hc
      have hne := hq "certPath" certPath (by rw [hn]; rfl) hp
      have hkey : (fs.put keyPath .key).Clean := Files.put_clean h0 (.inl rfl)
      exact ⟨Files.put_clean hkey (.inr hne), by simpa using hscript⟩
  | install hi hvendor =>
      have hclean := h0 _ hi
      refine ⟨hv _ _ _ _ hclean h0 hvendor, ?_⟩
      simp only [List.forall_mem_cons]
      exact ⟨hscript, hclean, by simp⟩
  | other hw hsame =>
      have hin : CertSecure.productDir <+: normalise '/' installerPath := by decide
      refine ⟨fun content hi => h0 content ?_, by simpa using hscript⟩
      rw [← hi, Files.installer, Files.installer, hsame _ hin]

theorem ShellRuns.clean {vendor : Vendor} (hv : vendor.Clean) {q : GuestRequest} (hq : q.Spares)
    {world : List ShellCall → ShellCall → ShellReply} {past : List ShellCall}
    {cs : List ShellCall} {fs fs' : Files} {ps : List Program} (h : ShellRuns vendor cs fs ps fs')
    (hcs : ∀ c ∈ cs, c ∈ q.calls world past) (h0 : fs.Clean) :
    fs'.Clean ∧ ∀ p ∈ ps, p.Clean := by
  induction h with
  | nil fs => exact ⟨h0, by simp⟩
  | cons hrun _ ih =>
      rw [List.forall_mem_cons] at hcs
      obtain ⟨hclean, hps⟩ := hrun.clean hv hq hcs.1 h0
      obtain ⟨hclean', hps'⟩ := ih hcs.2 hclean
      exact ⟨hclean', List.forall_mem_append.mpr ⟨hps, hps'⟩⟩

/-- A session of a guest none of whose requests writes the installer executes
texts of the fixed list and files without a guest's bytes. -/
theorem guest_programs_clean (vendor : Vendor) (hv : vendor.Clean)
    (world : List ShellCall → ShellCall → ShellReply) (past : List ShellCall)
    (qs : List GuestRequest) (hq : ∀ q ∈ qs, q.Spares) (fs fs' : Files) (h0 : fs.Clean)
    (ps : List Program) (h : Session vendor world past qs fs ps fs') : ∀ p ∈ ps, p.Clean := by
  induction h with
  | nil past fs => simp
  | cons hruns _ ih =>
      rw [List.forall_mem_cons] at hq
      obtain ⟨hclean, hps⟩ := hruns.clean hv hq.1 (fun _ hc => hc) h0
      exact List.forall_mem_append.mpr ⟨hps, ih hq.2 hclean⟩

/-! ## A file written, then the installer run -/

/-- A guest writes a file over whatever is there. -/
def writeRequest (path : String) : GuestRequest :=
  ⟨.idle, "file.write", [("path", path), ("contentB64", "ZXZpbA==")]⟩

/-- A guest has the product installed. -/
def installRequest : GuestRequest :=
  ⟨.idle, "certsecure.install",
    [("frontendHost", "fe.example.com"), ("backendHost", "be.example.com"),
      ("keycloakHost", "kc.example.com"), ("keycloakRealm", "pki"),
      ("certPath", "/opt/certsecure-manager/conf/cert.pem"),
      ("keyPath", "/opt/certsecure-manager/conf/key.pem")]⟩

/-- A tree with an installer in it, which changes nothing when it runs. -/
def stagedTree : Files := fun p =>
  if p = normalise '/' installerPath then some (.staged "#!/bin/sh") else none

/-- An installer that leaves all files alone. -/
def idleVendor : Vendor := fun _ _ fs fs' => fs' = fs

theorem idleVendor_clean : idleVendor.Clean := by
  rintro content args fs fs' - h rfl
  exact h

theorem stagedTree_clean : stagedTree.Clean := by
  intro content h
  have hs : stagedTree.installer = some (.staged "#!/bin/sh") := by
    simp [Files.installer, stagedTree]
  obtain rfl : Content.staged "#!/bin/sh" = content := Option.some.inj (hs.symm.trans h)
  rfl

theorem installRequest_calls (past : List ShellCall) :
    installRequest.calls quietShell past = [⟨CertSecureInstall.script,
      ["/opt/certsecure-manager", "fe.example.com", "be.example.com",
        "/opt/certsecure-manager/conf/cert.pem", "/opt/certsecure-manager/conf/key.pem",
        "kc.example.com", "pki"]⟩] := by
  unfold GuestRequest.calls
  rw [Prog.run_of_memoryless (fun _ _ => rfl)]
  clear past
  decide +kernel

/-- Writing to a path and then installing runs what the installer's place holds. -/
theorem session_writeInstall {path : String} {content : Content}
    (hw : (writeRequest path).calls quietShell [] =
      [⟨Linux.FileWrite.script, [path, "ZXZpbA=="]⟩])
    (hi : (stagedTree.put path (.relayed "ZXZpbA==")).installer = some content) :
    Session idleVendor quietShell [] [writeRequest path, installRequest] stagedTree
      [.script Linux.FileWrite.script, .script CertSecureInstall.script, .file content]
      (stagedTree.put path (.relayed "ZXZpbA==")) := by
  have hwrite : ShellRuns idleVendor ((writeRequest path).calls quietShell []) stagedTree
      [.script Linux.FileWrite.script] (stagedTree.put path (.relayed "ZXZpbA==")) := by
    rw [hw]
    exact .cons (.fileWrite path "ZXZpbA==" stagedTree) (.nil _)
  have hinstall : ∀ past, ShellRuns idleVendor (installRequest.calls quietShell past)
      (stagedTree.put path (.relayed "ZXZpbA=="))
      [.script CertSecureInstall.script, .file content]
      (stagedTree.put path (.relayed "ZXZpbA==")) := by
    intro past
    rw [installRequest_calls]
    exact .cons (.install hi rfl) (.nil _)
  have h := Session.cons hwrite (.cons (hinstall _) (.nil _ _))
  exact h

/-- A file written elsewhere in the tree leaves the installer as it was staged. -/
theorem guest_programs_clean_conf :
    (Program.script Linux.FileWrite.script).Clean ∧
      (Program.script CertSecureInstall.script).Clean ∧
      (Program.file (.staged "#!/bin/sh")).Clean := by
  have hq : ∀ q ∈ [writeRequest "/opt/certsecure-manager/conf/ca.pem", installRequest],
      q.Spares := by
    simp only [List.forall_mem_cons]
    refine ⟨?_, ?_, by simp⟩
    · intro key path hk hp
      cases hk
      cases hp
      decide
    · intro key path hk
      cases hk
  have hi : (stagedTree.put "/opt/certsecure-manager/conf/ca.pem"
      (.relayed "ZXZpbA==")).installer = some (.staged "#!/bin/sh") := by
    decide
  have h := guest_programs_clean idleVendor idleVendor_clean quietShell [] _ hq stagedTree _
    stagedTree_clean _ (session_writeInstall (by decide) hi)
  exact ⟨h _ (by simp), h _ (by simp), h _ (by simp)⟩

/-- The relay accepts the installer's path, and a guest who writes it gets it run. -/
theorem guest_program_injected :
    Linux.relayPathOk installerPath = true ∧
    ¬ ∀ (vendor : Vendor), vendor.Clean →
      ∀ (world : List ShellCall → ShellCall → ShellReply) (past : List ShellCall)
        (qs : List GuestRequest) (fs fs' : Files), fs.Clean → ∀ ps : List Program,
      Session vendor world past qs fs ps fs' → ∀ p ∈ ps, p.Clean := by
  refine ⟨by decide, fun hall => ?_⟩
  have hw : (writeRequest installerPath).calls quietShell [] =
      [⟨Linux.FileWrite.script, [installerPath, "ZXZpbA=="]⟩] := by
    decide
  have hi : (stagedTree.put installerPath (.relayed "ZXZpbA==")).installer =
      some (.relayed "ZXZpbA==") := by
    simp [Files.installer, Files.put]
  have hclean := hall idleVendor idleVendor_clean quietShell [] _ _ _ stagedTree_clean _
    (session_writeInstall hw hi) (.file (.relayed "ZXZpbA==")) (by simp)
  cases hclean

end PkiExecutor
