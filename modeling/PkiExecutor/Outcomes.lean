/-
# `PkiExecutor.Outcomes` — what a dispatch comes to

Two laws over every dispatch of the default catalog, and where they fail.  An
error about a parameter should mean that nothing happened: `param_error_iff`.  A
result should be a JSON object: `done_object_iff`.  Both are decided by what a
command makes of its script's output, which `Reads` says once for every command
of the catalog.
-/
import PkiExecutor.Catalog

namespace PkiExecutor

/-! ## Reading an output -/

/-- The command blames its parameters for this output of its script. -/
def garbled (host : Host) (name : String) (output : PowerShellOutput) : Bool :=
  match name with
  | "file.read" => ((parseJson host output.stdout).get "contentB64").asStr.isNone
  | "ca.sign_request" =>
      (Str.trim output.stdout).isEmpty || !Str.all (Str.trim output.stdout) Char.isDigit
  | _ => false

/-- The command passes this output on though it is no object. -/
def shapeless (host : Host) (name : String) (output : PowerShellOutput) : Bool :=
  match name with
  | "dns.verify" => !(parseJson host output.stdout).isObject
  | _ => false

/-- The commands whose result is what their script printed, if that is an object. -/
def gates : List String := ["cert.verify", "pki.verify", "system.identity"]

/-- How the stage of a command reads its output: which outputs it blames on the
parameters, of which it makes a result that is no object, and that a gate insists
on an object. -/
structure Reads (host : Host) (name : String) (s : Stage) : Prop where
  blames : ∀ output, (∃ e, s.read output = .error e ∧ e.isParam = true) ↔
    garbled host name output = true
  shape : ∀ output, (∃ v, s.read output = .ok v ∧ v.isObject = false) ↔
    shapeless host name output = true
  gate : name ∈ gates → ∀ output, s.read output = readObject host name output

/-- An object, or an error of the shell. -/
def Sound : Except CommandError Json → Prop
  | .ok v => v.isObject = true
  | .error e => e.isParam = false

theorem garbled_other {name : String} (hn : name ∉ ["file.read", "ca.sign_request"]) (host : Host)
    (output : PowerShellOutput) : garbled host name output = false := by
  unfold garbled
  split
  · exact absurd (by simp) hn
  · exact absurd (by simp) hn
  · rfl

theorem shapeless_other {name : String} (hn : name ≠ "dns.verify") (host : Host)
    (output : PowerShellOutput) : shapeless host name output = false := by
  unfold shapeless
  split
  · exact absurd rfl hn
  · rfl

/-- The commands that read their output in a way of their own. -/
def particular : List String := "dns.verify" :: "file.read" :: "ca.sign_request" :: gates

theorem sound_reads {host : Host} {name : String} {s : Stage}
    (hs : ∀ output, Sound (s.read output))
    (hn : name ∉ ["dns.verify", "file.read", "ca.sign_request"])
    (hg : name ∈ gates → ∀ output, s.read output = readObject host name output) :
    Reads host name s := by
  have hgarbled := garbled_other (fun h => hn (List.mem_cons_of_mem _ h)) host
  have hshapeless := shapeless_other (fun h => hn (h ▸ List.mem_cons_self)) host
  refine ⟨fun output => iff_of_false ?_ (by simp [hgarbled]),
    fun output => iff_of_false ?_ (by simp [hshapeless]), hg⟩
  · rintro ⟨e, he, hp⟩
    have h := hs output
    rw [he] at h
    exact absurd (h.symm.trans hp) (by decide)
  · rintro ⟨v, hv, ho⟩
    have h := hs output
    rw [hv] at h
    exact absurd (ho.symm.trans h) (by decide)

/-- Most commands make an object of every output, or an error of the shell. -/
theorem Reads.of_sound {host : Host} {name : String} {s : Stage}
    (hs : ∀ output, Sound (s.read output)) (hn : particular.contains name = false) :
    Reads host name s := by
  have hnot : name ∉ particular := fun h =>
    absurd (hn.symm.trans (List.contains_iff_mem.mpr h)) (by decide)
  exact sound_reads hs (fun h => hnot (by simp only [particular, List.mem_cons] at h ⊢; tauto))
    fun h => absurd (by simp [particular, h]) hnot

theorem Reads.plain {host : Host} {name : String} {s : Stage}
    (hs : ∀ output, ∃ v, s.read output = .ok v ∧ v.isObject = true)
    (hn : particular.contains name = false) : Reads host name s := by
  refine .of_sound (fun output => ?_) hn
  obtain ⟨v, hv, ho⟩ := hs output
  rw [hv]
  exact ho

theorem readObject_sound (host : Host) (command : String) (output : PowerShellOutput) :
    Sound (readObject host command output) := by
  show Sound (if (!(parseJson host output.stdout).isObject) = true then .error _
    else .ok (parseJson host output.stdout))
  split
  · rfl
  · rename_i h
    have ho : (parseJson host output.stdout).isObject = true := by simpa using h
    exact ho

theorem Reads.of_gate {host : Host} {name : String} {s : Stage} (hn : gates.contains name = true)
    (hs : ∀ output, s.read output = readObject host name output) : Reads host name s := by
  have hnot : ∀ n ∈ gates, n ∉ ["dns.verify", "file.read", "ca.sign_request"] := by decide
  refine sound_reads (fun output => ?_) (hnot name (List.contains_iff_mem.mp hn)) fun _ => hs
  rw [hs]
  exact readObject_sound host name output

theorem readCert_sound (host : Host) (certPath keyPath : String) (names : List String)
    (ip : String) (output : PowerShellOutput) :
    Sound (CertSecureMakeCert.readCert host certPath keyPath names ip output) := by
  show Sound (if ((parseJson host output.stdout).get "contentB64").asStr.isNone = true then .error _
    else .ok (.obj _))
  split
  · rfl
  · rfl

/-- A stage that makes an object of every output but those it blames on the
parameters. -/
theorem Reads.of_blaming {host : Host} {name : String} {s : Stage} (e : CommandError)
    (result : PowerShellOutput → Json) (he : e.isParam = true)
    (ho : ∀ output, (result output).isObject = true)
    (hs : ∀ output, s.read output =
      if garbled host name output = true then .error e else .ok (result output))
    (hn : name ≠ "dns.verify") (hg : name ∉ gates) : Reads host name s := by
  refine ⟨fun output => ?_, fun output => ?_, fun h => absurd h hg⟩
  · rw [hs]
    by_cases h : garbled host name output = true
    · rw [if_pos h]
      exact iff_of_true ⟨e, rfl, he⟩ h
    · rw [if_neg h]
      exact iff_of_false (fun ⟨_, hv, _⟩ => by cases hv) h
  · rw [hs, shapeless_other hn]
    refine iff_of_false ?_ (by decide)
    split
    · exact fun ⟨_, hv, _⟩ => by cases hv
    · rintro ⟨_, ⟨⟩, hv⟩
      exact absurd (hv.symm.trans (ho output)) (by decide)

theorem garbled_fileRead (host : Host) (output : PowerShellOutput) :
    garbled host "file.read" output =
      ((parseJson host output.stdout).get "contentB64").asStr.isNone := rfl

theorem garbled_signRequest (host : Host) (output : PowerShellOutput) :
    garbled host "ca.sign_request" output =
      ((Str.trim output.stdout).isEmpty || !Str.all (Str.trim output.stdout) Char.isDigit) := rfl

theorem FileRelay.readStage_reads (host : Host) (script path : String) :
    Reads host "file.read" (readStage host script path) :=
  .of_blaming (invalid "path" "file could not be read")
    (fun output =>
      let payload := parseJson host output.stdout
      .obj [("path", .str path), ("contentB64", payload.get "contentB64"),
        ("sha256", payload.get "sha256"), ("size", payload.get "size")])
    rfl (fun _ => rfl) (fun output => by rw [garbled_fileRead]; rfl) (by decide) (by decide)

theorem CaSignRequest.reads (host : Host) (csrPath certPath : String) :
    Reads host "ca.sign_request" (stage csrPath certPath) :=
  .of_blaming (invalid "csrPath" "signing did not yield a numeric RequestId")
    (fun output =>
      .obj [("request_id", .str (Str.trim output.stdout)), ("cert_path", .str certPath)])
    rfl (fun _ => rfl) (fun output => by
      simp only [stage, readRequestId]
      exact if_congr (by rw [garbled_signRequest]) rfl rfl) (by decide) (by decide)

theorem DnsVerify.reads (host : Host) (raw server requireAdSrv domain httpUrl : String) :
    Reads host "dns.verify" (stage host raw server requireAdSrv domain httpUrl) := by
  refine ⟨fun output => ?_, fun output => ?_, fun h => absurd h (by decide)⟩
  · exact iff_of_false (fun ⟨_, he, _⟩ => by cases he) (by simp [garbled])
  · show (∃ v, Except.ok (parseJson host output.stdout) = Except.ok v ∧ v.isObject = false) ↔
      (!(parseJson host output.stdout).isObject) = true
    simp

theorem baseHandlers_read (host : Host) (ctx : Params) :
    ∀ h ∈ baseHandlers host, Handled (Reads host h.name) (h.execute ctx) := by
  simp only [baseHandlers, List.forall_mem_cons]
  refine ⟨.staged ((HostnameRename.staged ctx).mono
      fun _ ⟨_, _, _, h⟩ => h ▸ .plain (fun _ => ⟨_, rfl, rfl⟩) rfl),
    .staged ((HostnameRead.staged ctx).mono
      fun _ h => h ▸ .plain (fun _ => ⟨_, rfl, rfl⟩) rfl),
    .staged ((CertVerify.staged host ctx).mono
      fun _ ⟨_, _, _, _, _, _, _, h⟩ =>
        h ▸ .of_gate rfl fun _ => rfl),
    .staged ((ExecArbitrary.staged ctx).mono
      fun _ ⟨_, _, h⟩ => h ▸ .plain (fun _ => ⟨_, rfl, rfl⟩) rfl),
    .staged ((IpRead.staged host ctx).mono
      fun _ h => h ▸ .plain (fun _ => ⟨_, rfl, rfl⟩) rfl),
    .staged ((IpWrite.staged ctx).mono
      fun _ ⟨_, _, _, _, _, h⟩ => h ▸ .plain (fun _ => ⟨_, rfl, rfl⟩) rfl),
    .staged ((CaInstall.staged ctx).mono fun _ ⟨_, _, _, _, h⟩ => h.elim
      (fun ⟨_, h⟩ => h ▸ .plain (fun _ => ⟨_, rfl, rfl⟩) rfl)
      fun ⟨_, _, _, _, _, _, _, h⟩ => h ▸ .plain (fun _ => ⟨_, rfl, rfl⟩) rfl),
    .staged ((CaConfigureSettings.staged ctx).mono
      fun _ ⟨_, _, h⟩ => h ▸ .plain (fun _ => ⟨_, rfl, rfl⟩) rfl),
    .staged ((CaConfigureCdpAia.staged ctx).mono
      fun _ ⟨_, _, _, _, _, _, h⟩ => h ▸ .plain (fun _ => ⟨_, rfl, rfl⟩) rfl),
    .staged ((CaPublishCrl.staged host ctx).mono
      fun _ ⟨_, _, h⟩ => h ▸ .plain (fun _ => ⟨_, rfl, rfl⟩) rfl),
    .staged ((CaSignRequest.staged ctx).mono
      fun _ ⟨_, _, _, _, _, _, h⟩ => h ▸ CaSignRequest.reads host _ _),
    .staged ((CaInstallCert.staged ctx).mono
      fun _ ⟨_, _, _, _, _, _, _, _, _, h⟩ =>
        h ▸ .plain (fun _ => ⟨_, rfl, rfl⟩) rfl),
    .staged ((CaPublishTemplate.staged ctx).mono
      fun _ ⟨_, _, _, h⟩ => h ▸ .plain (fun _ => ⟨_, rfl, rfl⟩) rfl),
    .staged ((CaVerify.staged host ctx).mono
      fun _ h => h ▸ .plain (fun _ => ⟨_, rfl, rfl⟩) rfl),
    .staged ((FileRelay.read_staged rfl _ host ctx).mono
      fun _ ⟨_, _, _, h⟩ => h ▸ FileRelay.readStage_reads host _ _),
    .staged ((FileRelay.write_staged rfl _ ctx).mono
      fun _ ⟨_, _, _, _, _, _, _, h⟩ => h ▸ .plain (fun _ => ⟨_, rfl, rfl⟩) rfl),
    .staged ((DcVerify.staged host ctx).mono
      fun _ h => h ▸ .plain (fun _ => ⟨_, rfl, rfl⟩) rfl),
    .staged ((DcInstallForest.staged ctx).mono
      fun _ ⟨_, _, _, _, _, _, _, _, _, _, _, h⟩ =>
        h ▸ .plain (fun _ => ⟨_, rfl, rfl⟩) rfl),
    .staged ((DomainVerify.staged host ctx).mono
      fun _ h => h ▸ .plain (fun _ => ⟨_, rfl, rfl⟩) rfl),
    .staged ((DomainJoin.staged ctx).mono
      fun _ ⟨_, _, _, _, _, _, _, _, _, h⟩ =>
        h ▸ .plain (fun _ => ⟨_, rfl, rfl⟩) rfl),
    .staged ((SystemReboot.staged ctx).mono
      fun _ ⟨_, h⟩ => h ▸ .plain (fun _ => ⟨_, rfl, rfl⟩) rfl),
    .native _ _ rfl,
    .staged ((DnsSetClient.staged ctx).mono
      fun _ ⟨_, _, _, h⟩ => h ▸ .plain (fun _ => ⟨_, rfl, rfl⟩) rfl),
    .staged ((DnsCreateRecord.staged ctx).mono
      fun _ ⟨_, _, _, _, _, _, _, _, _, h⟩ =>
        h ▸ .plain (fun _ => ⟨_, rfl, rfl⟩) rfl),
    .staged ((DnsApplyResources.staged host ctx).mono
      fun _ ⟨_, _, _, h⟩ => h ▸ .plain (fun _ => ⟨_, rfl, rfl⟩) rfl),
    .staged ((DnsVerify.staged host ctx).mono
      fun _ ⟨_, _, _, _, _, _, _, _, _, _, _, _, _, h⟩ => h ▸ DnsVerify.reads host _ _ _ _ _),
    .staged ((CertAddStore.staged ctx).mono
      fun _ ⟨_, _, _, _, _, _, _, _, h⟩ => h ▸ .plain (fun _ => ⟨_, rfl, rfl⟩) rfl),
    .staged ((CertDsPublish.staged ctx).mono
      fun _ ⟨_, _, _, _, _, _, h⟩ => h ▸ .plain (fun _ => ⟨_, rfl, rfl⟩) rfl),
    .staged ((TemplateGrantAccess.staged host ctx).mono
      fun _ ⟨_, _, _, _, _, _, _, _, _, _, _, _, h⟩ =>
        h ▸ .plain (fun _ => ⟨_, rfl, rfl⟩) rfl),
    .staged ((IisSetupCertEnroll.staged ctx).mono
      fun _ ⟨_, _, _, _, _, _, _, h⟩ => h ▸ .plain (fun _ => ⟨_, rfl, rfl⟩) rfl),
    .staged ((OcspInstall.staged ctx).mono
      fun _ h => h ▸ .plain (fun _ => ⟨_, rfl, rfl⟩) rfl),
    .staged ((OcspConfigureRevocation.staged ctx).mono
      fun _ ⟨_, _, h⟩ => h ▸ .plain (fun _ => ⟨_, rfl, rfl⟩) rfl),
    .staged ((OcspVerify.staged host ctx).mono
      fun _ h => h ▸ .plain (fun _ => ⟨_, rfl, rfl⟩) rfl),
    .staged ((CertEnroll.staged host ctx).mono
      fun _ ⟨_, _, _, _, _, _, _, h⟩ => h ▸ .plain (fun _ => ⟨_, rfl, rfl⟩) rfl),
    .staged ((PkiVerify.staged host ctx).mono
      fun _ ⟨_, _, _, _, _, _, _, _, _, _, _, _, _, _, h⟩ =>
        h ▸ .of_gate rfl fun _ => rfl),
    .staged ((SystemIdentity.staged host ctx).mono
      fun _ h => h ▸ .of_gate rfl fun _ => rfl),
    .staged ((AptRefresh.staged ctx).mono
      fun _ h => h ▸ .plain (fun _ => ⟨_, rfl, rfl⟩) rfl),
    .staged ((CertSecureWriteHosts.staged ctx).mono
      fun _ ⟨_, _, _, h⟩ => h ▸ .plain (fun _ => ⟨_, rfl, rfl⟩) rfl),
    .staged ((CertSecureMakeCert.staged host ctx).mono
      fun _ ⟨_, _, _, _, _, _, h⟩ =>
        h ▸ .of_sound (readCert_sound host _ _ _ _) rfl),
    .staged ((CertSecureInstall.staged ctx).mono
      fun _ ⟨_, _, h⟩ => h ▸ .plain (fun _ => ⟨_, rfl, rfl⟩) rfl),
    .staged ((CertSecureHarden.staged ctx).mono
      fun _ h => h ▸ .plain (fun _ => ⟨_, rfl, rfl⟩) rfl),
    .staged ((CertSecureVerify.staged host ctx).mono
      fun _ ⟨_, _, _, _, h⟩ => h ▸ .plain (fun _ => ⟨_, rfl, rfl⟩) rfl), by simp⟩

theorem unixHandlers_read (host : Host) (ctx : Params) :
    ∀ h ∈ unixHandlers host, Handled (Reads host h.name) (h.execute ctx) := by
  simp only [unixHandlers, List.forall_mem_cons]
  refine ⟨.staged ((Linux.HostnameRead.staged ctx).mono
      fun _ h => h ▸ .plain (fun _ => ⟨_, rfl, rfl⟩) rfl),
    .staged ((Linux.SystemIdentity.staged host ctx).mono
      fun _ h => h ▸ .of_gate rfl fun _ => rfl),
    .staged ((Linux.SystemReboot.staged ctx).mono
      fun _ ⟨_, h⟩ => h ▸ .plain (fun _ => ⟨_, rfl, rfl⟩) rfl),
    .native _ _ rfl,
    .staged ((FileRelay.read_staged rfl _ host ctx).mono
      fun _ ⟨_, _, _, h⟩ => h ▸ FileRelay.readStage_reads host _ _),
    .staged ((FileRelay.write_staged rfl _ ctx).mono
      fun _ ⟨_, _, _, _, _, _, _, h⟩ =>
        h ▸ .plain (fun _ => ⟨_, rfl, rfl⟩) rfl), by simp⟩

theorem handlers_read (host : Host) (unix : Bool) (ctx : Params) :
    ∀ h ∈ handlers host unix, Handled (Reads host h.name) (h.execute ctx) := by
  intro h hm
  rcases List.mem_append.mp hm with hb | hu
  · exact baseHandlers_read host ctx h hb
  · cases unix with
    | false => exact absurd hu List.not_mem_nil
    | true => exact unixHandlers_read host ctx h hu

/-- A dispatch is refused by the gate, or it is the program of a command that
reads its output the way its name says. -/
theorem dispatch_reads (host : Host) (unix : Bool) (name : String) (role : Role)
    (params : Params) :
    (∃ e, (∀ c, e ≠ .command c) ∧
      (buildDefaultRegistry host unix).dispatch name role params = .fail e) ∨
    ∃ p, Handled (Reads host name) p ∧
      (buildDefaultRegistry host unix).dispatch name role params = p.mapErr .command := by
  rcases CommandRegistry.dispatch_cases (buildDefaultRegistry host unix) name role params with
    ⟨-, hd⟩ | ⟨h, -, -, hd⟩ | ⟨h, hl, -, hd⟩
  · exact .inl ⟨_, (fun _ hc => by cases hc), hd⟩
  · exact .inl ⟨_, (fun _ hc => by cases hc), hd⟩
  · have hname : h.name = name := (buildDefaultRegistry host unix).named hl
    have hm : h ∈ handlers host unix := by
      rw [buildDefaultRegistry, CommandRegistry.lookup_ofHistory] at hl
      exact List.mem_reverse.mp (List.mem_of_find?_eq_some hl)
    exact .inr ⟨h.execute params, hname ▸ handlers_read host unix params h hm, hd⟩

/-! ## The outcomes of a dispatch -/

/-- The script succeeded with an output of which `P` holds. -/
def ShellReply.Printed (P : PowerShellOutput → Bool) (reply : ShellReply) : Prop :=
  ∃ output, reply = .ok output ∧ output.succeeded = true ∧ P output = true

theorem ShellReply.failed_or (reply : ShellReply) :
    reply.failed = true ∨ ∃ output, reply = .ok output ∧ output.succeeded = true := by
  cases reply with
  | error e => exact .inl rfl
  | ok output =>
      cases h : output.succeeded with
      | true => exact .inr ⟨output, rfl, h⟩
      | false => exact .inl (by simp [failed, h])

theorem ShellReply.not_printed_of_failed {reply : ShellReply} (h : reply.failed = true)
    (P : PowerShellOutput → Bool) : ¬ reply.Printed P := by
  rintro ⟨output, rfl, hs, -⟩
  simp [failed, hs] at h

section Dispatches

variable (host : Host) (unix : Bool) (name : String) (role : Role) (params : Params)
  (world : List ShellCall → ShellCall → ShellReply) (past : List ShellCall)

/-- What a run of a dispatch leaves behind. -/
def outcome : Outcome OpRunState ShellCall ShellReply DispatchError Json :=
  ((buildDefaultRegistry host unix).dispatch name role params).run world past

/-- The script that the dispatch runs succeeds with an output of which `P` holds. -/
def Prints (P : PowerShellOutput → Bool) : Prop :=
  ∃ c, ((buildDefaultRegistry host unix).dispatch name role params).firstQuery = some c ∧
    (world past c).Printed P

/-- A dispatch is refused, reads the machine natively, or performs a stage of the
command. -/
theorem outcome_cases :
    ((∃ e, outcome host unix name role params world past = ⟨[], .error e⟩) ∧
      ∀ P, ¬ Prints host unix name role params world past P) ∨
    (∃ phase percent v, v.isObject = true ∧
      outcome host unix name role params world past =
        ⟨[.told (.running phase percent), .told (.done v)], .ok v⟩ ∧
      ∀ P, ¬ Prints host unix name role params world past P) ∨
    ∃ s, Reads host name s ∧
      outcome host unix name role params world past =
        ⟨s.events (world past s.call), (s.settle (world past s.call)).mapError .command⟩ ∧
      ∀ P, Prints host unix name role params world past P ↔ (world past s.call).Printed P := by
  rcases dispatch_reads host unix name role params with ⟨e, -, hd⟩ | ⟨p, hp, hd⟩
  · refine .inl ⟨⟨e, by rw [outcome, hd]; rfl⟩, ?_⟩
    rintro P ⟨c, hc, -⟩
    rw [hd] at hc
    cases hc
  · have hout : outcome host unix name role params world past =
        ⟨(p.run world past).trace, (p.run world past).result.mapError .command⟩ := by
      rw [outcome, hd, Prog.run_mapErr]
    have hprints : ∀ P, Prints host unix name role params world past P ↔
        ∃ c, p.firstQuery = some c ∧ (world past c).Printed P := by
      intro P
      rw [Prints, hd, Prog.firstQuery_mapErr]
    cases hp with
    | native phase percent ho =>
        refine .inr (.inl ⟨phase, percent, _, ho, hout, fun P h => ?_⟩)
        obtain ⟨c, hc, -⟩ := (hprints P).mp h
        cases hc
    | staged hs =>
        cases hs with
        | rejected he =>
            refine .inl ⟨⟨_, hout⟩, fun P h => ?_⟩
            obtain ⟨c, hc, -⟩ := (hprints P).mp h
            cases hc
        | @perform s hr =>
            rw [run_perform] at hout
            refine .inr (.inr ⟨s, hr, hout, fun P => ?_⟩)
            have hfirst : (perform s).firstQuery = some s.call := by
              rw [perform_eq]
              rfl
            rw [hprints, hfirst]
            simp

/-! ## Errors about parameters -/

theorem settle_garbled {s : Stage} (hr : Reads host name s) (reply : ShellReply) :
    (∃ e, s.settle reply = .error e ∧ e.isParam = true) ↔ reply.Printed (garbled host name) := by
  rcases reply.failed_or with hf | ⟨output, rfl, hs⟩
  · refine iff_of_false ?_ (ShellReply.not_printed_of_failed hf _)
    obtain ⟨e', he'⟩ := s.settle_failed hf
    rintro ⟨e, he, hparam⟩
    rw [he'] at he
    cases he
    cases hparam
  · rw [s.settle_succeeded hs, hr.blames]
    constructor
    · intro h
      exact ⟨output, rfl, hs, h⟩
    · rintro ⟨_, ⟨⟩, -, h⟩
      exact h

/-- An error about a parameter means that nothing has happened, unless the command
blames a parameter for what its script printed. -/
theorem param_error_iff :
    (∀ e, (outcome host unix name role params world past).result = .error (.command e) →
      e.isParam = true → (outcome host unix name role params world past).trace = []) ↔
    ¬ Prints host unix name role params world past (garbled host name) := by
  rcases outcome_cases host unix name role params world past with
    ⟨⟨e, ho⟩, hn⟩ | ⟨phase, percent, v, -, ho, hn⟩ | ⟨s, hr, ho, hp⟩
  · rw [ho]
    exact iff_of_true (fun _ _ _ => rfl) (hn _)
  · rw [ho]
    exact iff_of_true (fun _ h => by cases h) (hn _)
  · rw [ho, hp, ← settle_garbled host name hr]
    constructor
    · rintro h ⟨e, he, hparam⟩
      rw [he] at h
      exact absurd (h e rfl hparam) (List.cons_ne_nil _ _)
    · intro h e he hparam
      cases hs : s.settle (world past s.call) with
      | ok v => rw [hs] at he; cases he
      | error _ =>
          rw [hs] at he
          cases he
          exact absurd ⟨_, hs, hparam⟩ h

/-! ## Results -/

/-- Done states carry objects, and a result is an object that was reported. -/
structure DoneObjects (o : Outcome OpRunState ShellCall ShellReply DispatchError Json) : Prop where
  frames : ∀ m ∈ Event.messages o.trace, m.status = .done →
    ∃ v, m.result = some v ∧ v.isObject = true
  result : ∀ v, o.result = .ok v → v.isObject = true ∧ .done v ∈ Event.messages o.trace

/-- The output of the script is no JSON. -/
def unparseable (host : Host) (output : PowerShellOutput) : Bool :=
  (host.fromStr (Str.trim output.stdout)).isNone

/-- A performed stage reports and returns objects exactly if it makes no other
result. -/
theorem doneObjects_performed (s : Stage) (reply : ShellReply) :
    DoneObjects ⟨s.events reply, (s.settle reply).mapError .command⟩ ↔
      ¬ ∃ v, s.settle reply = .ok v ∧ v.isObject = false := by
  cases hs : s.settle reply with
  | error e =>
      refine iff_of_true ⟨fun m hm hd => ?_, fun v hv => by cases hv⟩
        fun ⟨_, hv, _⟩ => by cases hv
      have hmsg : Event.messages (s.events reply) = [.running s.phase s.percent] := by
        simp [Stage.events, hs, Event.messages]
      rw [hmsg, List.mem_singleton] at hm
      subst hm
      cases hd
  | ok v =>
      have hmsg : Event.messages (s.events reply) = [.running s.phase s.percent, .done v] := by
        simp [Stage.events, hs, Event.messages]
      constructor
      · rintro h ⟨_, ⟨⟩, hv⟩
        exact absurd (hv.symm.trans (h.result v rfl).1) (by decide)
      · intro h
        have hv : v.isObject = true := by
          cases hv : v.isObject with
          | true => rfl
          | false => exact absurd ⟨v, rfl, hv⟩ h
        refine ⟨fun m hm hd => ?_, ?_⟩
        · simp only [hmsg, List.mem_cons, List.not_mem_nil, or_false] at hm
          rcases hm with rfl | rfl
          · cases hd
          · exact ⟨v, rfl, hv⟩
        · rintro _ ⟨⟩
          exact ⟨hv, by simp [hmsg]⟩

theorem parseJson_of_unparseable {host : Host} {output : PowerShellOutput}
    (h : unparseable host output = true) : parseJson host output.stdout = .null := by
  rw [parseJson, Option.isNone_iff_eq_none.mp h]
  rfl

theorem gate_unparseable {s : Stage} (hr : Reads host name s) (hg : name ∈ gates)
    {reply : ShellReply} (h : reply.Printed (unparseable host)) :
    ∃ e, s.settle reply = .error e := by
  obtain ⟨output, rfl, hs, hu⟩ := h
  rw [s.settle_succeeded hs, hr.gate hg]
  cases ho : readObject host name output with
  | error e => exact ⟨e, rfl⟩
  | ok v =>
      obtain ⟨hv, hobj⟩ := readObject_ok ho
      rw [hv, parseJson_of_unparseable hu] at hobj
      cases hobj

theorem settle_shapeless {s : Stage} (hr : Reads host name s) (reply : ShellReply) :
    (∃ v, s.settle reply = .ok v ∧ v.isObject = false) ↔
      reply.Printed (shapeless host name) := by
  rcases reply.failed_or with hf | ⟨output, rfl, hs⟩
  · refine iff_of_false ?_ (ShellReply.not_printed_of_failed hf _)
    obtain ⟨e, he⟩ := s.settle_failed hf
    rintro ⟨v, hv, -⟩
    rw [he] at hv
    cases hv
  · rw [s.settle_succeeded hs, hr.shape]
    constructor
    · intro h
      exact ⟨output, rfl, hs, h⟩
    · rintro ⟨_, ⟨⟩, -, h⟩
      exact h

theorem shapeless_of_unparseable {output : PowerShellOutput} (h : unparseable host output = true) :
    shapeless host "dns.verify" output = true := by
  show (!(parseJson host output.stdout).isObject) = true
  rw [parseJson_of_unparseable h]
  rfl

/-- Every done state and every result is an object, and the gates fail on what is
no JSON, exactly if `dns.verify` gets an object where it gets an output. -/
theorem done_object_iff :
    (DoneObjects (outcome host unix name role params world past) ∧
      (name ∈ "dns.verify" :: gates →
        Prints host unix name role params world past (unparseable host) →
        ∃ e, (outcome host unix name role params world past).result = .error e)) ↔
    ¬ Prints host unix name role params world past (shapeless host name) := by
  rcases outcome_cases host unix name role params world past with
    ⟨⟨e, ho⟩, hn⟩ | ⟨phase, percent, v, hv, ho, hn⟩ | ⟨s, hr, ho, hp⟩
  · rw [ho]
    exact iff_of_true ⟨⟨nofun, nofun⟩, fun _ h => absurd h (hn _)⟩ (hn _)
  · rw [ho]
    refine iff_of_true ⟨⟨fun m hm hd => ?_, ?_⟩, fun _ h => absurd h (hn _)⟩ (hn _)
    · simp only [Event.messages, List.mem_cons, List.not_mem_nil, or_false] at hm
      rcases hm with rfl | rfl
      · cases hd
      · exact ⟨v, rfl, hv⟩
    · rintro _ ⟨⟩
      exact ⟨hv, by simp [Event.messages]⟩
  · rw [ho, hp, hp, doneObjects_performed, settle_shapeless host name hr]
    refine ⟨fun h => h.1, fun h => ⟨h, fun hg hu => ?_⟩⟩
    rcases List.mem_cons.mp hg with rfl | hg
    · obtain ⟨output, hreply, hs, hout⟩ := hu
      exact absurd ⟨output, hreply, hs, shapeless_of_unparseable host hout⟩ h
    · obtain ⟨e, he⟩ := gate_unparseable host name hr hg hu
      exact ⟨_, by rw [he]; rfl⟩

theorem outcome_of_accepted {h : CommandHandler} {P : Stage → Prop}
    (hl : (buildDefaultRegistry host unix).handlers.lookup name = some h)
    (hr : role.has h.requiredCapability = true) (hs : Staged P (h.execute params))
    (ha : (h.execute params).failed = false) :
    ∃ s, P s ∧ outcome host unix name role params world past =
      ⟨s.events (world past s.call), (s.settle (world past s.call)).mapError .command⟩ := by
  rw [outcome, CommandRegistry.dispatch_of_allowed hl hr, Prog.run_mapErr]
  generalize h.execute params = p at hs ha ⊢
  cases hs with
  | rejected he => cases ha
  | @perform s hP => exact ⟨s, hP, by rw [run_perform]⟩

end Dispatches

/-! ## Where they fail -/

/-- A read whose script prints nothing is an error about the path. -/
theorem param_error_after_run :
    ¬ ∀ (host : Host) (unix : Bool) (name : String) (role : Role) (params : Params)
      (world : List ShellCall → ShellCall → ShellReply) (past : List ShellCall) (e : CommandError),
      (outcome host unix name role params world past).result = .error (.command e) →
      e.isParam = true → (outcome host unix name role params world past).trace = [] := by
  intro hall
  have hl : (buildDefaultRegistry .idle false).handlers.lookup "file.read" =
      some (FileRead.handler .idle) := by
    rw [buildDefaultRegistry, CommandRegistry.lookup_ofHistory]
    rfl
  obtain ⟨s, ⟨path, -, -, rfl⟩, ho⟩ := outcome_of_accepted .idle false "file.read" .guest
    [("path", "C:\\Transfer\\ca.req")] quietShell [] hl (by decide)
    (FileRelay.read_staged rfl FileRead.script .idle _) (by decide)
  have h := hall .idle false "file.read" .guest [("path", "C:\\Transfer\\ca.req")] quietShell []
    (invalid "path" "file could not be read") (by rw [ho]; rfl) rfl
  rw [ho] at h
  cases h

def oneRecord : String :=
  "[\x7b\"id\":\"pki\",\"kind\":\"A\",\"zone\":\"example.com\",\"name\":\"pki\"," ++
  "\"value\":\"10.0.0.5\"\x7d]"

def oneRecordPayload : Json :=
  .arr [.obj [("id", .str "pki"), ("kind", .str "A"), ("zone", .str "example.com"),
    ("name", .str "pki"), ("value", .str "10.0.0.5")]]

/-- A host that parses that text and nothing else. -/
def oneRecordHost : Host :=
  { Host.idle with fromStr := fun text => if text = oneRecord then some oneRecordPayload else none }

/-- A DNS verification whose script prints nothing succeeds with `null`. -/
theorem dns_verify_passes_null :
    ¬ ∀ (host : Host) (unix : Bool) (name : String) (role : Role) (params : Params)
      (world : List ShellCall → ShellCall → ShellReply) (past : List ShellCall) (v : Json),
      (outcome host unix name role params world past).result = .ok v → v.isObject = true := by
  intro hall
  have hl : (buildDefaultRegistry oneRecordHost true).handlers.lookup "dns.verify" =
      some (DnsVerify.handler oneRecordHost) := by
    rw [buildDefaultRegistry, CommandRegistry.lookup_ofHistory]
    rfl
  obtain ⟨s, ⟨_, _, _, _, _, _, -, -, -, -, -, -, -, rfl⟩, ho⟩ :=
    outcome_of_accepted oneRecordHost true "dns.verify" .operator
      [("records", oneRecord), ("server", "10.0.0.1")] quietShell [] hl (by decide)
      (DnsVerify.staged oneRecordHost _) (by decide)
  have hnull : parseJson oneRecordHost "" = .null := by
    have htrim : Str.trim "" = "" := by decide
    have hnone : oneRecordHost.fromStr "" = none := by
      show (if "" = oneRecord then some oneRecordPayload else none) = none
      rw [if_neg (by decide)]
    rw [parseJson, htrim, hnone]
    rfl
  have h := hall oneRecordHost true "dns.verify" .operator
    [("records", oneRecord), ("server", "10.0.0.1")] quietShell [] .null
    (by rw [ho]; exact congrArg Except.ok hnull)
  cases h

end PkiExecutor
