/-
# `PkiExecutor.Catalog` — the default registry

`build_default_registry` registers forty-two handlers on every platform and, on
unix, six more over names that are already there (`commands/mod.rs`).

`entries` is the catalog as a table that mentions no handler: a name, the
capability it takes, and where the text of the script comes from.  `handled`
says, once for the whole catalog, that every handler agrees with its entry: it
rejects its parameters, or reads the machine natively, or performs one stage
whose script is the one the entry gives.
-/
import PkiExecutor.Commands.Ca
import PkiExecutor.Commands.Cert
import PkiExecutor.Commands.CertSecure
import PkiExecutor.Commands.Directory
import PkiExecutor.Commands.Dns
import PkiExecutor.Commands.ExecArbitrary
import PkiExecutor.Commands.Hostname
import PkiExecutor.Commands.Ip
import PkiExecutor.Commands.Linux
import PkiExecutor.Commands.Web

namespace PkiExecutor

/-! ## Registration -/

section Handlers

variable (host : Host)

/-- What every platform registers, in order. -/
def baseHandlers : List CommandHandler :=
  [HostnameRename.handler, HostnameRead.handler, CertVerify.handler host, ExecArbitrary.handler,
    IpRead.handler host, IpWrite.handler, CaInstall.handler, CaConfigureSettings.handler,
    CaConfigureCdpAia.handler, CaPublishCrl.handler host, CaSignRequest.handler,
    CaInstallCert.handler, CaPublishTemplate.handler, CaVerify.handler host,
    FileRead.handler host, FileWrite.handler, DcVerify.handler host, DcInstallForest.handler,
    DomainVerify.handler host, DomainJoin.handler, SystemReboot.handler,
    SystemBootInfo.handler host, DnsSetClient.handler, DnsCreateRecord.handler,
    DnsApplyResources.handler host, DnsVerify.handler host, CertAddStore.handler,
    CertDsPublish.handler, TemplateGrantAccess.handler host, IisSetupCertEnroll.handler,
    OcspInstall.handler, OcspConfigureRevocation.handler, OcspVerify.handler host,
    CertEnroll.handler host, PkiVerify.handler host, SystemIdentity.handler host,
    AptRefresh.handler, CertSecureWriteHosts.handler, CertSecureMakeCert.handler host,
    CertSecureInstall.handler, CertSecureHarden.handler, CertSecureVerify.handler host]

/-- What unix registers after that. -/
def unixHandlers : List CommandHandler :=
  [Linux.HostnameRead.handler, Linux.SystemIdentity.handler host, Linux.SystemReboot.handler,
    Linux.SystemBootInfo.handler host, Linux.FileRead.handler host, Linux.FileWrite.handler]

/-- All registrations of a platform, in their order. -/
def handlers (unix : Bool) : List CommandHandler :=
  baseHandlers host ++ if unix then unixHandlers host else []

/-- `build_default_registry`: on unix the overrides are registered last. -/
def buildDefaultRegistry (unix : Bool) : CommandRegistry := .ofHistory (handlers host unix)

end Handlers

/-! ## The shape of a handler -/

/-- A staged program, or a native read. -/
inductive Handled (P : Stage → Prop) : Exec Json → Prop
  | staged {p : Exec Json} : Staged P p → Handled P p
  | native (phase : String) (percent : Nat) {result : Json} : result.isObject = true →
      Handled P (performNative phase percent result)

/-- The events of one stage against the reply its call gets. -/
def Stage.events (s : Stage) (reply : ShellReply) : List (Event OpRunState ShellCall ShellReply) :=
  .told (.running s.phase s.percent) :: .asked s.call reply ::
    match s.settle reply with
    | .ok v => [.told (.done v)]
    | .error _ => []

/-- What a run of a handler can leave: nothing and a parameter error, a native
read, or the events of one stage. -/
inductive HandledOutcome (P : Stage → Prop) (world : List ShellCall → ShellCall → ShellReply)
    (past : List ShellCall) : Outcome OpRunState ShellCall ShellReply CommandError Json → Prop
  | rejected {e : CommandError} : e.isParam = true → HandledOutcome P world past ⟨[], .error e⟩
  | native (phase : String) (percent : Nat) {result : Json} : result.isObject = true →
      HandledOutcome P world past
        ⟨[.told (.running phase percent), .told (.done result)], .ok result⟩
  | performed {s : Stage} : P s → HandledOutcome P world past
      ⟨s.events (world past s.call), s.settle (world past s.call)⟩

theorem run_conclude (world : List ShellCall → ShellCall → ShellReply) (past : List ShellCall) :
    ∀ r : Except CommandError Json, (conclude r).run world past =
      ⟨match r with | .ok v => [.told (.done v)] | .error _ => [], r⟩
  | .ok _ => rfl
  | .error _ => rfl

theorem run_perform (world : List ShellCall → ShellCall → ShellReply) (past : List ShellCall)
    (s : Stage) : (perform s).run world past =
      ⟨s.events (world past s.call), s.settle (world past s.call)⟩ := by
  rw [perform_eq]
  simp only [Prog.run, run_conclude]
  rfl

theorem Stage.exchanges_events (s : Stage) (reply : ShellReply) :
    Event.exchanges (s.events reply) = [(s.call, reply)] := by
  simp only [Stage.events, Event.exchanges]
  cases s.settle reply <;> rfl

theorem queries_perform (world : List ShellCall → ShellCall → ShellReply) (past : List ShellCall)
    (s : Stage) : Event.queries ((perform s).run world past).trace = [s.call] := by
  rw [run_perform, Event.queries, s.exchanges_events]
  rfl

theorem Handled.run {P : Stage → Prop} {p : Exec Json} (h : Handled P p)
    (world : List ShellCall → ShellCall → ShellReply) (past : List ShellCall) :
    HandledOutcome P world past (p.run world past) := by
  cases h with
  | staged hs =>
      cases hs with
      | rejected he => exact .rejected he
      | perform hP => rw [run_perform]; exact .performed hP
  | native phase percent ho => exact .native phase percent ho

theorem Handled.queries {P : Stage → Prop} {p : Exec Json} (h : Handled P p)
    (world : List ShellCall → ShellCall → ShellReply) (past : List ShellCall) :
    Event.queries (p.run world past).trace = [] ∨
      ∃ s, P s ∧ Event.queries (p.run world past).trace = [s.call] := by
  cases h with
  | native phase percent ho => exact .inl rfl
  | staged hs =>
      cases hs with
      | rejected he => exact .inl rfl
      | @perform s hP => exact .inr ⟨s, hP, queries_perform world past s⟩

theorem Handled.mem_queries {P : Stage → Prop} {p : Exec Json} (h : Handled P p)
    {world : List ShellCall → ShellCall → ShellReply} {past : List ShellCall} {c : ShellCall}
    (hc : c ∈ Event.queries (p.run world past).trace) : ∃ s, P s ∧ c = s.call := by
  rcases h.queries world past with hq | ⟨s, hs, hq⟩
  · rw [hq] at hc
    exact absurd hc List.not_mem_nil
  · rw [hq] at hc
    exact ⟨s, hs, List.mem_singleton.mp hc⟩

/-! ## The catalog as a table -/

/-- The verdict of `ca.install` on its tier. -/
def isIssuing (ctx : Params) : Bool := (param ctx "caType").getD "Root" == "Issuing"

/-- Where the text of a command's script comes from. -/
inductive Scripting
  | fixed (script : String)
  | byTier (root issuing : String)
  /-- no script at all -/
  | native
  /-- the `script` parameter -/
  | parameter

namespace Scripting

/-- The text the command runs, given its parameters. -/
def text (ctx : Params) : Scripting → Option String
  | fixed s => some s
  | byTier root issuing => some (if isIssuing ctx then issuing else root)
  | native => none
  | parameter => param ctx "script"

/-- The texts that no parameter contributes to. -/
def texts : Scripting → List String
  | fixed s => [s]
  | byTier root issuing => [root, issuing]
  | native => []
  | parameter => []

end Scripting

/-- What the table says of a command. -/
structure Entry where
  name : String
  capability : Capability
  scripting : Scripting

/-- The table of the commands that every platform has. -/
def baseEntries : List Entry :=
  [⟨"hostname.rename", .vmUpdate, .fixed HostnameRename.script⟩,
    ⟨"hostname.read", .vmRead, .fixed HostnameRead.script⟩,
    ⟨"cert.verify", .vmRead, .fixed CertVerify.script⟩,
    ⟨"powershell.exec_arbitrary", .vmExecArbitrary, .parameter⟩,
    ⟨"ip.read", .vmRead, .fixed IpRead.script⟩,
    ⟨"ip.write", .vmUpdate, .fixed IpWrite.script⟩,
    ⟨"ca.install", .vmProvision, .byTier CaInstall.rootScript CaInstall.issuingScript⟩,
    ⟨"ca.configure_settings", .vmProvision, .fixed CaConfigureSettings.script⟩,
    ⟨"ca.configure_cdp_aia", .vmProvision, .fixed CaConfigureCdpAia.script⟩,
    ⟨"ca.publish_crl", .vmProvision, .fixed CaPublishCrl.script⟩,
    ⟨"ca.sign_request", .vmProvision, .fixed CaSignRequest.script⟩,
    ⟨"ca.install_cert", .vmProvision, .fixed CaInstallCert.installCertScript⟩,
    ⟨"ca.publish_template", .vmProvision, .fixed CaPublishTemplate.script⟩,
    ⟨"ca.verify", .vmRead, .fixed CaVerify.script⟩,
    ⟨"file.read", .vmProvision, .fixed FileRead.script⟩,
    ⟨"file.write", .vmProvision, .fixed FileWrite.script⟩,
    ⟨"dc.verify", .vmRead, .fixed DcVerify.script⟩,
    ⟨"dc.install_forest", .vmProvision, .fixed DcInstallForest.script⟩,
    ⟨"domain.verify", .vmRead, .fixed DomainVerify.script⟩,
    ⟨"domain.join", .vmProvision, .fixed DomainJoin.script⟩,
    ⟨"system.reboot", .vmProvision, .fixed SystemReboot.script⟩,
    ⟨"system.boot_info", .vmRead, .native⟩,
    ⟨"dns.set_client", .vmProvision, .fixed DnsSetClient.script⟩,
    ⟨"dns.create_record", .vmProvision, .fixed DnsCreateRecord.script⟩,
    ⟨"dns.apply_resources", .vmProvision, .fixed DnsApplyResources.script⟩,
    ⟨"dns.verify", .vmRead, .fixed DnsVerify.script⟩,
    ⟨"cert.addstore", .vmProvision, .fixed CertAddStore.script⟩,
    ⟨"cert.dspublish", .vmProvision, .fixed CertDsPublish.script⟩,
    ⟨"template.grant_access", .vmProvision, .fixed TemplateGrantAccess.grantAccessScript⟩,
    ⟨"iis.setup_certenroll", .vmProvision, .fixed IisSetupCertEnroll.script⟩,
    ⟨"ocsp.install", .vmProvision, .fixed OcspInstall.script⟩,
    ⟨"ocsp.configure_revocation", .vmProvision, .fixed OcspConfigureRevocation.script⟩,
    ⟨"ocsp.verify", .vmRead, .fixed OcspVerify.script⟩,
    ⟨"cert.enroll", .vmProvision, .fixed CertEnroll.script⟩,
    ⟨"pki.verify", .vmRead, .fixed PkiVerify.script⟩,
    ⟨"system.identity", .vmRead, .fixed SystemIdentity.script⟩,
    ⟨"apt.refresh", .vmProvision, .fixed AptRefresh.script⟩,
    ⟨"certsecure.write_hosts", .vmProvision, .fixed CertSecureWriteHosts.script⟩,
    ⟨"certsecure.make_cert", .vmProvision, .fixed CertSecureMakeCert.script⟩,
    ⟨"certsecure.install", .vmProvision, .fixed CertSecureInstall.script⟩,
    ⟨"certsecure.harden", .vmProvision, .fixed CertSecureHarden.script⟩,
    ⟨"certsecure.verify", .vmRead, .fixed CertSecureVerify.script⟩]

/-- The overrides of unix. -/
def unixEntries : List Entry :=
  [⟨"hostname.read", .vmRead, .fixed Linux.HostnameRead.script⟩,
    ⟨"system.identity", .vmRead, .fixed Linux.SystemIdentity.script⟩,
    ⟨"system.reboot", .vmProvision, .fixed Linux.SystemReboot.script⟩,
    ⟨"system.boot_info", .vmRead, .native⟩,
    ⟨"file.read", .vmProvision, .fixed Linux.FileRead.script⟩,
    ⟨"file.write", .vmProvision, .fixed Linux.FileWrite.script⟩]

/-- The table of a platform. -/
def entries (unix : Bool) : List Entry := baseEntries ++ if unix then unixEntries else []

/-- The handler does what its entry says. -/
structure Entry.Describes (e : Entry) (h : CommandHandler) : Prop where
  name_eq : h.name = e.name
  capability_eq : h.requiredCapability = e.capability
  handled : ∀ ctx, Handled (fun s => e.scripting.text ctx = some s.script) (h.execute ctx)

theorem Entry.Describes.fixed {e : Entry} {h : CommandHandler} {script : String}
    {P : Params → Stage → Prop} (hn : h.name = e.name) (hc : h.requiredCapability = e.capability)
    (he : e.scripting = .fixed script) (hs : ∀ ctx, Staged (P ctx) (h.execute ctx))
    (hP : ∀ ctx s, P ctx s → s.script = script) : e.Describes h := by
  refine ⟨hn, hc, fun ctx => .staged ((hs ctx).mono fun s h => ?_)⟩
  rw [he]
  exact congrArg some (hP ctx s h).symm

theorem caInstall_describes :
    Entry.Describes
      ⟨"ca.install", .vmProvision, .byTier CaInstall.rootScript CaInstall.issuingScript⟩
      CaInstall.handler := by
  refine ⟨rfl, rfl, fun ctx => .staged ((CaInstall.staged ctx).mono ?_)⟩
  rintro s ⟨commonName, crypto, years, -, ⟨ht, rfl⟩ | ⟨i, password, ht, -, -, -, -, rfl⟩⟩
  · simp [Scripting.text, isIssuing, ht]; rfl
  · simp [Scripting.text, isIssuing, ht]; rfl

theorem execArbitrary_describes :
    Entry.Describes ⟨"powershell.exec_arbitrary", .vmExecArbitrary, .parameter⟩
      ExecArbitrary.handler := by
  refine ⟨rfl, rfl, fun ctx => .staged ((ExecArbitrary.staged ctx).mono ?_)⟩
  rintro s ⟨script, hs, rfl⟩
  exact hs

theorem baseEntries_describe (host : Host) :
    List.Forall₂ Entry.Describes baseEntries (baseHandlers host) := by
  refine .cons (.fixed rfl rfl rfl HostnameRename.staged fun _ _ ⟨_, _, _, h⟩ => h ▸ rfl) ?_
  refine .cons (.fixed rfl rfl rfl HostnameRead.staged fun _ _ h => h ▸ rfl) ?_
  refine .cons (.fixed rfl rfl rfl (CertVerify.staged host)
    fun _ _ ⟨_, _, _, _, _, _, _, h⟩ => h ▸ rfl) ?_
  refine .cons execArbitrary_describes ?_
  refine .cons (.fixed rfl rfl rfl (IpRead.staged host) fun _ _ h => h ▸ rfl) ?_
  refine .cons (.fixed rfl rfl rfl IpWrite.staged fun _ _ ⟨_, _, _, _, _, h⟩ => h ▸ rfl) ?_
  refine .cons caInstall_describes ?_
  refine .cons (.fixed rfl rfl rfl CaConfigureSettings.staged fun _ _ ⟨_, _, h⟩ => h ▸ rfl) ?_
  refine .cons (.fixed rfl rfl rfl CaConfigureCdpAia.staged
    fun _ _ ⟨_, _, _, _, _, _, h⟩ => h ▸ rfl) ?_
  refine .cons (.fixed rfl rfl rfl (CaPublishCrl.staged host) fun _ _ ⟨_, _, h⟩ => h ▸ rfl) ?_
  refine .cons (.fixed rfl rfl rfl CaSignRequest.staged fun _ _ ⟨_, _, _, _, _, _, h⟩ => h ▸ rfl) ?_
  refine .cons (.fixed rfl rfl rfl CaInstallCert.staged
    fun _ _ ⟨_, _, _, _, _, _, _, _, _, h⟩ => h ▸ rfl) ?_
  refine .cons (.fixed rfl rfl rfl CaPublishTemplate.staged fun _ _ ⟨_, _, _, h⟩ => h ▸ rfl) ?_
  refine .cons (.fixed rfl rfl rfl (CaVerify.staged host) fun _ _ h => h ▸ rfl) ?_
  refine .cons (.fixed rfl rfl rfl (FileRelay.read_staged rfl _ host)
    fun _ _ ⟨_, _, _, h⟩ => h ▸ rfl) ?_
  refine .cons (.fixed rfl rfl rfl (FileRelay.write_staged rfl _)
    fun _ _ ⟨_, _, _, _, _, _, _, h⟩ => h ▸ rfl) ?_
  refine .cons (.fixed rfl rfl rfl (DcVerify.staged host) fun _ _ h => h ▸ rfl) ?_
  refine .cons (.fixed rfl rfl rfl DcInstallForest.staged
    fun _ _ ⟨_, _, _, _, _, _, _, _, _, _, _, h⟩ => h ▸ rfl) ?_
  refine .cons (.fixed rfl rfl rfl (DomainVerify.staged host) fun _ _ h => h ▸ rfl) ?_
  refine .cons (.fixed rfl rfl rfl DomainJoin.staged
    fun _ _ ⟨_, _, _, _, _, _, _, _, _, h⟩ => h ▸ rfl) ?_
  refine .cons (.fixed rfl rfl rfl SystemReboot.staged fun _ _ ⟨_, h⟩ => h ▸ rfl) ?_
  refine .cons ⟨rfl, rfl, fun _ => .native _ _ rfl⟩ ?_
  refine .cons (.fixed rfl rfl rfl DnsSetClient.staged fun _ _ ⟨_, _, _, h⟩ => h ▸ rfl) ?_
  refine .cons (.fixed rfl rfl rfl DnsCreateRecord.staged
    fun _ _ ⟨_, _, _, _, _, _, _, _, _, h⟩ => h ▸ rfl) ?_
  refine .cons (.fixed rfl rfl rfl (DnsApplyResources.staged host)
    fun _ _ ⟨_, _, _, h⟩ => h ▸ rfl) ?_
  refine .cons (.fixed rfl rfl rfl (DnsVerify.staged host)
    fun _ _ ⟨_, _, _, _, _, _, _, _, _, _, _, _, _, h⟩ => h ▸ rfl) ?_
  refine .cons (.fixed rfl rfl rfl CertAddStore.staged
    fun _ _ ⟨_, _, _, _, _, _, _, _, h⟩ => h ▸ rfl) ?_
  refine .cons (.fixed rfl rfl rfl CertDsPublish.staged fun _ _ ⟨_, _, _, _, _, _, h⟩ => h ▸ rfl) ?_
  refine .cons (.fixed rfl rfl rfl (TemplateGrantAccess.staged host)
    fun _ _ ⟨_, _, _, _, _, _, _, _, _, _, _, _, h⟩ => h ▸ rfl) ?_
  refine .cons (.fixed rfl rfl rfl IisSetupCertEnroll.staged
    fun _ _ ⟨_, _, _, _, _, _, _, h⟩ => h ▸ rfl) ?_
  refine .cons (.fixed rfl rfl rfl OcspInstall.staged fun _ _ h => h ▸ rfl) ?_
  refine .cons (.fixed rfl rfl rfl OcspConfigureRevocation.staged fun _ _ ⟨_, _, h⟩ => h ▸ rfl) ?_
  refine .cons (.fixed rfl rfl rfl (OcspVerify.staged host) fun _ _ h => h ▸ rfl) ?_
  refine .cons (.fixed rfl rfl rfl (CertEnroll.staged host)
    fun _ _ ⟨_, _, _, _, _, _, _, h⟩ => h ▸ rfl) ?_
  refine .cons (.fixed rfl rfl rfl (PkiVerify.staged host)
    fun _ _ ⟨_, _, _, _, _, _, _, _, _, _, _, _, _, _, h⟩ => h ▸ rfl) ?_
  refine .cons (.fixed rfl rfl rfl (SystemIdentity.staged host) fun _ _ h => h ▸ rfl) ?_
  refine .cons (.fixed rfl rfl rfl AptRefresh.staged fun _ _ h => h ▸ rfl) ?_
  refine .cons (.fixed rfl rfl rfl CertSecureWriteHosts.staged fun _ _ ⟨_, _, _, h⟩ => h ▸ rfl) ?_
  refine .cons (.fixed rfl rfl rfl (CertSecureMakeCert.staged host)
    fun _ _ ⟨_, _, _, _, _, _, h⟩ => h ▸ rfl) ?_
  refine .cons (.fixed rfl rfl rfl CertSecureInstall.staged fun _ _ ⟨_, _, h⟩ => h ▸ rfl) ?_
  refine .cons (.fixed rfl rfl rfl CertSecureHarden.staged fun _ _ h => h ▸ rfl) ?_
  refine .cons (.fixed rfl rfl rfl (CertSecureVerify.staged host)
    fun _ _ ⟨_, _, _, _, h⟩ => h ▸ rfl) ?_
  exact .nil

theorem unixEntries_describe (host : Host) :
    List.Forall₂ Entry.Describes unixEntries (unixHandlers host) := by
  refine .cons (.fixed rfl rfl rfl Linux.HostnameRead.staged fun _ _ h => h ▸ rfl) ?_
  refine .cons (.fixed rfl rfl rfl (Linux.SystemIdentity.staged host) fun _ _ h => h ▸ rfl) ?_
  refine .cons (.fixed rfl rfl rfl Linux.SystemReboot.staged fun _ _ ⟨_, h⟩ => h ▸ rfl) ?_
  refine .cons ⟨rfl, rfl, fun _ => .native _ _ rfl⟩ ?_
  refine .cons (.fixed rfl rfl rfl (FileRelay.read_staged rfl _ host)
    fun _ _ ⟨_, _, _, h⟩ => h ▸ rfl) ?_
  refine .cons (.fixed rfl rfl rfl (FileRelay.write_staged rfl _)
    fun _ _ ⟨_, _, _, _, _, _, _, h⟩ => h ▸ rfl) ?_
  exact .nil

theorem entries_describe (host : Host) (unix : Bool) :
    List.Forall₂ Entry.Describes (entries unix) (handlers host unix) := by
  cases unix with
  | false => simpa [entries, handlers] using baseEntries_describe host
  | true => exact List.rel_append (baseEntries_describe host) (unixEntries_describe host)

/-! ## Dispatch in the default registry -/

/-- The entry in force under a name: the last of that name. -/
def entryOf (unix : Bool) (name : String) : Option Entry :=
  (entries unix).reverse.find? (·.name == name)

theorem find?_of_forall₂ {α β : Type} {R : α → β → Prop} {p : α → Bool} {q : β → Bool}
    (hpq : ∀ a b, R a b → p a = q b) : ∀ {as : List α} {bs : List β}, List.Forall₂ R as bs →
    ∀ {b : β}, bs.find? q = some b → ∃ a, as.find? p = some a ∧ R a b
  | _, _, .nil, _, h => by simp at h
  | a :: as, b' :: bs, .cons hr hrs, b, h => by
      -- the heads are both found or both passed over
      cases hq : q b' with
      | true =>
          obtain rfl : b' = b := by simpa [List.find?_cons, hq] using h
          exact ⟨a, by simp [hpq a b' hr, hq], hr⟩
      | false =>
          have hrest : bs.find? q = some b := by simpa [List.find?_cons, hq] using h
          obtain ⟨a', ha, hR⟩ := find?_of_forall₂ hpq hrs hrest
          exact ⟨a', by simpa [List.find?_cons, hpq a b' hr, hq] using ha, hR⟩

theorem lookup_default {host : Host} {unix : Bool} {name : String} {h : CommandHandler}
    (hl : (buildDefaultRegistry host unix).handlers.lookup name = some h) :
    ∃ e, entryOf unix name = some e ∧ e.Describes h := by
  rw [buildDefaultRegistry, CommandRegistry.lookup_ofHistory] at hl
  exact find?_of_forall₂ (fun e h hd => by rw [hd.name_eq])
    (List.forall₂_reverse_iff.mpr (entries_describe host unix)) hl

/-- A dispatch is refused by the gate, or it is the program of a handler whose
entry the role may use. -/
theorem dispatch_default (host : Host) (unix : Bool) (name : String) (role : Role)
    (params : Params) :
    (∃ e, (buildDefaultRegistry host unix).dispatch name role params = .fail e) ∨
    ∃ e p, entryOf unix name = some e ∧ role.has e.capability = true ∧
      Handled (fun s => e.scripting.text params = some s.script) p ∧
      (buildDefaultRegistry host unix).dispatch name role params = p.mapErr .command := by
  rcases CommandRegistry.dispatch_cases (buildDefaultRegistry host unix) name role params with
    ⟨-, hd⟩ | ⟨h, -, -, hd⟩ | ⟨h, hl, hr, hd⟩
  · exact .inl ⟨_, hd⟩
  · exact .inl ⟨_, hd⟩
  · obtain ⟨e, he, hdesc⟩ := lookup_default hl
    exact .inr ⟨e, h.execute params, he, hdesc.capability_eq ▸ hr, hdesc.handled params, hd⟩

end PkiExecutor
