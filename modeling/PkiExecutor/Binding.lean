/-
# `PkiExecutor.Binding` — arguments that bind to their positions

`powershell.exe -File` takes an argument that begins with `-` for a parameter's
name instead of binding it to its position.  Most validators exclude such a
value; some let it through.  `forwarded` names, command by command, the parameter
values whose validator lets a leading dash through, and `call_binds_iff` says
that these are exactly the ones to watch: the arguments of a call all bind if and
only if none of the forwarded values begins with a dash.

First the validators, then the commands, then the catalog.
-/
import PkiExecutor.Catalog

namespace PkiExecutor

open Str (dashed)

/-- Every argument binds to its position. -/
def Binds (args : List String) : Prop := ∀ a ∈ args, dashed a = false

instance (args : List String) : Decidable (Binds args) :=
  inferInstanceAs (Decidable (∀ a ∈ args, dashed a = false))

@[simp] theorem binds_nil : Binds [] ↔ True := by simp [Binds]

@[simp] theorem binds_cons {a : String} {args : List String} :
    Binds (a :: args) ↔ dashed a = false ∧ Binds args := List.forall_mem_cons

/-! ## Validators that exclude a leading dash -/

theorem validSecret_undashed {v : String} (h : validSecret v = true) : dashed v = false := by
  simp only [validSecret, Bool.and_eq_true, Bool.not_eq_true'] at h
  exact h.1.2

theorem validUsername_undashed {v : String} (h : validUsername v = true) : dashed v = false := by
  simp only [validUsername, Bool.and_eq_true, Bool.not_eq_true'] at h
  exact h.2

theorem validWindowsPath_undashed {p : String} (h : validWindowsPath p = true) :
    dashed p = false := by
  unfold validWindowsPath at h
  split at h
  · rename_i drive chars hp
    simp only [Bool.and_eq_true] at h
    refine Str.not_dashed_of_head (c := drive) (by simp [hp]) ?_
    rintro rfl
    exact absurd h.1.1 (by decide)
  · cases h

theorem validPosixPath_undashed {p : String} (h : validPosixPath p = true) : dashed p = false := by
  unfold validPosixPath at h
  split at h
  · rename_i chars hp
    exact Str.not_dashed_of_head (c := '/') (by simp [hp]) (by decide)
  · cases h

theorem validDnsLabel_undashed {l : String} (h : validDnsLabel l = true) :
    l ≠ "" ∧ dashed l = false := by
  simp only [validDnsLabel, Bool.and_eq_true, Bool.not_eq_true'] at h
  exact ⟨fun he => absurd h.1.1.1.1 (by simp [he]), h.1.2⟩

theorem stripSuffix_prefix {s t r : String} (h : Str.stripSuffix s t = some r) :
    r.toList <+: s.toList := by
  unfold Str.stripSuffix at h
  split at h
  · cases h
    simpa using List.take_prefix _ _
  · cases h

theorem validDnsName_undashed {n : String} (h : validDnsName n = true) : dashed n = false := by
  simp only [validDnsName, Bool.and_eq_true, Bool.not_eq_true'] at h
  obtain ⟨⟨hne, -⟩, hl⟩ := h
  have hpre : ((Str.stripSuffix n ".").getD n).toList <+: n.toList := by
    cases hs : Str.stripSuffix n "." with
    | none => exact List.prefix_rfl
    | some r => exact stripSuffix_prefix hs
  generalize (Str.stripSuffix n ".").getD n = m at hne hl hpre
  have hm : m ≠ "" := fun he => by simp [he] at hne
  rw [Str.dashed_of_prefix hpre hm]
  obtain ⟨x, xs, hx⟩ := List.exists_cons_of_ne_nil (Str.split_ne_nil m '.')
  rw [hx, List.all_cons, Bool.and_eq_true] at hl
  obtain ⟨hxe, hxd⟩ := validDnsLabel_undashed hl.1
  rw [Str.dashed_of_split hx hxe, hxd]

theorem validIpv4Addr_undashed {s : String} (h : validIpv4Addr s = true) : dashed s = false := by
  obtain ⟨os, ho⟩ := Option.isSome_iff_exists.mp h
  exact Str.not_dashed_of_parseIpv4 ho

theorem parsed_undashed {max : Nat} {s : String} {p : Nat → Bool}
    (h : (match Str.parseUnsigned max s with | some n => p n | none => false) = true) :
    dashed s = false := by
  cases hn : Str.parseUnsigned max s with
  | none => simp [hn] at h
  | some n => exact Str.not_dashed_of_parseUnsigned hn

theorem contains_undashed {xs : List String} {s : String} (h : xs.contains s = true)
    (hx : Binds xs) : dashed s = false := hx s (List.contains_iff_mem.mp h)

theorem digits_undashed {s : String}
    (h : ((Str.split s '.').all fun part => !part.isEmpty && Str.all part Char.isDigit) = true) :
    dashed s = false := by
  obtain ⟨x, xs, hx⟩ := List.exists_cons_of_ne_nil (Str.split_ne_nil s '.')
  simp only [hx, List.all_cons, Bool.and_eq_true, Bool.not_eq_true'] at h
  have hne : x ≠ "" := fun he => by simp [he] at h
  rw [Str.dashed_of_split hx hne]
  exact Str.not_dashed_of_all h.1.2 (by decide)

theorem url_undashed {s : String}
    (h : (Str.startsWith s "http://" || Str.startsWith s "https://") = true) :
    dashed s = false := by
  rcases Bool.or_eq_true_iff.mp h with h | h
  · exact Str.not_dashed_of_startsWith h (by decide) (by decide)
  · exact Str.not_dashed_of_startsWith h (by decide) (by decide)

theorem optional_undashed {s : String} {c : Bool} (h : (s.isEmpty || c) = true)
    (hc : c = true → dashed s = false) : dashed s = false := by
  rcases Bool.or_eq_true_iff.mp h with h | h
  · exact Str.not_dashed_of_isEmpty h
  · exact hc h

theorem validUrlList_undashed {raw : String}
    (h : OcspConfigureRevocation.validUrlList raw = true) : dashed raw = false := by
  obtain ⟨x, xs, hx⟩ := List.exists_cons_of_ne_nil (Str.split_ne_nil raw ',')
  simp only [OcspConfigureRevocation.validUrlList, hx, List.map_cons, List.all_cons,
    Bool.and_eq_true, Bool.not_eq_true'] at h
  have hne : x ≠ "" := by
    rintro rfl
    exact absurd h.1.1.1 (by decide)
  rw [Str.dashed_of_split hx hne]
  cases hd : dashed x with
  | false => rfl
  | true => exact (Str.dashed_trim hd).symm.trans (url_undashed h.1.1.2)

/-- The first of a list of checked names decides how the joined list begins. -/
theorem dashed_join_head {sep : String} {xs : List String} (h : xs.headD "" ≠ "") :
    dashed (Str.join sep xs) = dashed (xs.headD "") := by
  cases xs with
  | nil => exact absurd rfl h
  | cons x xs => exact Str.dashed_join h

theorem validChars_ne_empty {hi : Nat} {extra v : String} (h : validChars 1 hi extra v = true) :
    v ≠ "" := by
  rintro rfl
  simp only [validChars, Bool.and_eq_true, decide_eq_true_eq] at h
  exact absurd h.1.1 (by decide)

/-! ## What each command forwards -/

/-- The value of a parameter, empty where it is absent. -/
def value (ctx : Params) (key : String) : String := (param ctx key).getD ""

/-- The values whose validator lets a leading dash through, or that have none. -/
def forwarded (name : String) (ctx : Params) : List String :=
  match name with
  | "hostname.rename" => [value ctx "name"]
  | "ip.write" => [value ctx "interface"]
  | "ca.install" => [value ctx "commonName"]
  | "ca.publish_template" =>
      [(CaPublishTemplate.parseTemplates (value ctx "templates")).headD ""]
  | "dc.install_forest" => [value ctx "netbiosName"]
  | "dns.set_client" => [value ctx "interface"]
  | "dns.verify" => [value ctx "domain"]
  | "cert.dspublish" => [value ctx "attribute"]
  | "template.grant_access" => [value ctx "template", value ctx "computer"]
  | "iis.setup_certenroll" =>
      if (param ctx "scope").getD "all" = "web" then [] else [value ctx "netbiosName"]
  | "ocsp.configure_revocation" =>
      [value ctx "name", value ctx "caConfig", (param ctx "template").getD "OCSPResponseSigning"]
  | "cert.enroll" => [value ctx "template"]
  | "pki.verify" =>
      [value ctx "rootCaCommonName", value ctx "issuingCaCommonName",
        ((Str.split (value ctx "templates") ',').map Str.trim).headD ""]
  | "certsecure.install" => [value ctx "keycloakRealm"]
  | _ => []

/-- A JSON text that is an array does not begin with a dash: such a text is a
number. -/
def Host.ArraysUndashed (host : Host) : Prop :=
  ∀ text items, host.fromStr text = some (.arr items) → dashed text = false

/-- The arguments bind exactly if the forwarded values do. -/
def BindsLike (name : String) (ctx : Params) (s : Stage) : Prop :=
  Binds s.args ↔ Binds (forwarded name ctx)

section Commands

variable (host : Host) (ctx : Params)

theorem HostnameRename.binds : Staged (BindsLike "hostname.rename" ctx) (execute ctx) := by
  refine (staged ctx).mono ?_
  rintro s ⟨newName, hn, -, rfl⟩
  show Binds [newName] ↔ Binds [value ctx "name"]
  simp [value, hn]

theorem CertVerify.binds : Staged (BindsLike "cert.verify" ctx) (execute host ctx) := by
  refine (staged host ctx).mono ?_
  rintro s ⟨path, rootPath, issuingPath, oid, -, hp, ho, rfl⟩
  have hpath : ∀ p, pathOk p = true → dashed p.2 = false := fun p h =>
    optional_undashed h validWindowsPath_undashed
  have hoid : dashed oid = false := digits_undashed (Bool.and_eq_true_iff.mp ho).2
  simp only [List.forall_mem_cons] at hp
  show Binds [path, rootPath, issuingPath, oid] ↔ Binds []
  simp [hpath _ hp.1, hpath _ hp.2.1, hpath _ hp.2.2.1, hoid]

theorem ExecArbitrary.binds : Staged (BindsLike "powershell.exec_arbitrary" ctx) (execute ctx) := by
  refine (staged ctx).mono ?_
  rintro s ⟨script, -, rfl⟩
  show Binds [] ↔ Binds []
  rfl

theorem IpWrite.binds : Staged (BindsLike "ip.write" ctx) (execute ctx) := by
  refine (staged ctx).mono ?_
  rintro s ⟨address, -, ha, hp, hg, rfl⟩
  have haddr : dashed address = false := validIpv4Addr_undashed ha
  have hpfx : dashed ((param ctx "prefixLength").getD "24") = false := parsed_undashed hp
  have hgw : dashed ((param ctx "gateway").getD "") = false :=
    optional_undashed hg validIpv4Addr_undashed
  show Binds [address, (param ctx "prefixLength").getD "24", (param ctx "gateway").getD "",
    value ctx "interface"] ↔ Binds [value ctx "interface"]
  simp [haddr, hpfx, hgw]

theorem CaInstall.crypto_undashed {c : CryptoParams} (h : c.Valid) :
    dashed c.provider = false ∧ dashed (c.keyLength.getD "") = false ∧
      dashed (c.hashAlgorithm.getD "") = false := by
  refine ⟨?_, ?_, ?_⟩
  · have hp : ∀ a ∈ keyAlgorithms, dashed (cngProvider a) = false := by decide
    rw [h.provider_eq]
    exact hp _ h.algorithm_ok
  · have hk : ∀ kl ∈ mldsaKeyLengthBits :: keyLengths, dashed kl = false := by decide
    cases hl : c.keyLength with
    | none => rfl
    | some kl => exact hk kl (h.keyLength_ok kl hl)
  · have hh : ∀ ha ∈ "NoHash" :: hashAlgorithms, dashed ha = false := by decide
    cases ha : c.hashAlgorithm with
    | none => rfl
    | some x => exact hh x (h.hashAlgorithm_ok x ha)

theorem CaInstall.binds : Staged (BindsLike "ca.install" ctx) (execute ctx) := by
  refine (staged ctx).mono ?_
  rintro s ⟨commonName, crypto, years, ha, htier⟩
  obtain ⟨hp, hk, hh⟩ := crypto_undashed ha.crypto_ok
  have hy : dashed years = false := parsed_undashed ha.years_ok
  have hv : value ctx "commonName" = commonName := by simp [value, ha.commonName_eq]
  rcases htier with ⟨-, rfl⟩ | ⟨i, password, -, hi, -, -, hs, rfl⟩
  · show Binds [commonName, crypto.provider, crypto.keyLength.getD "",
      crypto.hashAlgorithm.getD "", years] ↔ Binds [value ctx "commonName"]
    simp [hv, hp, hk, hh, hy]
  · have ho : dashed i.cpsOid = false := digits_undashed (Bool.and_eq_true_iff.mp hi.cpsOid_ok).2
    have hu : dashed i.cpsUrl = false :=
      optional_undashed (by simpa [validCpsUrl, Bool.or_assoc] using hi.cpsUrl_ok) url_undashed
    show Binds [commonName, crypto.provider, crypto.keyLength.getD "",
      crypto.hashAlgorithm.getD "", years, i.cpsOid, i.cpsUrl, i.csrPath, i.username, password] ↔
      Binds [value ctx "commonName"]
    simp [hv, hp, hk, hh, hy, ho, hu, validWindowsPath_undashed hi.csrPath_ok,
      validUsername_undashed hi.username_ok, validSecret_undashed hs]

theorem CaConfigureSettings.binds :
    Staged (BindsLike "ca.configure_settings" ctx) (execute ctx) := by
  refine (staged ctx).mono ?_
  rintro s ⟨hs, -, rfl⟩
  -- each argument is the value of one setting, empty or checked
  have hset : ∀ x ∈ settings, dashed (valueOf ctx x) = false := by
    have hunit : ∀ key max v, (unitOf key max).ok v = true → dashed v = false :=
      fun key max v h => parsed_undashed h
    have hperiod : ∀ key v, (periodOf key).ok v = true → dashed v = false :=
      fun key v h => contains_undashed h (by decide)
    have hdn : ∀ v, dsConfigDn.ok v = true → dashed v = false := fun v h => by
      simp only [dsConfigDn, Bool.and_eq_true] at h
      exact Str.not_dashed_of_startsWith h.1.1 (by decide) (by decide)
    intro x hx
    refine optional_undashed (hs x hx) ?_
    simp only [settings, List.mem_cons, List.not_mem_nil, or_false] at hx
    rcases hx with rfl | rfl | rfl | rfl | rfl | rfl | rfl | rfl | rfl | rfl
    · exact hdn _
    all_goals first | exact hunit _ _ _ | exact hperiod _ _
  show Binds (argKeys.map fun key => (param ctx key).getD "") ↔ Binds []
  refine iff_of_true (fun a ha => ?_) (by simp)
  obtain ⟨key, hk, rfl⟩ := List.mem_map.mp ha
  have hkeys : ∀ key ∈ argKeys, key ∈ settings.map (·.key) := by decide
  obtain ⟨x, hx, rfl⟩ := List.mem_map.mp (hkeys key hk)
  exact hset x hx

theorem CaConfigureCdpAia.entry_undashed {e : String} (h : validPublicationEntry e = true) :
    e ≠ "" ∧ dashed e = false := by
  unfold validPublicationEntry publicationEntryOk? at h
  cases hs : Str.splitOnce e ':' with
  | none => simp [hs] at h
  | some p =>
      obtain ⟨flags, location⟩ := p
      have hflags : validFlags flags = true := by
        cases hf : validFlags flags with
        | true => rfl
        | false => simp [hs, hf] at h
      simp only [validFlags, Bool.and_eq_true, Bool.not_eq_true'] at hflags
      obtain ⟨hsplit, -⟩ := Str.toList_of_splitOnce hs
      have hne : flags ≠ "" := fun he => by simp [he] at hflags
      refine ⟨fun he => by simp [he] at hsplit, ?_⟩
      rw [Str.dashed_of_prefix ⟨':' :: location.toList, hsplit.symm⟩ hne]
      exact Str.not_dashed_of_all hflags.1.2 (by decide)

theorem CaConfigureCdpAia.binds : Staged (BindsLike "ca.configure_cdp_aia" ctx) (execute ctx) := by
  refine (staged ctx).mono ?_
  rintro s ⟨aia, cdp, -, -, ha, hc, rfl⟩
  have hjoin : ∀ es : List String, (∀ e ∈ es, validPublicationEntry e = true) →
      dashed (Str.join "\\n" es) = false := by
    intro es hes
    cases es with
    | nil => decide
    | cons e es =>
        obtain ⟨hne, hd⟩ := entry_undashed (hes e List.mem_cons_self)
        rw [Str.dashed_join hne, hd]
  show Binds [Str.join "\\n" aia, Str.join "\\n" cdp] ↔ Binds []
  simp [hjoin aia ha, hjoin cdp hc]

theorem CaPublishCrl.binds : Staged (BindsLike "ca.publish_crl" ctx) (execute host ctx) := by
  refine (staged host ctx).mono ?_
  rintro s ⟨path, hp, rfl⟩
  show Binds [path] ↔ Binds []
  simp [validWindowsPath_undashed hp]

theorem CaSignRequest.binds : Staged (BindsLike "ca.sign_request" ctx) (execute ctx) := by
  refine (staged ctx).mono ?_
  rintro s ⟨csrPath, certPath, -, -, hr, hc, rfl⟩
  show Binds [csrPath, certPath] ↔ Binds []
  simp [validWindowsPath_undashed hr, validWindowsPath_undashed hc]

theorem CaInstallCert.binds : Staged (BindsLike "ca.install_cert" ctx) (execute ctx) := by
  refine (staged ctx).mono ?_
  rintro s ⟨certPath, username, password, -, -, -, hc, hu, hp, rfl⟩
  show Binds [certPath, username, password] ↔ Binds []
  simp [validWindowsPath_undashed hc, validUsername_undashed hu, validSecret_undashed hp]

theorem headD_ne_empty {xs : List String} {hi : Nat} {extra : String}
    (h : (!xs.isEmpty && xs.all (validChars 1 hi extra)) = true) : xs.headD "" ≠ "" := by
  cases xs with
  | nil => simp at h
  | cons x xs =>
      simp only [List.all_cons, Bool.and_eq_true] at h
      exact validChars_ne_empty h.2.1

theorem CaPublishTemplate.binds : Staged (BindsLike "ca.publish_template" ctx) (execute ctx) := by
  refine (staged ctx).mono ?_
  rintro s ⟨raw, hr, hv, rfl⟩
  show Binds [Str.join "," (parseTemplates raw)] ↔
    Binds [(parseTemplates (value ctx "templates")).headD ""]
  have hraw : value ctx "templates" = raw := by simp [value, hr]
  rw [hraw, binds_cons, binds_cons, dashed_join_head (headD_ne_empty hv)]

theorem FileRead.binds : Staged (BindsLike "file.read" ctx) (execute host ctx) := by
  refine (FileRelay.read_staged rfl script host ctx).mono ?_
  rintro s ⟨path, -, hp, rfl⟩
  simp only [File.relayPathOk, Bool.and_eq_true] at hp
  show Binds [path, toString relayCapBytes] ↔ Binds []
  simp [validWindowsPath_undashed hp.1.1, show dashed relayCapBytes.repr = false by decide]

theorem FileWrite.binds : Staged (BindsLike "file.write" ctx) (execute ctx) := by
  refine (FileRelay.write_staged rfl script ctx).mono ?_
  rintro s ⟨path, content, -, -, hp, -, hc, rfl⟩
  simp only [File.relayPathOk, Bool.and_eq_true] at hp
  simp only [FileRelay.validContent, Bool.and_eq_true] at hc
  show Binds [path, content] ↔ Binds []
  simp [validWindowsPath_undashed hp.1.1, Str.not_dashed_of_all hc.2 (by decide)]

theorem validDomainName_undashed {d : String} (h : validDomainName d = true) : dashed d = false :=
  validDnsName_undashed (Bool.and_eq_true_iff.mp h).1

theorem DcInstallForest.binds : Staged (BindsLike "dc.install_forest" ctx) (execute ctx) := by
  refine (staged ctx).mono ?_
  rintro s ⟨domain, netbios, mode, password, -, hn, -, hd, -, hm, hp, rfl⟩
  show Binds [domain, netbios, mode, password] ↔ Binds [value ctx "netbiosName"]
  simp [value, hn, validDomainName_undashed hd, contains_undashed hm (by decide),
    validSecret_undashed hp]

theorem DomainJoin.binds : Staged (BindsLike "domain.join" ctx) (execute ctx) := by
  refine (staged ctx).mono ?_
  rintro s ⟨domain, username, password, -, -, -, hd, hu, hp, rfl⟩
  show Binds [domain, username, password] ↔ Binds []
  simp [validDomainName_undashed hd, validUsername_undashed hu, validSecret_undashed hp]

theorem SystemReboot.binds : Staged (BindsLike "system.reboot" ctx) (execute ctx) := by
  refine (staged ctx).mono ?_
  rintro s ⟨hd, rfl⟩
  have hdelay : dashed ((param ctx "delaySeconds").getD "10") = false := parsed_undashed hd
  show Binds [(param ctx "delaySeconds").getD "10"] ↔ Binds []
  simp [hdelay]

theorem DnsSetClient.binds : Staged (BindsLike "dns.set_client" ctx) (execute ctx) := by
  refine (staged ctx).mono ?_
  rintro s ⟨servers, -, hv, rfl⟩
  have hjoin : dashed (Str.join "," (parseServers servers)) = false := by
    cases hs : parseServers servers with
    | nil => simp [hs] at hv
    | cons x xs =>
        simp only [hs, List.all_cons, Bool.and_eq_true] at hv
        have hne : x ≠ "" := by
          rintro rfl
          exact absurd hv.2.1 (by decide)
        rw [Str.dashed_join hne, validIpv4Addr_undashed hv.2.1]
  show Binds [Str.join "," (parseServers servers), value ctx "interface"] ↔
    Binds [value ctx "interface"]
  simp [hjoin]

theorem DnsCreateRecord.binds : Staged (BindsLike "dns.create_record" ctx) (execute ctx) := by
  refine (staged ctx).mono ?_
  rintro s ⟨zone, name, target, -, -, -, hz, hn, ht, rfl⟩
  show Binds [zone, name, target] ↔ Binds []
  simp [validDnsName_undashed hz, validDnsName_undashed (Bool.and_eq_true_iff.mp hn).1,
    validDnsName_undashed ht]

theorem decodeRecords_undashed {host : Host} (hh : host.ArraysUndashed) {raw : String}
    {records : List PlannedDnsRecord} (h : decodeRecords host raw = some records) :
    dashed raw = false := by
  unfold decodeRecords at h
  split at h
  · exact hh raw _ ‹_›
  · cases h

theorem DnsApplyResources.binds (hh : host.ArraysUndashed) :
    Staged (BindsLike "dns.apply_resources" ctx) (execute host ctx) := by
  refine (staged host ctx).mono ?_
  rintro s ⟨raw, records, hp, rfl⟩
  show Binds [raw] ↔ Binds []
  simp [decodeRecords_undashed hh hp.decoded]

theorem DnsVerify.binds (hh : host.ArraysUndashed) :
    Staged (BindsLike "dns.verify" ctx) (execute host ctx) := by
  refine (staged host ctx).mono ?_
  rintro s ⟨raw, records, server, srv, domain, url, hp, -, hd, hs, hr, -, hu, rfl⟩
  have hserver : dashed server = false := by
    rcases Bool.or_eq_true_iff.mp hs with h | h
    · exact validIpv4Addr_undashed h
    · exact validDnsName_undashed h
  have hsrv : dashed srv = false := by
    rcases Bool.or_eq_true_iff.mp hr with h | h
    · rw [beq_iff_eq.mp h]; decide
    · rw [beq_iff_eq.mp h]; decide
  have hurl : dashed url = false := optional_undashed hu fun h => by
    simp only [validHttpUrl, Bool.and_eq_true] at h
    exact url_undashed h.1.1
  show Binds [raw, server, srv, domain, url] ↔ Binds [value ctx "domain"]
  simp [value, ← hd, decodeRecords_undashed hh hp.decoded, hserver, hsrv, hurl]

theorem CertAddStore.binds : Staged (BindsLike "cert.addstore" ctx) (execute ctx) := by
  refine (staged ctx).mono ?_
  rintro s ⟨store, path, kind, -, -, hs, hp, hk, rfl⟩
  show Binds [store, path, kind] ↔ Binds []
  simp [contains_undashed hs (by decide), validWindowsPath_undashed hp,
    contains_undashed hk (by decide)]

theorem CertDsPublish.binds : Staged (BindsLike "cert.dspublish" ctx) (execute ctx) := by
  refine (staged ctx).mono ?_
  rintro s ⟨path, attr, -, ha, hp, -, rfl⟩
  show Binds [path, attr] ↔ Binds [value ctx "attribute"]
  simp [value, ha, validWindowsPath_undashed hp]

theorem TemplateGrantAccess.binds :
    Staged (BindsLike "template.grant_access" ctx) (execute host ctx) := by
  refine (staged host ctx).mono ?_
  rintro s ⟨template, computer, username, password, ht, hc, -, -, -, -, hu, hp, rfl⟩
  show Binds [template, computer, enrollRightGuid, username, password] ↔
    Binds [value ctx "template", value ctx "computer"]
  simp [value, ht, hc, show dashed enrollRightGuid = false by decide, validUsername_undashed hu,
    validSecret_undashed hp]

theorem IisSetupCertEnroll.binds :
    Staged (BindsLike "iis.setup_certenroll" ctx) (execute ctx) := by
  refine (staged ctx).mono ?_
  rintro s ⟨path, netbios, scope, hp, hs, hn, rfl, rfl⟩
  have hscope : dashed ((param ctx "scope").getD "all") = false := contains_undashed hs (by decide)
  show Binds [path, netbios, (param ctx "scope").getD "all"] ↔
    Binds (if (param ctx "scope").getD "all" = "web" then [] else [value ctx "netbiosName"])
  rcases hn with ⟨hw, rfl⟩ | ⟨hw, hn, -⟩
  · rw [if_pos hw]
    simp [validWindowsPath_undashed hp, hscope, show dashed "" = false by decide]
  · rw [if_neg hw]
    simp [value, hn, validWindowsPath_undashed hp, hscope]

theorem OcspConfigureRevocation.binds :
    Staged (BindsLike "ocsp.configure_revocation" ctx) (execute ctx) := by
  refine (staged ctx).mono ?_
  rintro s ⟨c, hc, rfl⟩
  have hr : dashed c.refreshMinutes = false := parsed_undashed hc.refreshMinutes_ok
  have hd : dashed c.deltaCrlUrls = false :=
    optional_undashed hc.deltaCrlUrls_ok validUrlList_undashed
  show Binds [c.name, c.caConfig, c.caCertPath, c.template, c.refreshMinutes, c.baseCrlUrls,
    c.deltaCrlUrls, toString ocspSigningFlags, crlProviderClsid] ↔
    Binds [value ctx "name", value ctx "caConfig",
      (param ctx "template").getD "OCSPResponseSigning"]
  simp [value, hc.name_eq, hc.caConfig_eq, ← hc.template_eq,
    validWindowsPath_undashed hc.caCertPath_ok, hr, validUrlList_undashed hc.baseCrlUrls_ok, hd,
    show dashed ocspSigningFlags.repr = false by decide,
    show dashed crlProviderClsid = false by decide]

theorem CertEnroll.binds : Staged (BindsLike "cert.enroll" ctx) (execute host ctx) := by
  refine (staged host ctx).mono ?_
  rintro s ⟨template, exportPath, refresh, ht, -, he, hr, rfl⟩
  show Binds [template, exportPath, refresh] ↔ Binds [value ctx "template"]
  simp [value, ht, optional_undashed he validWindowsPath_undashed,
    contains_undashed hr (by decide)]

theorem PkiVerify.binds (hh : host.ArraysUndashed) :
    Staged (BindsLike "pki.verify" ctx) (execute host ctx) := by
  refine (staged host ctx).mono ?_
  rintro s ⟨root, issuing, raw, urlsRaw, urls, hr, hi, ht, -, -, -, hv, hu, -, rfl⟩
  have hurls : dashed urlsRaw = false := by
    unfold parseStrings at hu
    split at hu
    · exact hh urlsRaw _ ‹_›
    · cases hu
  have hne : ((Str.split raw ',').map Str.trim) ≠ [] := by simp [Str.split_ne_nil]
  have hraw : value ctx "templates" = raw := by simp [value, ht]
  show Binds [root, issuing, Str.join "," ((Str.split raw ',').map Str.trim), urlsRaw] ↔
    Binds [value ctx "rootCaCommonName", value ctx "issuingCaCommonName",
      ((Str.split (value ctx "templates") ',').map Str.trim).headD ""]
  rw [hraw]
  have hall : ((Str.split raw ',').map Str.trim).all (validChars 1 64 "._-") = true := hv
  have hhead : ((Str.split raw ',').map Str.trim).headD "" ≠ "" :=
    headD_ne_empty (by rw [hall, Bool.and_true]; simpa using hne)
  simp only [binds_cons, dashed_join_head hhead, hurls]
  simp [value, hr, hi]

theorem CertSecure.validIpv4_undashed {ip : String} (h : validIpv4 ip = true) :
    ip ≠ "" ∧ dashed ip = false := by
  obtain ⟨x, xs, hx⟩ := List.exists_cons_of_ne_nil (Str.split_ne_nil ip '.')
  simp only [validIpv4, hx, List.all_cons, validOctet, Bool.and_eq_true, Bool.not_eq_true'] at h
  have hne : x ≠ "" := fun he => by simp [he] at h
  refine ⟨?_, ?_⟩
  · rintro rfl
    obtain ⟨rfl, -⟩ := List.cons.inj (hx.symm.trans (by decide : Str.split "" '.' = [""]))
    exact hne rfl
  · rw [Str.dashed_of_split hx hne]
    exact Str.not_dashed_of_all h.2.1.1.2 (by decide)

theorem CertSecureWriteHosts.entry_undashed {e : String} (h : IsEntry e) :
    e ≠ "" ∧ dashed e = false := by
  obtain ⟨ip, names, hip, -, -, rfl⟩ := h
  obtain ⟨hne, hd⟩ := CertSecure.validIpv4_undashed hip
  have hpre : ip.toList <+: (ip ++ " " ++ Str.join " " names).toList := by
    simp only [String.toList_append, List.append_assoc]
    exact List.prefix_append _ _
  refine ⟨fun he => hne ?_, by rw [Str.dashed_of_prefix hpre hne, hd]⟩
  rw [he] at hpre
  exact String.toList_inj.mp (by simpa using hpre)

theorem CertSecureWriteHosts.binds :
    Staged (BindsLike "certsecure.write_hosts" ctx) (execute ctx) := by
  refine (staged ctx).mono ?_
  rintro s ⟨entries, hne, he, rfl⟩
  have hblock : dashed (Str.join "\n" entries) = false := by
    cases entries with
    | nil => exact absurd rfl hne
    | cons e es =>
        obtain ⟨hn, hd⟩ := entry_undashed (he e List.mem_cons_self)
        rw [Str.dashed_join hn, hd]
  show Binds [CertSecure.hostsBegin, CertSecure.hostsEnd, Str.join "\n" entries] ↔ Binds []
  simp [hblock, show dashed CertSecure.hostsBegin = false by decide,
    show dashed CertSecure.hostsEnd = false by decide]

theorem CertSecure.pathOk_undashed {p : String} (h : pathOk p = true) : dashed p = false :=
  validPosixPath_undashed (Bool.and_eq_true_iff.mp h).1

theorem CertSecureMakeCert.binds :
    Staged (BindsLike "certsecure.make_cert" ctx) (execute host ctx) := by
  refine (staged host ctx).mono ?_
  rintro s ⟨certPath, keyPath, names, ip, days, ha, rfl⟩
  obtain ⟨hc, hk⟩ := ha.paths_ok
  have hdays : dashed days = false := parsed_undashed ha.days_ok
  have hnames := ha.names_ok
  cases names with
  | nil => simp at hnames
  | cons n ns =>
      simp only [List.all_cons, Bool.and_eq_true] at hnames
      have hsan : dashed (Str.join "," (sans (n :: ns) ip)) = false := by
        have hd : "DNS:".toList <+: ("DNS:" ++ n).toList := by simp
        have hne : "DNS:" ++ n ≠ "" := fun he => by
          have := congrArg String.toList he
          simp at this
        show dashed (Str.join "," (("DNS:" ++ n) :: _)) = false
        rw [Str.dashed_join hne, Str.dashed_of_prefix hd (by decide)]
        decide
      show Binds [certPath, keyPath, n, Str.join "," (sans (n :: ns) ip), days] ↔ Binds []
      simp [CertSecure.pathOk_undashed hc, CertSecure.pathOk_undashed hk,
        validDnsName_undashed hnames.2.1, hsan, hdays]

theorem CertSecureInstall.binds : Staged (BindsLike "certsecure.install" ctx) (execute ctx) := by
  refine (staged ctx).mono ?_
  rintro s ⟨a, ha, rfl⟩
  obtain ⟨hf, hb, hk⟩ := ha.hosts_ok
  obtain ⟨hcp, hkp⟩ := ha.paths_ok
  show Binds [CertSecure.installDir, a.frontend, a.backend, a.certPath, a.keyPath, a.keycloak,
    a.realm] ↔ Binds [value ctx "keycloakRealm"]
  simp [value, ha.realm_eq, show dashed CertSecure.installDir = false by decide,
    validDnsName_undashed hf, validDnsName_undashed hb, validDnsName_undashed hk,
    CertSecure.pathOk_undashed hcp, CertSecure.pathOk_undashed hkp]

theorem CertSecureVerify.validHttpsUrl_undashed {u : String} (h : validHttpsUrl u = true) :
    dashed u = false := by
  unfold validHttpsUrl validHttpsUrl? at h
  split at h
  · rename_i hc
    exact Str.not_dashed_of_startsWith (Bool.and_eq_true_iff.mp hc).2 (by decide) (by decide)
  · cases h

theorem CertSecureVerify.binds :
    Staged (BindsLike "certsecure.verify" ctx) (execute host ctx) := by
  refine (staged host ctx).mono ?_
  rintro s ⟨frontend, keycloak, hf, hk, rfl⟩
  show Binds [frontend, keycloak] ↔ Binds []
  simp [optional_undashed hf validHttpsUrl_undashed, optional_undashed hk validHttpsUrl_undashed]

theorem Staged.binds_fixed {name : String} {p : Exec Json} {s₀ : Stage} (h : Staged (· = s₀) p)
    (hf : forwarded name ctx = []) (hb : Binds s₀.args) : Staged (BindsLike name ctx) p := by
  refine h.mono ?_
  rintro s rfl
  exact iff_of_true hb (by rw [hf]; simp)

/-- Over the whole catalog of a Windows machine: a stage's arguments bind exactly
if the forwarded values do. -/
theorem baseHandlers_bind (hh : host.ArraysUndashed) :
    ∀ h ∈ baseHandlers host, Handled (BindsLike h.name ctx) (h.execute ctx) := by
  simp only [baseHandlers, List.forall_mem_cons]
  refine ⟨.staged (HostnameRename.binds ctx),
    .staged ((HostnameRead.staged ctx).binds_fixed ctx rfl (by decide)),
    .staged (CertVerify.binds host ctx), .staged (ExecArbitrary.binds ctx),
    .staged ((IpRead.staged host ctx).binds_fixed ctx rfl (by simp [IpRead.stage, Stage.plain])),
    .staged (IpWrite.binds ctx), .staged (CaInstall.binds ctx),
    .staged (CaConfigureSettings.binds ctx), .staged (CaConfigureCdpAia.binds ctx),
    .staged (CaPublishCrl.binds host ctx), .staged (CaSignRequest.binds ctx),
    .staged (CaInstallCert.binds ctx), .staged (CaPublishTemplate.binds ctx),
    .staged ((CaVerify.staged host ctx).binds_fixed ctx rfl
      (by simp [CaVerify.stage, Stage.plain])),
    .staged (FileRead.binds host ctx), .staged (FileWrite.binds ctx),
    .staged ((DcVerify.staged host ctx).binds_fixed ctx rfl
      (by simp [DcVerify.stage, Stage.plain])),
    .staged (DcInstallForest.binds ctx),
    .staged ((DomainVerify.staged host ctx).binds_fixed ctx rfl
      (by simp [DomainVerify.stage, Stage.plain])),
    .staged (DomainJoin.binds ctx), .staged (SystemReboot.binds ctx), .native _ _ rfl,
    .staged (DnsSetClient.binds ctx), .staged (DnsCreateRecord.binds ctx),
    .staged (DnsApplyResources.binds host ctx hh), .staged (DnsVerify.binds host ctx hh),
    .staged (CertAddStore.binds ctx), .staged (CertDsPublish.binds ctx),
    .staged (TemplateGrantAccess.binds host ctx), .staged (IisSetupCertEnroll.binds ctx),
    .staged ((OcspInstall.staged ctx).binds_fixed ctx rfl (by decide)),
    .staged (OcspConfigureRevocation.binds ctx),
    .staged ((OcspVerify.staged host ctx).binds_fixed ctx rfl
      (by simp [OcspVerify.stage, Stage.plain])),
    .staged (CertEnroll.binds host ctx), .staged (PkiVerify.binds host ctx hh),
    .staged ((SystemIdentity.staged host ctx).binds_fixed ctx rfl
      (by simp [SystemIdentity.stage, SystemIdentity.stageOf])),
    .staged ((AptRefresh.staged ctx).binds_fixed ctx rfl (by decide)),
    .staged (CertSecureWriteHosts.binds ctx), .staged (CertSecureMakeCert.binds host ctx),
    .staged (CertSecureInstall.binds ctx),
    .staged ((CertSecureHarden.staged ctx).binds_fixed ctx rfl (by decide)),
    .staged (CertSecureVerify.binds host ctx), by simp⟩

end Commands

/-- Every call a command of the Windows catalog makes binds its arguments to their
positions exactly if no forwarded value begins with a dash. -/
theorem call_binds_iff (host : Host) (hh : host.ArraysUndashed) (h : CommandHandler)
    (hm : h ∈ baseHandlers host) (ctx : Params)
    (world : List ShellCall → ShellCall → ShellReply) (past : List ShellCall) (c : ShellCall)
    (hc : c ∈ Event.queries ((h.execute ctx).run world past).trace) :
    Binds c.args ↔ Binds (forwarded h.name ctx) := by
  obtain ⟨s, hs, rfl⟩ := (baseHandlers_bind host ctx hh h hm).mem_queries hc
  exact hs

theorem HostnameRename.calls {name : String} (hn : validName name = true) :
    (⟨script, [name]⟩ : ShellCall) ∈ Event.queries
      ((handler.execute [("name", name)]).run quietShell []).trace := by
  have he : handler.execute [("name", name)] = perform (stage name) := by
    show ensure (validName name) _ >>= _ = _
    rw [hn]
    rfl
  rw [he, run_perform]
  exact List.mem_cons_self

/-- A computer name that begins with a letter binds. -/
theorem call_binds_ca02 : Binds (⟨HostnameRename.script, ["CA02"]⟩ : ShellCall).args :=
  (call_binds_iff .idle (fun _ _ h => by cases h) HostnameRename.handler List.mem_cons_self
    [("name", "CA02")] quietShell [] _ (HostnameRename.calls (by decide))).mpr
    (by decide)

/-- One that begins with a dash is accepted and does not. -/
theorem call_dashed :
    ¬ ∀ (host : Host) (h : CommandHandler), h ∈ baseHandlers host →
      h.name ≠ "powershell.exec_arbitrary" → ∀ (ctx : Params)
      (world : List ShellCall → ShellCall → ShellReply) (past : List ShellCall),
      ∀ c ∈ Event.queries ((h.execute ctx).run world past).trace, Binds c.args := by
  intro hall
  have hb : Binds ["-CA02"] :=
    hall .idle HostnameRename.handler List.mem_cons_self (by decide) [("name", "-CA02")]
      quietShell [] _ (HostnameRename.calls (by decide))
  exact absurd hb (by decide)

end PkiExecutor
