/-
# `PkiExecutor.Lists` — lists that travel as one argument

Four commands join a list with commas into one argument of their script, and the
script, or what it calls, splits it again.  `lists_decoded` says that the pieces
are the elements that were checked and reported.

Two of the lists are lists of templates, read by two parsers from what a plan
gives as one value: `published_verifiable_iff`.
-/
import PkiExecutor.Hosts
import PkiExecutor.Names
import PkiExecutor.Relay

namespace PkiExecutor

/-! ## Arguments and results -/

/-- What splitting an argument at its commas gives. -/
def listArgument (c : ShellCall) (i : Nat) : Option (List String) :=
  c.args[i]?.map (Str.split · ',')

/-- In every run the program puts one call, and this is the list in this place. -/
def PassesList (p : Exec Json) (i : Nat) (xs : List String) : Prop :=
  ∀ (world : List ShellCall → ShellCall → ShellReply) (past : List ShellCall),
    ∃ c, Event.queries (p.run world past).trace = [c] ∧ listArgument c i = some xs

/-- Every result of the program has this value under the key. -/
def ReportsAs (p : Exec Json) (key : String) (v : Json) : Prop :=
  ∀ (world : List ShellCall → ShellCall → ShellReply) (past : List ShellCall) (result : Json),
    (p.run world past).result = .ok result → result.get key = v

/-- The certificate is asked for, and reported, under this subject. -/
def SubjectIs (p : Exec Json) (subject : String) : Prop :=
  ReportsAs p "subject" (.str subject) ∧
    ∀ (world : List ShellCall → ShellCall → ShellReply) (past : List ShellCall),
      ∃ c, Event.queries (p.run world past).trace = [c] ∧ c.args[2]? = some subject

theorem perform_passesList {s : Stage} {i : Nat} {xs : List String} (hne : xs ≠ [])
    (harg : s.args[i]? = some (Str.join "," xs)) (hcomma : ∀ x ∈ xs, ',' ∉ x.toList) :
    PassesList (perform s) i xs := by
  intro world past
  refine ⟨s.call, queries_perform world past s, ?_⟩
  have hsplit : Str.split (Str.join "," xs) ',' = xs := Str.split_join hne hcomma
  show s.args[i]?.map (Str.split · ',') = some xs
  rw [harg, Option.map_some, hsplit]

theorem perform_reportsAs {s : Stage} {key : String} {v : Json}
    (h : ∀ output result, s.read output = .ok result → result.get key = v) :
    ReportsAs (perform s) key v := by
  intro world past result hr
  rw [run_perform] at hr
  obtain ⟨output, -, -, hread⟩ := Stage.settle_ok hr
  exact h output result hread

/-! ## What has no comma in it -/

theorem not_mem_of_all {s : String} {p : Char → Bool} {c : Char} (h : Str.all s p = true)
    (hc : p c = false) : c ∉ s.toList := by
  intro hm
  have hp := Str.all_iff.mp h c hm
  rw [hc] at hp
  cases hp

theorem no_comma_of_validChars {lo hi : Nat} {extra value : String}
    (h : validChars lo hi extra value = true) (hc : Str.containsChar extra ',' = false) :
    ',' ∉ value.toList := by
  rw [validChars, Bool.and_eq_true] at h
  refine not_mem_of_all h.2 ?_
  rw [hc]
  rfl

theorem no_comma_of_fieldChar {s : String}
    (h : ∀ c ∈ s.toList, CertSecureWriteHosts.fieldChar c = true) : ',' ∉ s.toList := by
  intro hm
  exact absurd (h ',' hm) (by decide)

/-- An address of the standard library's grammar is one of the wider grammar. -/
theorem validIpv4_of_parseIpv4 {s : String} (h : validIpv4Addr s = true) :
    CertSecure.validIpv4 s = true := by
  obtain ⟨os, hos⟩ := Option.isSome_iff_exists.mp h
  rw [Str.parseIpv4, Option.ite_none_right_eq_some, mapM_ipv4Octet_iff] at hos
  exact validIpv4_iff.mpr ⟨hos.1, fun ds hds => (hos.2.1 ds hds).1⟩

theorem no_comma_of_validIpv4 {s : String} (h : CertSecure.validIpv4 s = true) :
    ',' ∉ s.toList :=
  no_comma_of_fieldChar (CertSecureWriteHosts.fieldChar_of_validIpv4 h).2

theorem no_comma_of_validDnsName {s : String} (h : validDnsName s = true) : ',' ∉ s.toList :=
  no_comma_of_fieldChar (CertSecureWriteHosts.fieldChar_of_validDnsName h).2

/-! ## The four lists -/

/-- The servers reach the script as they were checked, and are reported so. -/
def DnsSetClient.Decodes (ctx : Params) : Prop :=
  ∃ raw, param ctx "servers" = some raw ∧
    let servers := DnsSetClient.parseServers raw
    (∀ s ∈ servers, validIpv4Addr s = true) ∧
      PassesList (DnsSetClient.execute ctx) 0 servers ∧
      ReportsAs (DnsSetClient.execute ctx) "servers" (.strings servers)

/-- The templates reach the script as they were checked, and are reported so. -/
def CaPublishTemplate.Decodes (ctx : Params) : Prop :=
  ∃ raw, param ctx "templates" = some raw ∧
    let templates := CaPublishTemplate.parseTemplates raw
    (∀ t ∈ templates, validChars 1 64 "._-" t = true) ∧
      PassesList (CaPublishTemplate.execute ctx) 0 templates ∧
      ReportsAs (CaPublishTemplate.execute ctx) "templates" (.strings templates)

/-- The pieces between commas, each trimmed. -/
def PkiVerify.parseTemplates (raw : String) : List String := (Str.split raw ',').map Str.trim

/-- The templates reach the script as they were checked. -/
def PkiVerify.Decodes (host : Host) (ctx : Params) : Prop :=
  ∃ raw, param ctx "templates" = some raw ∧
    let templates := PkiVerify.parseTemplates raw
    (∀ t ∈ templates, PkiVerify.validTemplate t = true) ∧
      PassesList (PkiVerify.execute host ctx) 2 templates

/-- The names, each as a `DNS` entry, and the address as an `IP` entry where there is
one, reach the script in order and are reported so; the subject is the first name. -/
def CertSecureMakeCert.Decodes (host : Host) (ctx : Params) : Prop :=
  ∃ raw, param ctx "names" = some raw ∧
    let names := CertSecureMakeCert.parseNames raw
    let ip := (param ctx "ip").getD ""
    let sans := names.map ("DNS:" ++ ·) ++ if ip = "" then [] else ["IP:" ++ ip]
    (∀ n ∈ names, validDnsName n = true) ∧
      PassesList (CertSecureMakeCert.execute host ctx) 3 sans ∧
      ReportsAs (CertSecureMakeCert.execute host ctx) "sans" (.strings sans) ∧
      ∃ first rest, names = first :: rest ∧
        SubjectIs (CertSecureMakeCert.execute host ctx) first

theorem DnsSetClient.decodes {ctx : Params} (ha : (DnsSetClient.execute ctx).failed = false) :
    DnsSetClient.Decodes ctx := by
  obtain ⟨_, ⟨raw, hraw, hvalid, rfl⟩, he⟩ := (DnsSetClient.staged ctx).performed ha
  rw [Bool.and_eq_true, Bool.not_eq_true', List.isEmpty_eq_false_iff, List.all_eq_true] at hvalid
  obtain ⟨hne, hvalid⟩ := hvalid
  refine ⟨raw, hraw, hvalid, ?_, ?_⟩
  · rw [he]
    refine perform_passesList hne rfl fun s hs => ?_
    exact no_comma_of_validIpv4 (validIpv4_of_parseIpv4 (hvalid s hs))
  · rw [he]
    refine perform_reportsAs ?_
    rintro output _ ⟨⟩
    rfl

theorem CaPublishTemplate.decodes {ctx : Params}
    (ha : (CaPublishTemplate.execute ctx).failed = false) : CaPublishTemplate.Decodes ctx := by
  obtain ⟨_, ⟨raw, hraw, hvalid, rfl⟩, he⟩ := (CaPublishTemplate.staged ctx).performed ha
  rw [Bool.and_eq_true, Bool.not_eq_true', List.isEmpty_eq_false_iff, List.all_eq_true] at hvalid
  obtain ⟨hne, hvalid⟩ := hvalid
  refine ⟨raw, hraw, hvalid, ?_, ?_⟩
  · rw [he]
    refine perform_passesList hne rfl fun t ht => ?_
    exact no_comma_of_validChars (hvalid t ht) (by decide)
  · rw [he]
    refine perform_reportsAs ?_
    rintro output _ ⟨⟩
    rfl

theorem PkiVerify.decodes {host : Host} {ctx : Params}
    (ha : (PkiVerify.execute host ctx).failed = false) : PkiVerify.Decodes host ctx := by
  obtain ⟨_, ⟨rootCa, issuingCa, raw, urlsRaw, urls, -, -, hraw, -, -, -, hvalid, -, -, rfl⟩, he⟩ :=
    (PkiVerify.staged host ctx).performed ha
  rw [List.all_eq_true] at hvalid
  have hne : PkiVerify.parseTemplates raw ≠ [] := by
    rw [PkiVerify.parseTemplates, Ne, List.map_eq_nil_iff]
    exact Str.split_ne_nil raw ','
  refine ⟨raw, hraw, hvalid, ?_⟩
  rw [he]
  refine perform_passesList hne rfl fun t ht => ?_
  exact no_comma_of_validChars (hvalid t ht) (by decide)

theorem CertSecureMakeCert.readCert_get {host : Host} {certPath keyPath ip : String}
    {names : List String} {output : PowerShellOutput} {result : Json}
    (h : readCert host certPath keyPath names ip output = .ok result) :
    result.get "sans" = .strings (sans names ip) ∧
      result.get "subject" = .str (names.headD "") := by
  unfold readCert at h
  simp only at h
  split at h
  · cases h
  · cases h
    exact ⟨rfl, rfl⟩

theorem CertSecureMakeCert.decodes {host : Host} {ctx : Params}
    (ha : (CertSecureMakeCert.execute host ctx).failed = false) :
    CertSecureMakeCert.Decodes host ctx := by
  obtain ⟨_, ⟨certPath, keyPath, names, ip, days, hacc, rfl⟩, he⟩ :=
    (CertSecureMakeCert.staged host ctx).performed ha
  obtain ⟨raw, hraw, rfl⟩ := hacc.names_eq
  obtain rfl := hacc.ip_eq
  obtain ⟨hne, hnames⟩ := Bool.and_eq_true_iff.mp hacc.names_ok
  rw [List.all_eq_true] at hnames
  rw [Bool.not_eq_true', List.isEmpty_eq_false_iff] at hne
  obtain ⟨first, rest, hfirst⟩ := List.exists_cons_of_ne_nil hne
  have hsans : CertSecureMakeCert.sans (CertSecureMakeCert.parseNames raw)
      ((param ctx "ip").getD "") = (CertSecureMakeCert.parseNames raw).map ("DNS:" ++ ·) ++
        if (param ctx "ip").getD "" = "" then [] else ["IP:" ++ (param ctx "ip").getD ""] := by
    rw [CertSecureMakeCert.sans]
    exact congrArg _ (if_congr String.isEmpty_iff rfl rfl)
  have hcomma : ∀ san ∈ CertSecureMakeCert.sans (CertSecureMakeCert.parseNames raw)
      ((param ctx "ip").getD ""), ',' ∉ san.toList := by
    intro san hs
    rw [CertSecureMakeCert.sans, List.mem_append] at hs
    rcases hs with hs | hs
    · obtain ⟨n, hn, rfl⟩ := List.mem_map.mp hs
      rw [String.toList_append, List.mem_append, not_or]
      exact ⟨by decide, no_comma_of_validDnsName (hnames n hn)⟩
    · by_cases hip : ((param ctx "ip").getD "").isEmpty = true
      · rw [if_pos hip] at hs
        cases hs
      · rw [if_neg hip, List.mem_singleton] at hs
        subst hs
        have hvalid : CertSecure.validIpv4 ((param ctx "ip").getD "") = true :=
          (Bool.or_eq_true_iff.mp hacc.ip_ok).resolve_left hip
        rw [String.toList_append, List.mem_append, not_or]
        exact ⟨by decide, no_comma_of_validIpv4 hvalid⟩
  refine ⟨raw, hraw, hnames, ?_, ?_, first, rest, hfirst, ?_, ?_⟩
  · rw [he, ← hsans]
    refine perform_passesList ?_ rfl hcomma
    rw [CertSecureMakeCert.sans, hfirst]
    simp
  · rw [he, ← hsans]
    exact perform_reportsAs fun output result hr => (CertSecureMakeCert.readCert_get hr).1
  · rw [he]
    refine perform_reportsAs fun output result hr => ?_
    rw [(CertSecureMakeCert.readCert_get hr).2, hfirst]
    rfl
  · intro world past
    rw [he, queries_perform, hfirst]
    exact ⟨_, rfl, rfl⟩

/-- Whatever the four commands accept, the elements they checked are the pieces of the
joined argument, and where they report the list they report these. -/
theorem lists_decoded (host : Host) (ctx : Params) :
    ((DnsSetClient.execute ctx).failed = false → DnsSetClient.Decodes ctx) ∧
      ((CaPublishTemplate.execute ctx).failed = false → CaPublishTemplate.Decodes ctx) ∧
      ((PkiVerify.execute host ctx).failed = false → PkiVerify.Decodes host ctx) ∧
      ((CertSecureMakeCert.execute host ctx).failed = false →
        CertSecureMakeCert.Decodes host ctx) :=
  ⟨DnsSetClient.decodes, CaPublishTemplate.decodes, PkiVerify.decodes,
    CertSecureMakeCert.decodes⟩

/-- Parameters that all four commands accept. -/
def listParams : Params :=
  [("servers", "10.0.0.10, 10.0.0.11"), ("templates", "WebServer, User"),
    ("rootCaCommonName", "Example Root CA"), ("issuingCaCommonName", "Example Issuing CA"),
    ("httpUrls", "[\"http://pki.example.com/ca.crt\"]"), ("names", "certs.example.com, certs"),
    ("ip", "10.0.0.20"), ("certPath", "/opt/certsecure-manager/conf/cert.pem"),
    ("keyPath", "/opt/certsecure-manager/conf/key.pem")]

/-- A machine whose JSON parser reads every text as one list of URLs. -/
def urlHost : Host :=
  { Host.idle with fromStr := fun _ => some (.strings ["http://pki.example.com/ca.crt"]) }

theorem lists_decoded_lab :
    DnsSetClient.Decodes listParams ∧ CaPublishTemplate.Decodes listParams ∧
      PkiVerify.Decodes urlHost listParams ∧ CertSecureMakeCert.Decodes urlHost listParams :=
  ⟨(lists_decoded urlHost listParams).1 (by decide),
    (lists_decoded urlHost listParams).2.1 (by decide),
    (lists_decoded urlHost listParams).2.2.1 (by decide),
    (lists_decoded urlHost listParams).2.2.2 (by decide)⟩

/-! ## Publishing and verifying templates -/

section Templates

variable {name : String}

theorem CertEnroll.takes (host : Host) (h : CertEnroll.validTemplateCn name = true) :
    (CertEnroll.handler host).Takes "template" name := by
  intro ctx hctx
  refine .required fun template ht => ?_
  obtain rfl : name = template := Option.some.inj (hctx.symm.trans ht)
  exact .checked h (.ensure (by decide) fun _ => .ensure (by decide) fun _ => .perform _)

theorem TemplateGrantAccess.takes (host : Host)
    (h : TemplateGrantAccess.validTemplateCn name = true) :
    (TemplateGrantAccess.handler host).Takes "template" name := by
  intro ctx hctx
  refine .required fun template ht => ?_
  obtain rfl : name = template := Option.some.inj (hctx.symm.trans ht)
  refine .checked h (.required fun _ _ => .ensure (by decide) fun _ => ?_)
  refine .required fun _ _ => .ensure (by decide) fun _ => ?_
  exact .required fun _ _ => .ensure (by decide) fun _ => .perform _

theorem OcspConfigureRevocation.takes (h : OcspConfigureRevocation.validTemplate name = true) :
    OcspConfigureRevocation.handler.Takes "template" name := by
  intro ctx hctx
  refine .required fun _ _ => .ensure (by decide) fun _ => ?_
  refine .required fun _ _ => .ensure (by decide) fun _ => ?_
  refine .required fun _ _ => .ensure (by decide) fun _ => ?_
  refine .checked ?_ (.ensure (by decide) fun _ => ?_)
  · rw [hctx]
    exact h
  · refine .required fun _ _ => .ensure (by decide) fun _ => .ensure (by decide) fun _ => ?_
    exact .perform _

theorem PkiVerify.takes_iff (host : Host) {raw : String} :
    (PkiVerify.handler host).Takes "templates" raw ↔
      ∀ t ∈ PkiVerify.parseTemplates raw, PkiVerify.validTemplate t = true := by
  have hne : (!(PkiVerify.parseTemplates raw).isEmpty) = true := by
    rw [Bool.not_eq_true', List.isEmpty_eq_false_iff, PkiVerify.parseTemplates, Ne,
      List.map_eq_nil_iff]
    exact Str.split_ne_nil raw ','
  constructor
  · intro h
    have hcheck := h.checked
      [("rootCaCommonName", "R"), ("issuingCaCommonName", "I"), ("templates", raw)] rfl rfl
    exact List.all_eq_true.mp (Bool.and_eq_true_iff.mp hcheck).2
  · intro h ctx hctx
    refine .required fun _ _ => .required fun _ _ => ?_
    refine .ensure (by decide) fun _ => .ensure (by decide) fun _ => .required fun t ht => ?_
    obtain rfl : raw = t := Option.some.inj (hctx.symm.trans ht)
    refine .checked (Bool.and_eq_true_iff.mpr ⟨hne, List.all_eq_true.mpr h⟩) ?_
    refine .required fun _ _ => .okOr (by decide) fun _ => .ensure (by decide) fun _ => ?_
    exact .perform _

/-- The commands that take one of the templates. -/
def templateHandlers (host : Host) : List CommandHandler :=
  [CertEnroll.handler host, TemplateGrantAccess.handler host, OcspConfigureRevocation.handler]

/-- The three validators of a template's name are copies of the one for published names. -/
theorem templateHandlers_take (host : Host) (h : validChars 1 64 "._-" name = true) :
    ∀ handler ∈ templateHandlers host, handler.Takes "template" name := by
  simp only [templateHandlers, List.forall_mem_cons, List.not_mem_nil, false_imp_iff, implies_true,
    and_true]
  exact ⟨CertEnroll.takes host h, TemplateGrantAccess.takes host h, OcspConfigureRevocation.takes h⟩

end Templates

theorem parseTemplates_agree {raw : String} (h : ∀ piece ∈ Str.split raw ',', Str.trim piece ≠ "") :
    PkiVerify.parseTemplates raw = CaPublishTemplate.parseTemplates raw := by
  refine (List.filter_eq_self.mpr ?_).symm
  intro t ht
  obtain ⟨piece, hp, rfl⟩ := List.mem_map.mp ht
  simpa using h piece hp

/-- A value of `templates` that was published can be verified, as the same list and
with names that every command takes, exactly if none of its pieces is blank. -/
theorem published_verifiable_iff (host : Host) (ctx : Params) (t : String)
    (ha : (CaPublishTemplate.execute ctx).failed = false) (ht : param ctx "templates" = some t) :
    ((PkiVerify.handler host).Takes "templates" t ∧
      ∃ names, PassesList (CaPublishTemplate.execute ctx) 0 names ∧
        (∀ ctx', param ctx' "templates" = some t → (PkiVerify.execute host ctx').failed = false →
          PassesList (PkiVerify.execute host ctx') 2 names) ∧
        ∀ name ∈ names, ∀ handler ∈ templateHandlers host, handler.Takes "template" name) ↔
      ∀ piece ∈ Str.split t ',', Str.trim piece ≠ "" := by
  obtain ⟨raw, hraw, hvalid, hpasses, -⟩ := CaPublishTemplate.decodes ha
  obtain rfl : raw = t := Option.some.inj (hraw.symm.trans ht)
  constructor
  · rintro ⟨htakes, -⟩ piece hp hblank
    have hpiece : PkiVerify.validTemplate (Str.trim piece) = true :=
      (PkiVerify.takes_iff host).mp htakes _ (List.mem_map_of_mem hp)
    rw [hblank] at hpiece
    exact absurd hpiece (by decide)
  · intro hsolid
    have hagree := parseTemplates_agree hsolid
    refine ⟨(PkiVerify.takes_iff host).mpr (hagree ▸ hvalid), _, hpasses, ?_, ?_⟩
    · intro ctx' ht' ha'
      obtain ⟨raw', hraw', -, hpasses'⟩ := PkiVerify.decodes ha'
      obtain rfl : raw' = raw := Option.some.inj (hraw'.symm.trans ht')
      rwa [← hagree]
    · intro name hname
      exact templateHandlers_take host (hvalid name hname)

theorem published_verifiable_two :
    (PkiVerify.handler Host.idle).Takes "templates" "WebServer, User" :=
  ((published_verifiable_iff Host.idle [("templates", "WebServer, User")] "WebServer, User"
    (by decide) rfl).mpr (by decide)).1

/-- A stray comma is published over and fails the verification. -/
theorem stray_comma_not_verifiable :
    ¬ ∀ (host : Host) (ctx : Params) (t : String),
      (CaPublishTemplate.execute ctx).failed = false → param ctx "templates" = some t →
      (PkiVerify.handler host).Takes "templates" t := by
  intro h
  have htakes := h Host.idle [("templates", "WebServer,")] "WebServer," (by decide) rfl
  have hvalid := (PkiVerify.takes_iff Host.idle).mp htakes
  exact absurd hvalid (by decide)

end PkiExecutor
