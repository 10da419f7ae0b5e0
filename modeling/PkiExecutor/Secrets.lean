/-
# `PkiExecutor.Secrets` — where a password can be seen

Five commands take a password.  Two runs of one of them on parameters that differ
in the password only, with the same verdict on both passwords, put the same
scripts with arguments that agree off the password's slot, report the same
states and end the same way: nothing an observer sees depends on the password.

The proofs follow the programs: each step up to the password reads a parameter
that agrees, the password is read and checked, and the stage at the end differs
in its arguments only.
-/
import PkiExecutor.Catalog

namespace PkiExecutor

/-- The parameters agree on every key but one. -/
def AgreeExcept (key : String) (ctx ctx' : Params) : Prop :=
  ∀ k, k ≠ key → param ctx k = param ctx' k

/-- The password is absent from both, or `valid_secret` says the same of both. -/
def SameVerdict (key : String) (ctx ctx' : Params) : Prop :=
  (param ctx key).map validSecret = (param ctx' key).map validSecret

/-- The calls agree in the script, in the number of arguments and in every
argument but the one in `slot`; where they differ there, each has its own
password in it. -/
structure OffSlot (slot : Nat) (secret secret' : Option String) (c c' : ShellCall) : Prop where
  script_eq : c.script = c'.script
  length_eq : c.args.length = c'.args.length
  args_eq : ∀ i, i ≠ slot → c.args[i]? = c'.args[i]?
  slot_eq : c.args = c'.args ∨ c.args[slot]? = secret ∧ c'.args[slot]? = secret'

/-! ## Two runs of one program -/

section TwoRuns

variable {R : ShellCall → ShellCall → Prop} {α : Type}

theorem SameBut.required {ctx ctx' : Params} {key : String} {f f' : String → Exec α}
    (hk : param ctx key = param ctx' key) (hf : ∀ v, Prog.SameBut R (f v) (f' v)) :
    Prog.SameBut R (PkiExecutor.required ctx key >>= f) (PkiExecutor.required ctx' key >>= f') := by
  unfold PkiExecutor.required
  rw [hk]
  cases param ctx' key with
  | none => exact .fail _
  | some v => exact hf v

theorem SameBut.ensure {cond cond' : Bool} {e : CommandError} {f f' : Unit → Exec α}
    (hc : cond = cond') (hf : Prog.SameBut R (f ()) (f' ())) :
    Prog.SameBut R (PkiExecutor.ensure cond e >>= f) (PkiExecutor.ensure cond' e >>= f') := by
  subst hc
  cases cond with
  | false => exact .fail _
  | true => exact hf

theorem SameBut.secret {ctx ctx' : Params} {key : String} {e : CommandError}
    {f f' : String → Exec α} (hv : SameVerdict key ctx ctx')
    (hf : ∀ v v', param ctx key = some v → param ctx' key = some v' →
      Prog.SameBut R (f v) (f' v')) :
    Prog.SameBut R
      (PkiExecutor.required ctx key >>= fun v =>
        PkiExecutor.ensure (validSecret v) e >>= fun _ => f v)
      (PkiExecutor.required ctx' key >>= fun v =>
        PkiExecutor.ensure (validSecret v) e >>= fun _ => f' v) := by
  unfold SameVerdict at hv
  unfold PkiExecutor.required
  cases h : param ctx key with
  | none =>
      cases h' : param ctx' key with
      | none => exact .fail _
      | some v' => rw [h, h'] at hv; cases hv
  | some v =>
      cases h' : param ctx' key with
      | none => rw [h, h'] at hv; cases hv
      | some v' =>
          rw [h, h'] at hv
          exact SameBut.ensure (Option.some.inj hv) (hf v v' h h')

theorem SameBut.perform {s s' : Stage} (hphase : s.phase = s'.phase)
    (hpercent : s.percent = s'.percent) (hread : s.read = s'.read) (hcall : R s.call s'.call) :
    Prog.SameBut R (PkiExecutor.perform s) (PkiExecutor.perform s') := by
  rw [perform_eq, perform_eq, hphase, hpercent]
  refine .tell _ (.ask hcall fun r => ?_)
  have hsettle : s.settle r = s'.settle r := by
    unfold Stage.settle
    rw [hread]
  rw [hsettle]
  cases s'.settle r with
  | ok v => exact .tell _ (.ok v)
  | error e => exact .fail e

end TwoRuns

/-! ## The five commands -/

section Commands

variable {ctx ctx' : Params}

theorem OffSlot.last {slot : Nat} {script v v' : String} {secret secret' : Option String}
    (args : List String) (hl : args.length = slot) (hv : secret = some v)
    (hv' : secret' = some v') :
    OffSlot slot secret secret' ⟨script, args ++ [v]⟩ ⟨script, args ++ [v']⟩ where
  script_eq := rfl
  length_eq := by simp
  args_eq i hi := by
    rcases Nat.lt_or_ge i args.length with h | h
    · simp [List.getElem?_append_left h]
    · have h1 : args.length + 1 ≤ i := Nat.lt_of_le_of_ne h fun he => hi (he.symm.trans hl)
      rw [List.getElem?_eq_none (by simpa using h1), List.getElem?_eq_none (by simpa using h1)]
  slot_eq := .inr ⟨by simp [← hl, hv], by simp [← hl, hv']⟩

theorem DcInstallForest.same (ha : AgreeExcept "safeModePassword" ctx ctx')
    (hv : SameVerdict "safeModePassword" ctx ctx') :
    Prog.SameBut (OffSlot 3 (param ctx "safeModePassword") (param ctx' "safeModePassword"))
      (DcInstallForest.execute ctx) (DcInstallForest.execute ctx') := by
  refine SameBut.required (ha _ (by decide)) fun domain => SameBut.ensure rfl ?_
  refine SameBut.required (ha _ (by decide)) fun netbios => SameBut.ensure rfl ?_
  rw [ha "forestMode" (by decide)]
  refine SameBut.ensure rfl (SameBut.secret hv fun v v' h h' => ?_)
  exact SameBut.perform rfl rfl rfl (.last [domain, netbios, _] rfl h h')

theorem DomainJoin.same (ha : AgreeExcept "password" ctx ctx')
    (hv : SameVerdict "password" ctx ctx') :
    Prog.SameBut (OffSlot 2 (param ctx "password") (param ctx' "password"))
      (DomainJoin.execute ctx) (DomainJoin.execute ctx') := by
  refine SameBut.required (ha _ (by decide)) fun domain => SameBut.ensure rfl ?_
  refine SameBut.required (ha _ (by decide)) fun username => SameBut.ensure rfl ?_
  refine SameBut.secret hv fun v v' h h' => ?_
  exact SameBut.perform rfl rfl rfl (.last [domain, username] rfl h h')

theorem TemplateGrantAccess.same (host : Host) (ha : AgreeExcept "password" ctx ctx')
    (hv : SameVerdict "password" ctx ctx') :
    Prog.SameBut (OffSlot 4 (param ctx "password") (param ctx' "password"))
      (TemplateGrantAccess.execute host ctx) (TemplateGrantAccess.execute host ctx') := by
  refine SameBut.required (ha _ (by decide)) fun template => SameBut.ensure rfl ?_
  refine SameBut.required (ha _ (by decide)) fun computer => SameBut.ensure rfl ?_
  refine SameBut.required (ha _ (by decide)) fun username => SameBut.ensure rfl ?_
  refine SameBut.secret hv fun v v' h h' => ?_
  exact SameBut.perform rfl rfl rfl (.last [template, computer, _, username] rfl h h')

theorem CaInstallCert.same (ha : AgreeExcept "password" ctx ctx')
    (hv : SameVerdict "password" ctx ctx') :
    Prog.SameBut (OffSlot 2 (param ctx "password") (param ctx' "password"))
      (CaInstallCert.execute ctx) (CaInstallCert.execute ctx') := by
  refine SameBut.required (ha _ (by decide)) fun certPath => SameBut.ensure rfl ?_
  refine SameBut.required (ha _ (by decide)) fun username => SameBut.ensure rfl ?_
  refine SameBut.secret hv fun v v' h h' => ?_
  exact SameBut.perform rfl rfl rfl (.last [certPath, username] rfl h h')

theorem CaInstall.cryptoParams_same (ha : AgreeExcept "password" ctx ctx') :
    cryptoParams ctx = cryptoParams ctx' := by
  unfold cryptoParams
  rw [ha "keyAlgorithm" (by decide), ha "keyLength" (by decide), ha "hashAlgorithm" (by decide)]

theorem CaInstall.executeIssuing_same (ha : AgreeExcept "password" ctx ctx')
    (hv : SameVerdict "password" ctx ctx') (commonName : String) (crypto : CryptoParams)
    (years : String) :
    Prog.SameBut (OffSlot 9 (param ctx "password") (param ctx' "password"))
      (executeIssuing ctx commonName crypto years)
      (executeIssuing ctx' commonName crypto years) := by
  unfold executeIssuing
  rw [ha "cpsUrl" (by decide), ha "cpsOid" (by decide), ha "csrPath" (by decide)]
  refine SameBut.ensure rfl (SameBut.ensure rfl (SameBut.ensure rfl ?_))
  refine SameBut.required (ha _ (by decide)) fun username => SameBut.ensure rfl ?_
  refine SameBut.secret hv fun v v' h h' => ?_
  exact SameBut.perform rfl rfl rfl
    (.last [commonName, _, _, _, years, _, _, _, username] rfl h h')

theorem OffSlot.refl (slot : Nat) (secret secret' : Option String) (c : ShellCall) :
    OffSlot slot secret secret' c c := ⟨rfl, rfl, fun _ _ => rfl, .inl rfl⟩

theorem CaInstall.same (ha : AgreeExcept "password" ctx ctx')
    (hv : SameVerdict "password" ctx ctx') :
    Prog.SameBut (OffSlot 9 (param ctx "password") (param ctx' "password"))
      (CaInstall.execute ctx) (CaInstall.execute ctx') := by
  unfold execute
  rw [ha "caType" (by decide), ha "validityYears" (by decide), cryptoParams_same ha]
  refine SameBut.ensure rfl (SameBut.required (ha _ (by decide)) fun commonName => ?_)
  refine SameBut.ensure rfl (Prog.SameBut.bind (.refl (OffSlot.refl _ _ _) _) fun crypto => ?_)
  refine SameBut.ensure rfl ?_
  by_cases hi : (param ctx' "caType").getD "Root" = "Issuing"
  · rw [if_pos hi, if_pos hi]
    exact executeIssuing_same ha hv commonName crypto _
  · rw [if_neg hi, if_neg hi]
    exact .refl (OffSlot.refl _ _ _) _

end Commands

/-- A command that takes a password: its handler, the password's key and the
slot the password has among the arguments. -/
structure SecretCommand where
  handler : CommandHandler
  key : String
  slot : Nat

/-- The commands that take a password, and where it stands in their arguments. -/
def secretCommands (host : Host) : List SecretCommand :=
  [⟨CaInstall.handler, "password", 9⟩, ⟨CaInstallCert.handler, "password", 2⟩,
    ⟨DcInstallForest.handler, "safeModePassword", 3⟩, ⟨DomainJoin.handler, "password", 2⟩,
    ⟨TemplateGrantAccess.handler host, "password", 4⟩]

theorem secretCommands_same (host : Host) {ctx ctx' : Params} :
    ∀ c ∈ secretCommands host, AgreeExcept c.key ctx ctx' → SameVerdict c.key ctx ctx' →
      Prog.SameBut (OffSlot c.slot (param ctx c.key) (param ctx' c.key))
        (c.handler.execute ctx) (c.handler.execute ctx') := by
  simp only [secretCommands, List.forall_mem_cons]
  exact ⟨CaInstall.same, CaInstallCert.same, DcInstallForest.same, DomainJoin.same,
    TemplateGrantAccess.same host, fun _ h => absurd h List.not_mem_nil⟩

/-- A shell whose responses are fixed: the reply to the `n`-th call. -/
def responding (replies : Nat → ShellReply) : List ShellCall → ShellCall → ShellReply :=
  fun past _ => replies past.length

/-- Secrets do not flow to anything observable. -/
theorem secrets_unobservable (host : Host) (c : SecretCommand) (hc : c ∈ secretCommands host)
    (ctx ctx' : Params) (ha : AgreeExcept c.key ctx ctx') (hv : SameVerdict c.key ctx ctx')
    (replies : Nat → ShellReply) :
    let o := (c.handler.execute ctx).run (responding replies) []
    let o' := (c.handler.execute ctx').run (responding replies) []
    Event.messages o.trace = Event.messages o'.trace ∧
      o.result = o'.result ∧
      List.Forall₂ (OffSlot c.slot (param ctx c.key) (param ctx' c.key))
        (Event.queries o.trace) (Event.queries o'.trace) := by
  intro o o'
  have hw : ∀ past past' q q', List.Forall₂ (OffSlot c.slot (param ctx c.key) (param ctx' c.key))
      past past' → OffSlot c.slot (param ctx c.key) (param ctx' c.key) q q' →
      responding replies past q = responding replies past' q' :=
    fun past past' q q' hp _ => by rw [responding, responding, hp.length_eq]
  obtain ⟨hm, hx, hr⟩ := (secretCommands_same host c hc ha hv).run hw [] [] .nil
  refine ⟨hm, hr, ?_⟩
  rw [Event.queries, Event.queries, List.forall₂_map_left_iff, List.forall₂_map_right_iff]
  exact hx.imp fun _ _ h => h.1

/-- Parameters of `domain.join` with the given password. -/
def domainJoinParams (password : String) : Params :=
  [("domainName", "pki.example.com"), ("username", "PKI\\joiner"), ("password", password)]

/-- Joining a domain with one password or with another. -/
theorem secrets_unobservable_domain_join :
    let o := (DomainJoin.handler.execute (domainJoinParams "Secret1!")).run
      (responding fun _ => .ok ⟨"", "", 0⟩) []
    let o' := (DomainJoin.handler.execute (domainJoinParams "other")).run
      (responding fun _ => .ok ⟨"", "", 0⟩) []
    Event.messages o.trace = Event.messages o'.trace ∧ o.result = o'.result ∧
      List.Forall₂ (OffSlot 2 (some "Secret1!") (some "other"))
        (Event.queries o.trace) (Event.queries o'.trace) := by
  have ha : AgreeExcept "password" (domainJoinParams "Secret1!") (domainJoinParams "other") := by
    intro k hk
    have hk' : (k == "password") = false := by simpa using hk
    simp [domainJoinParams, param, List.lookup_cons, hk']
  have hv : SameVerdict "password" (domainJoinParams "Secret1!") (domainJoinParams "other") := by
    unfold SameVerdict
    decide
  exact secrets_unobservable .idle ⟨DomainJoin.handler, "password", 2⟩ (by simp [secretCommands])
    _ _ ha hv fun _ => .ok ⟨"", "", 0⟩

end PkiExecutor
