/-
# `PkiExecutor.Provisioning` — converging plans

Of several commands the source says that "converging plans re-run clean": the CertEnroll
hosting (`iis.rs`), the access to a template (`template.rs`), the registry values of the
CA (`ca.rs`) and the alias in the DNS (`dns.rs`).  Their scripts look before they make
something, set what they set to a value, or take it away first, and an error ends them
where they are.  Each is an effect on the resources of the machines.

Two of the commands in them are run without a look at how they end, `auditpol` and
`klist purge`, so of what these do nothing is certain.

`plans_converge` is about a plan of dispatches of these commands that do not contradict
each other.  They are attempted in any order and as often as one likes, and any attempt may
break off at any command.  If the last attempt at each of them succeeded then every
resource has what the plan makes of what was there at the start, the CA's settings are in
force, and nothing else has changed.
-/
import PkiExecutor.Lib.Desired
import PkiExecutor.Scripted
import PkiExecutor.Settings

namespace PkiExecutor

/-! ## The resources -/

/-- What the scripts look at and make, under names in lower case. -/
inductive Resource
  | folder (path : String)
  /-- the share `CertEnroll` -/
  | share
  /-- the right to modify a folder -/
  | access (path account : String)
  | webServer
  /-- the virtual directory `CertEnroll` -/
  | virtualDirectory
  | browsing
  | doubleEscaping
  /-- an entry in the list of a certificate template: to read it, or an extended right -/
  | ace (template sid : String) (right : Option String)
  /-- a value of the active CA -/
  | registry (name : String)
  /-- what is audited of the access to objects -/
  | auditPolicy
  /-- the Kerberos tickets of the machine's account -/
  | tickets
  | alias (zone name : String)
  deriving DecidableEq, Repr

/-- The machines, as far as the scripts look at them and change them. -/
abbrev Estate := Stock Resource (List String)

/-- What is particular to the machines. -/
structure Site where
  /-- the SID of a computer's account -/
  sid : String → Option String
  /-- the credential opens the template's entry in the directory -/
  opens : String → String → String → Bool
  /-- what `certutil -setreg` makes of a number when it is given bits to set, as `+8` -/
  setBits : Option (List String) → String → List String
  setBits_setBits : ∀ old bits, setBits (some (setBits old bits)) bits = setBits old bits
  /-- what the scripts print -/
  prints : ShellCall → Estate → String

namespace Site

variable (site : Site)

/-- `certutil -setreg` over an old value. -/
def setreg (old : Option (List String)) (value : String) : List String :=
  if Str.startsWith value "+" then site.setBits old value else [value]

/-- What becomes of a value of the CA. -/
def aimRegistry (old : Option (List String)) : List String → Option (List String)
  | [value] => some (site.setreg old value)
  | values => some values

theorem aimRegistry_aimRegistry (old : Option (List String)) (values : List String) :
    site.aimRegistry (site.aimRegistry old values) values = site.aimRegistry old values := by
  match values with
  | [] => rfl
  | [value] =>
      show some (site.setreg (some (site.setreg old value)) value) = some (site.setreg old value)
      unfold setreg
      split
      · rw [site.setBits_setBits]
      · rfl
  | _ :: _ :: _ => rfl

/-- A value of the CA is set, or bits of it are. -/
def registered : Manner (List String) where
  aim := site.aimRegistry
  aim_aim := site.aimRegistry_aimRegistry
  vacates := false
  aim_none h := absurd h Bool.false_ne_true
  checked := true

/-- What is found is left as it is, and an alias is removed first. -/
def manner : Resource → Manner (List String)
  | .share => .fill
  | .virtualDirectory => .fill
  | .alias _ _ => .replace
  | .registry _ => site.registered
  | .auditPolicy => .trySet
  | .tickets => .tryRemove
  | _ => .set

end Site

/-- A name as it is looked up. -/
def folded (name : String) : String := Str.toAsciiLowercase (Str.trimEndMatches name '.')

/-! ## The scripts -/

namespace Provisioning

open Effect

/-- A resource is given a value. -/
def put (r : Resource) (value : List String) : Effect Estate Unit :=
  change fun s => s.put r (some value)

/-- A look with `-ErrorAction SilentlyContinue`. -/
def found (r : Resource) : Effect Estate Bool :=
  (look fun s : Estate => (s.stored r).isSome).attempt fun _ => pure false

def certPublishers (netbios : String) : String := netbios ++ "\\Cert Publishers"

/-- `New-SmbShare`, where there is none. -/
def newShare (path netbios : String) : Effect Estate Unit := do
  let there ← found .share
  when (!there) (create .share [path, certPublishers netbios] (fun _ => true)
    "The name has already been shared.")

/-- `if ($Scope -ne 'web') { … }` -/
def shareHalf (path netbios : String) : Effect Estate Unit := do
  put (.folder (folded path)) []
  newShare path netbios
  put (.access (folded path) (folded (certPublishers netbios))) []

/-- The folder must be there. -/
def newVirtualDirectory (path : String) : Effect Estate Unit := do
  let there ← look fun s => (s.stored .virtualDirectory).isSome
  when (!there) (create .virtualDirectory [path]
    (fun s => (s.stored (.folder (folded path))).isSome)
    "Parameter 'PhysicalPath' should point to existing path.")

/-- `if ($Scope -ne 'share') { … }`; that `iisreset` fails goes unnoticed. -/
def webHalf (path : String) : Effect Estate Unit := do
  put .webServer []
  look fun _ => ()
  newVirtualDirectory path
  put .browsing ["True"]
  put .doubleEscaping ["True"]

/-- The script of `iis.setup_certenroll`. -/
def setupCertEnroll (path netbios scope : String) : Effect Estate Unit := do
  when (scope ≠ "web") (shareHalf path netbios)
  when (scope ≠ "share") (webHalf path)

/-- Both entries are written by `CommitChanges`. -/
def grantAccess (site : Site) (template computer enrollGuid username password : String) :
    Effect Estate Unit := do
  look fun _ => ()
  match site.sid computer with
  | none => throw ("Cannot find an object with identity: '" ++ computer ++ "'.")
  | some sid => do
      look fun _ => ()
      require (site.opens template username password) "The user name or password is incorrect."
      change fun s => (s.put (.ace (folded template) sid none) (some [])).put
        (.ace (folded template) sid (some enrollGuid)) (some [])
      look fun _ => ()

/-- The exit code of `auditpol` is not looked at. -/
def setAuditPolicy : Effect Estate Unit :=
  (change fun s : Estate => s.put .auditPolicy (some ["Success", "Failure"])).silently

/-- Nor is that of `klist -li 0x3e7 purge`. -/
def purgeTickets : Effect Estate Unit := (change fun s : Estate => s.put .tickets none).silently

/-- One step of a script that configures the CA. -/
def runAction (site : Site) : CaConfigureSettings.Action → Effect Estate Unit
  | .setreg name value => change fun s =>
      s.put (.registry name) (some (site.setreg (s.stored (.registry name)) value))
  | .auditpol => setAuditPolicy
  | .restart => restart

/-- The steps of such a script, one after another. -/
def runActions (site : Site) : List CaConfigureSettings.Action → Effect Estate Unit
  | [] => pure ()
  | [action] => runAction site action
  | action :: next :: rest => do
      runAction site action
      runActions site (next :: rest)

/-- The script of `ca.configure_cdp_aia`. -/
def configureCdpAia (site : Site) (aiaUrls cdpUrls : String) : Effect Estate Unit := do
  runActions site (CaConfigureSettings.setIf "CA\\CACertPublicationURLs" aiaUrls ++
    CaConfigureSettings.setIf "CA\\CRLPublicationURLs" cdpUrls)
  purgeTickets
  restart

/-- The alias is removed, if there is one, and added. -/
def replaceAlias (zone name target : String) : Effect Estate Unit := do
  let existing ← found (.alias (folded zone) (folded name))
  when existing (change fun s => s.put (.alias (folded zone) (folded name)) none)
  create (.alias (folded zone) (folded name)) [target] (fun _ => true)
    "Failed to create resource record."

/-- The script of `dns.create_record`, with its last look. -/
def createRecord (zone name target : String) : Effect Estate Unit := do
  replaceAlias zone name target
  look fun _ => ()

end Provisioning

/-! ## The commands -/

/-- The commands of which plans are made. -/
inductive Converging
  | iisSetupCertEnroll
  | templateGrantAccess
  | caConfigureCdpAia
  | caConfigureSettings
  | dnsCreateRecord
  deriving DecidableEq, Repr

namespace Converging

open Provisioning Effect

def handler (host : Host) : Converging → CommandHandler
  | .iisSetupCertEnroll => IisSetupCertEnroll.handler
  | .templateGrantAccess => TemplateGrantAccess.handler host
  | .caConfigureCdpAia => CaConfigureCdpAia.handler
  | .caConfigureSettings => CaConfigureSettings.handler
  | .dnsCreateRecord => DnsCreateRecord.handler

def script : Converging → String
  | .iisSetupCertEnroll => IisSetupCertEnroll.script
  | .templateGrantAccess => TemplateGrantAccess.grantAccessScript
  | .caConfigureCdpAia => CaConfigureCdpAia.script
  | .caConfigureSettings => CaConfigureSettings.script
  | .dnsCreateRecord => DnsCreateRecord.script

/-- The script over its arguments. -/
def effect (site : Site) : Converging → List String → Effect Estate Unit
  | .iisSetupCertEnroll, [path, netbios, scope] => setupCertEnroll path netbios scope
  | .templateGrantAccess, [template, computer, enrollGuid, username, password] =>
      grantAccess site template computer enrollGuid username password
  | .caConfigureCdpAia, [aiaUrls, cdpUrls] => configureCdpAia site aiaUrls cdpUrls
  | .caConfigureSettings, args => runActions site (CaConfigureSettings.scriptActions args)
  | .dnsCreateRecord, [zone, name, target] => createRecord zone name target
  | _, _ => throw ""

/-! ### What they demand -/

def shareDemand (path netbios : String) : Demand Resource (List String) :=
  (Demand.single (.folder (folded path)) []).and
    ((Demand.single .share [path, certPublishers netbios]).and
      (.single (.access (folded path) (folded (certPublishers netbios))) []))

def webDemand (path : String) : Demand Resource (List String) :=
  (Demand.single .webServer []).and
    ((Demand.single .virtualDirectory [path]).and
      ((Demand.single .browsing ["True"]).and (.single .doubleEscaping ["True"])))

/-- What a step asks for. -/
def actionDemand : CaConfigureSettings.Action → Demand Resource (List String)
  | .setreg name value => .single (.registry name) [value]
  | .auditpol => .single .auditPolicy ["Success", "Failure"]
  | .restart => ⟨fun _ => none, true⟩

def actionsDemand : List CaConfigureSettings.Action → Demand Resource (List String)
  | [] => .nothing
  | [action] => actionDemand action
  | action :: next :: rest => (actionDemand action).and (actionsDemand (next :: rest))

def cdpAiaDemand (aiaUrls cdpUrls : String) : Demand Resource (List String) :=
  (actionsDemand (CaConfigureSettings.setIf "CA\\CACertPublicationURLs" aiaUrls ++
    CaConfigureSettings.setIf "CA\\CRLPublicationURLs" cdpUrls)).and
    ((Demand.single .tickets []).and ⟨fun _ => none, true⟩)

def grantDemand (site : Site) (template computer enrollGuid : String) :
    Demand Resource (List String) :=
  match site.sid computer with
  | none => .nothing
  | some sid => (Demand.single (.ace (folded template) sid none) []).and
      (.single (.ace (folded template) sid (some enrollGuid)) [])

/-- What a script asks for, by its arguments. -/
def demand (site : Site) : Converging → List String → Demand Resource (List String)
  | .iisSetupCertEnroll, [path, netbios, scope] =>
      (if scope ≠ "web" then shareDemand path netbios else .nothing).and
        (if scope ≠ "share" then webDemand path else .nothing)
  | .templateGrantAccess, [template, computer, enrollGuid, _, _] =>
      grantDemand site template computer enrollGuid
  | .caConfigureCdpAia, [aiaUrls, cdpUrls] => cdpAiaDemand aiaUrls cdpUrls
  | .caConfigureSettings, args => actionsDemand (CaConfigureSettings.scriptActions args)
  | .dnsCreateRecord, [zone, name, target] =>
      .single (.alias (folded zone) (folded name)) [target]
  | _, _ => .nothing

theorem found_yields (r : Resource) (s : Estate) :
    (found r).Yields s
      (fun there s' => s' = s ∧ (there = true → (s.stored r).isSome = true)) fun _ s' => s' = s :=
  .attempt (.look (fun _ => .pure ⟨rfl, fun h => (by cases h)⟩) ⟨rfl, id⟩)

theorem look_yields (r : Resource) (s : Estate) :
    (look fun s : Estate => (s.stored r).isSome).Yields s
      (fun there s' => s' = s ∧ (there = true → (s.stored r).isSome = true)) fun _ s' => s' = s :=
  .look (fun _ => rfl) ⟨rfl, id⟩

variable (site : Site)

theorem put_brings {r : Resource} (value : List String) (h : site.manner r = .set) :
    Brings site.manner (put r value) (.single r value) := .put h

theorem shareHalf_brings (path netbios : String) :
    Brings site.manner (shareHalf path netbios) (shareDemand path netbios) := by
  refine (put_brings site [] rfl).seq rfl ?_ fun _ => ?_
  · intro r
    cases r <;> simp [Demand.single, Demand.and]
  have hfill : site.manner .share = .fill := rfl
  refine Brings.seq (.fill hfill (found_yields .share) _ _) rfl ?_ fun _ => put_brings site [] rfl
  intro r
  cases r <;> simp [Demand.single]

theorem webHalf_brings (path : String) :
    Brings site.manner (webHalf path) (webDemand path) := by
  refine (put_brings site [] rfl).seq rfl ?_ fun _ => .after (.look _) fun _ => ?_
  · intro r
    cases r <;> simp [Demand.single, Demand.and]
  have hfill : site.manner .virtualDirectory = .fill := rfl
  refine Brings.seq (.fill hfill (look_yields .virtualDirectory) _ _) rfl ?_ fun _ => ?_
  · intro r
    cases r <;> simp [Demand.single, Demand.and]
  refine (put_brings site _ rfl).seq rfl ?_ fun _ => put_brings site _ rfl
  intro r
  cases r <;> simp [Demand.single]

theorem setupCertEnroll_brings (path netbios scope : String) :
    Brings site.manner (setupCertEnroll path netbios scope)
      ((if scope ≠ "web" then shareDemand path netbios else .nothing).and
        (if scope ≠ "share" then webDemand path else .nothing)) := by
  refine Brings.seq (.when fun _ => shareHalf_brings site path netbios) (Demand.restarts_ite rfl) ?_
    fun _ => .when fun _ => webHalf_brings site path
  intro r
  by_cases hw : scope ≠ "web"
  · rw [if_pos hw]
    split
    · cases r <;> simp [shareDemand, webDemand, Demand.single, Demand.and]
    · exact .inr rfl
  · rw [if_neg hw]
    exact .inl rfl

theorem grantAccess_brings (template computer enrollGuid username password : String) :
    Brings site.manner (grantAccess site template computer enrollGuid username password)
      (grantDemand site template computer enrollGuid) := by
  refine .after (.look _) fun _ => ?_
  unfold grantDemand
  cases site.sid computer with
  | none => exact .throw _ _
  | some sid =>
      refine .after (.look _) fun _ => .after (.require _ _) fun _ => ?_
      exact Brings.before (.put_put rfl rfl (by simp)) rfl fun _ => .look _

/-- The resource of a step. -/
def resourceOf : CaConfigureSettings.Action → Option Resource
  | .setreg name _ => some (.registry name)
  | .auditpol => some .auditPolicy
  | .restart => none

/-- A step that is no restart and leaves alone what a later one changes. -/
def Before (action next : CaConfigureSettings.Action) : Prop :=
  action ≠ .restart ∧ resourceOf action ≠ resourceOf next

theorem actionDemand_wants {action : CaConfigureSettings.Action} {r : Resource} {x : List String}
    (h : (actionDemand action).wants r = some x) : resourceOf action = some r := by
  cases action with
  | setreg name value =>
      obtain ⟨rfl, -⟩ := Demand.of_single h
      rfl
  | auditpol =>
      obtain ⟨rfl, -⟩ := Demand.of_single h
      rfl
  | restart => cases h

theorem actionsDemand_wants : ∀ {actions : List CaConfigureSettings.Action} {r : Resource}
    {x : List String}, (actionsDemand actions).wants r = some x →
    ∃ action ∈ actions, resourceOf action = some r
  | [], _, _, h => by cases h
  | [action], _, _, h => ⟨action, List.mem_cons_self, actionDemand_wants h⟩
  | action :: next :: rest, r, x, h => by
      rcases Option.or_eq_some_iff.mp h with h | ⟨-, h⟩
      · exact ⟨action, List.mem_cons_self, actionDemand_wants h⟩
      · obtain ⟨action', hm, hr⟩ := actionsDemand_wants h
        exact ⟨action', List.mem_cons_of_mem _ hm, hr⟩

theorem actionDemand_restarts {action : CaConfigureSettings.Action} (h : action ≠ .restart) :
    (actionDemand action).restarts = false := by
  cases action with
  | setreg name value => rfl
  | auditpol => rfl
  | restart => exact absurd rfl h

theorem actionsDemand_restarts : ∀ {actions : List CaConfigureSettings.Action},
    .restart ∉ actions → (actionsDemand actions).restarts = false
  | [], _ => rfl
  | [action], h => actionDemand_restarts fun he => h (he ▸ List.mem_cons_self)
  | action :: next :: rest, h => by
      rw [List.mem_cons, not_or] at h
      show (_ || _) = false
      rw [actionDemand_restarts fun he => h.1 he.symm, actionsDemand_restarts h.2]
      rfl

theorem runAction_brings (action : CaConfigureSettings.Action) :
    Brings site.manner (runAction site action) (actionDemand action) := by
  cases action with
  | setreg name value => exact .aimed fun _ => rfl
  | auditpol => exact .tried rfl fun _ => rfl
  | restart => exact .restart

theorem runActions_brings : ∀ {actions : List CaConfigureSettings.Action},
    actions.Pairwise Before → Brings site.manner (runActions site actions) (actionsDemand actions)
  | [], _ => .pure ()
  | [action], _ => runAction_brings site action
  | action :: next :: rest, h => by
      rw [List.pairwise_cons] at h
      refine (runAction_brings site action).seq
        (actionDemand_restarts (h.1 next List.mem_cons_self).1) (fun r => ?_)
        fun _ => runActions_brings h.2
      cases hr : (actionDemand action).wants r with
      | none => exact .inl rfl
      | some x =>
          refine .inr (Option.eq_none_iff_forall_ne_some.mpr fun y hy => ?_)
          obtain ⟨action', hm, hsame⟩ := actionsDemand_wants hy
          exact (h.1 action' hm).2 ((actionDemand_wants hr).trans hsame.symm)

theorem setIf_sublist (name value : String) :
    (CaConfigureSettings.setIf name value).Sublist [.setreg name value] := by
  unfold CaConfigureSettings.setIf
  split
  · exact List.nil_sublist _
  · exact List.Sublist.refl _

theorem scriptActions_pairwise (args : List String) :
    (CaConfigureSettings.scriptActions args).Pairwise Before := by
  unfold CaConfigureSettings.scriptActions
  split
  · rename_i v₁ v₂ v₃ v₄ v₅ v₆ v₇ v₈ v₉ v₁₀
    have hall : List.Pairwise Before ([.setreg "CA\\DSConfigDN" v₁] ++
        [.setreg "CA\\CRLPeriodUnits" v₂] ++ [.setreg "CA\\CRLPeriod" v₃] ++ [.setreg "CA\\CRLDeltaPeriodUnits" v₄] ++
        [.setreg "CA\\CRLDeltaPeriod" v₅] ++ [.setreg "CA\\CRLOverlapPeriodUnits" v₆] ++
        [.setreg "CA\\CRLOverlapPeriod" v₇] ++ [.setreg "CA\\ValidityPeriodUnits" v₈] ++
        [.setreg "CA\\ValidityPeriod" v₉] ++ [.setreg "CA\\AuditFilter" v₁₀, .auditpol] ++
        [.restart]) := by
      simp [Before, resourceOf]
    refine hall.sublist ?_
    refine List.Sublist.append (List.Sublist.append ?_ ?_) (List.Sublist.refl _)
    · iterate 8 refine List.Sublist.append ?_ (setIf_sublist _ _)
      exact setIf_sublist _ _
    · split
      · exact List.nil_sublist _
      · exact List.Sublist.refl _
  · exact .nil

theorem createRecord_brings (zone name target : String) :
    Brings site.manner (createRecord zone name target)
      (.single (.alias (folded zone) (folded name)) [target]) := by
  have hreplace : site.manner (.alias (folded zone) (folded name)) = .replace := rfl
  refine Brings.before (.replace hreplace (fun s => ?_) _) rfl fun _ => .look _
  exact (found_yields _ s).mono (fun _ _ h => h.1) fun _ _ h => h

theorem configureCdpAia_brings (aiaUrls cdpUrls : String) :
    Brings site.manner (configureCdpAia site aiaUrls cdpUrls) (cdpAiaDemand aiaUrls cdpUrls) := by
  have hsub := (setIf_sublist "CA\\CACertPublicationURLs" aiaUrls).append
    (setIf_sublist "CA\\CRLPublicationURLs" cdpUrls)
  have hall : List.Pairwise Before ([.setreg "CA\\CACertPublicationURLs" aiaUrls] ++
      [.setreg "CA\\CRLPublicationURLs" cdpUrls]) := by
    simp [Before, resourceOf]
  refine (runActions_brings site (hall.sublist hsub)).seq (actionsDemand_restarts fun hm => ?_)
    (fun r => ?_) fun _ => Brings.seq (.tried rfl fun _ => rfl) rfl (fun _ => .inr rfl)
      fun _ => .restart
  · simpa using hsub.subset hm
  · by_cases hr : r = .tickets
    · left
      refine Option.eq_none_iff_forall_ne_some.mpr fun y hy => ?_
      obtain ⟨action, hm, hsame⟩ := actionsDemand_wants hy
      rw [hr] at hsame
      have hmem := hsub.subset hm
      simp only [List.cons_append, List.nil_append, List.mem_cons, List.not_mem_nil, or_false]
        at hmem
      rcases hmem with rfl | rfl <;> cases hsame
    · right
      simp [Demand.single, Demand.and, hr]

/-- Every run of a script does what its arguments ask for, or part of it. -/
theorem effect_brings (c : Converging) (args : List String) :
    Brings site.manner (c.effect site args) (c.demand site args) := by
  unfold effect demand
  split
  · exact setupCertEnroll_brings site _ _ _
  · exact grantAccess_brings site _ _ _ _ _
  · exact configureCdpAia_brings site _ _
  · exact runActions_brings site (scriptActions_pairwise _)
  · exact createRecord_brings site _ _ _
  · exact .throw _ _

end Converging

/-! ## Plans -/

/-- A command of a plan with its parameters. -/
abbrev PlanStep := Converging × Params

namespace PlanStep

variable (site : Site) (host : Host) (misbound : ShellCall → Effect Estate String)

def execute (d : PlanStep) : Exec Json := (d.1.handler host).execute d.2

/-- What the script says that it runs, where there is one. -/
def demand (d : PlanStep) : Demand Resource (List String) :=
  match execute host d with
  | .tell _ (.ask call _) => d.1.demand site call.args
  | _ => .nothing

/-- The script over its arguments, with what it prints. -/
def run (d : PlanStep) (args : List String) : Effect Estate String := do
  d.1.effect site args
  let s ← Effect.get
  return site.prints ⟨d.1.script, args⟩ s

/-- A call of the script. -/
def meaning (d : PlanStep) : ShellCall → Effect Estate String :=
  ofScript d.1.script (d.run site) (Effect.throw "")

/-- A dispatch of the command, on which any of the script's commands may fail; it is
complete if the command succeeds. -/
def attempt (d : PlanStep) (complete : Bool) (s s' : Estate) : Prop :=
  ∃ faults, let played := playOn (bound misbound (d.meaning site)) ⟨s, faults⟩ (d.execute host)
    played.1.isOk = complete ∧ played.2.state = s'

variable {site host misbound} {d : PlanStep}

theorem staged (host : Host) (d : PlanStep) :
    Staged (fun s => s.script = d.1.script ∧ BindsLike (d.1.handler host).name d.2 s)
      (d.execute host) := by
  obtain ⟨c, ctx⟩ := d
  cases c with
  | iisSetupCertEnroll =>
      refine ((IisSetupCertEnroll.staged ctx).mono ?_).and_binds (IisSetupCertEnroll.binds ctx)
      rintro _ ⟨path, netbios, scope, -, -, -, -, rfl⟩
      rfl
  | templateGrantAccess =>
      refine ((TemplateGrantAccess.staged host ctx).mono ?_).and_binds
        (TemplateGrantAccess.binds host ctx)
      rintro _ ⟨template, computer, username, password, -, -, -, -, -, -, -, -, rfl⟩
      rfl
  | caConfigureCdpAia =>
      refine ((CaConfigureCdpAia.staged ctx).mono ?_).and_binds (CaConfigureCdpAia.binds ctx)
      rintro _ ⟨aiaEntries, cdpEntries, -, -, -, -, rfl⟩
      rfl
  | caConfigureSettings =>
      refine ((CaConfigureSettings.staged ctx).mono ?_).and_binds (CaConfigureSettings.binds ctx)
      rintro _ ⟨-, -, rfl⟩
      rfl
  | dnsCreateRecord =>
      refine ((DnsCreateRecord.staged ctx).mono ?_).and_binds (DnsCreateRecord.binds ctx)
      rintro _ ⟨zone, name, target, -, -, -, -, -, -, rfl⟩
      rfl

theorem run_yields (site : Site) (d : PlanStep) (args : List String) (s : Estate) :
    (d.run site args).Yields s
      (fun _ s' => Moves site.manner (d.1.demand site args) true s s')
      fun _ s' => Moves site.manner (d.1.demand site args) false s s' :=
  .bind ((Converging.effect_brings site d.1 args s).mono
    (fun _ _ h => .bind (.get (.pure h))) fun _ _ h => h)

theorem attempt_moves (hb : Binds (forwarded (d.1.handler host).name d.2)) {complete : Bool}
    {s s' : Estate} (h : d.attempt site host misbound complete s s') :
    Moves site.manner (d.demand site host) complete s s' := by
  have hstaged := d.staged host
  obtain ⟨faults, hok, hstate⟩ := h
  unfold demand
  generalize d.execute host = p at hstaged hok hstate ⊢
  cases hstaged with
  | rejected he =>
      cases hstate
      exact .nothing complete s
  | @perform stage hstage =>
      obtain ⟨hscript, hlike⟩ := hstage
      have hyields : (d.meaning site stage.call).Yields s
          (fun _ s' => Moves site.manner (d.1.demand site stage.args) true s s')
          (fun _ s' => Moves site.manner (d.1.demand site stage.args) false s s') := by
        rw [meaning, ofScript_stage hscript]
        exact run_yields site d stage.args s
      have hplayed : Played stage
          (fun _ s' => Moves site.manner (d.1.demand site stage.args) true s s')
          (fun _ s' => Moves site.manner (d.1.demand site stage.args) false s s')
          (playOn (bound misbound (d.meaning site)) ⟨s, faults⟩ (perform stage)) :=
        played_bound (hlike.mpr hb) hyields
      rw [perform_eq]
      rw [← hstate]
      rcases hplayed with ⟨out, -, hmoves⟩ | ⟨e, he, hmoves⟩
      · exact hmoves.of_complete
      · rw [he] at hok
        cases hok
        exact hmoves

theorem attempt_of_run {stage : Stage} (he : d.execute host = perform stage)
    (hs : stage.script = d.1.script) (hb : Binds stage.args) (s : Estate)
    (faults : List (Option String)) {complete : Bool} {s' : Estate}
    (h : ((stage.settle (serveScripts (fun c => d.run site c.args) ⟨s, faults⟩ stage.call).2).isOk =
      complete ∧ (serveScripts (fun c => d.run site c.args) ⟨s, faults⟩ stage.call).1.state = s')) :
    d.attempt site host misbound complete s s' := by
  have hmeaning : bound misbound (d.meaning site) stage.call = d.run site stage.args := by
    rw [bound, if_pos (show Binds stage.call.args from hb), meaning, ofScript_stage hs]
  have hserve : serveScripts (bound misbound (d.meaning site)) ⟨s, faults⟩ stage.call =
      serveScripts (fun c => d.run site c.args) ⟨s, faults⟩ stage.call := by
    rw [serveScripts, serveScripts, hmeaning]
    rfl
  refine ⟨faults, ?_⟩
  rw [he, playOn_perform, hserve]
  exact h

end PlanStep

/-- Whatever is attempted in whichever order and however often, and wherever attempts break
off, if the last attempt at each command succeeded: what nobody wants is as it was; what is
wanted has what the plan makes of what was there, but for what the scripts only try, which
may also be as it was; and the CA goes by its new settings. -/
theorem plans_converge (site : Site) (host : Host) (misbound : ShellCall → Effect Estate String)
    (plan : List PlanStep) (hb : ∀ d ∈ plan, Binds (forwarded (d.1.handler host).name d.2))
    (hc : Compatible site.manner (PlanStep.demand site host) plan) (s₀ s : Estate)
    (h : List (PlanStep × Bool))
    (ha : Attempts (PlanStep.attempt site host misbound) s₀ h s) (hplan : ∀ a ∈ h, a.1 ∈ plan)
    (hlast : ∀ d ∈ plan, h.lookup d = some true) :
    (∀ r, (∀ d ∈ plan, (d.demand site host).wants r = none) → s.stored r = s₀.stored r) ∧
      ∀ d ∈ plan, ∀ r x, (d.demand site host).wants r = some x →
        (site.manner r).OnTheWay x (s₀.stored r) (s.stored r) ∧
          ((site.manner r).checked = true →
            s.stored r = (site.manner r).aim (s₀.stored r) x ∧
              ((d.demand site host).restarts = true → s.inForce r = s.stored r)) := by
  have hruns : ∀ d ∈ plan, ∀ complete s s', PlanStep.attempt site host misbound d complete s s' →
      Moves site.manner (d.demand site host) complete s s' :=
    fun d hd _ _ _ => PlanStep.attempt_moves (hb d hd)
  refine ⟨fun r hr => ha.unwanted hruns hplan hr, fun d hd r x hx => ⟨?_, fun hm => ⟨?_, ?_⟩⟩⟩
  · exact ha.wanted hruns hc hplan hd hx
  · exact ha.complete hruns hc hplan hd (hlast d hd) hx hm
  · intro hr
    exact ha.inForce hruns hc hplan (fun a hmem _ => hlast a.1 (hplan a hmem)) hd hr (hlast d hd)
      hx hm

/-- An alias is moved. -/
def aliasStep : PlanStep :=
  (.dnsCreateRecord, [("zone", "corp.lab"), ("name", "pki"), ("target", "web2.corp.lab")])

/-- A list is published. -/
def crlStep : PlanStep := (.caConfigureCdpAia, [("cdpUrls", "65:C:\\CertEnroll\\%3%8.crl")])

/-- Machines that admit nobody to a template. -/
def closedSite : Site where
  sid _ := none
  opens _ _ _ := false
  setBits _ bits := [bits]
  setBits_setBits _ _ := rfl
  prints _ _ := ""

def oldAlias : Estate :=
  ⟨fun r => if r = .alias "corp.lab" "pki" then some ["web1.corp.lab"] else none, fun _ => none⟩

theorem aliasStep_execute : aliasStep.execute .idle =
    perform (DnsCreateRecord.stage "corp.lab" "pki" "web2.corp.lab") := by rfl

theorem crlStep_execute : crlStep.execute .idle =
    perform (CaConfigureCdpAia.stage [] ["65:C:\\CertEnroll\\%3%8.crl"]) := by rfl

/-- The alias is gone after the first attempt, and nothing is wrong in the end. -/
theorem plans_converge_alias : ∃ s,
    Attempts (PlanStep.attempt closedSite .idle fun _ => Effect.throw "") oldAlias
      [(aliasStep, true), (crlStep, true), (aliasStep, false)] s ∧
    s.stored (.alias "corp.lab" "pki") = some ["web2.corp.lab"] ∧
    s.inForce (.registry "CA\\CRLPublicationURLs") = some ["65:C:\\CertEnroll\\%3%8.crl"] := by
  have hattempts : ∃ s, Attempts (PlanStep.attempt closedSite .idle fun _ => Effect.throw "")
      oldAlias [(aliasStep, true), (crlStep, true), (aliasStep, false)] s :=
    ⟨_, .attempt (.attempt (.attempt .start
      (PlanStep.attempt_of_run aliasStep_execute rfl (by decide) _
        [none, none, some "The server is busy."] ⟨rfl, rfl⟩))
      (PlanStep.attempt_of_run crlStep_execute rfl (by decide) _ [] ⟨rfl, rfl⟩))
      (PlanStep.attempt_of_run aliasStep_execute rfl (by decide) _ [] ⟨rfl, rfl⟩)⟩
  obtain ⟨s, ha⟩ := hattempts
  have hconv := plans_converge closedSite .idle (fun _ => Effect.throw "") [aliasStep, crlStep]
    (by decide) ?_ oldAlias s _ ha (by decide) (by decide)
  · obtain ⟨-, hwanted⟩ := hconv
    have halias := (hwanted aliasStep (by decide) (.alias "corp.lab" "pki") ["web2.corp.lab"]
      rfl).2 rfl
    have hcrl := (hwanted crlStep (by decide) (.registry "CA\\CRLPublicationURLs")
      ["65:C:\\CertEnroll\\%3%8.crl"] rfl).2 rfl
    exact ⟨s, ha, halias.1, (hcrl.2 rfl).trans hcrl.1⟩
  · -- one of them wants an alias, and the other a value of the CA and the tickets away
    intro i hi j hj hij r x y hx hy
    have hcrl : ∀ {z}, (crlStep.demand closedSite .idle).wants r = some z →
        r = .registry "CA\\CRLPublicationURLs" ∨ r = .tickets := by
      intro z hz
      have hparts : ((Demand.single (.registry "CA\\CRLPublicationURLs")
        ["65:C:\\CertEnroll\\%3%8.crl"]).wants r).or
          (((Demand.single .tickets []).wants r).or none) = some z := hz
      rw [Option.or_none] at hparts
      rcases Option.or_eq_some_iff.mp hparts with h | ⟨-, h⟩
      · exact .inl (Demand.of_single h).1
      · exact .inr (Demand.of_single h).1
    have halias : ∀ {z}, (aliasStep.demand closedSite .idle).wants r = some z →
        r = .alias "corp.lab" "pki" := fun hz => (Demand.of_single hz).1
    simp only [List.mem_cons, List.not_mem_nil, or_false] at hi hj
    rcases hi with rfl | rfl <;> rcases hj with rfl | rfl
    · exact absurd rfl hij
    · rcases hcrl hy with hr | hr <;> cases (halias hx).symm.trans hr
    · rcases hcrl hx with hr | hr <;> cases (halias hy).symm.trans hr
    · exact absurd rfl hij

end PkiExecutor
